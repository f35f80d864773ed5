import PolyCortex.Coroutine.Basic

/-!
# Rely-guarantee contracts for coroutines

`Meets R G Q p w` says what `p` does from the world `w`, a state with the trace of the questions
answered so far: every update it makes satisfies the guarantee `G`, provided that what happens
while it is suspended satisfies the rely `R`, and it returns in a world and with a result
satisfying `Q`. The rely sees the question the coroutine waits for and the answer it gets.

With `Alone` as the rely nothing happens during a suspension, and a contract describes sequential
runs (`Meets.run`).
-/

namespace Coroutine

variable {σ ι : Type} {ρ : ι → Type} {α β : Type}

/-- A state with the trace of what was asked and answered on the way to it. -/
structure World (σ ι : Type) (ρ : ι → Type) where
  state : σ
  trace : List (Exchanged ι ρ)

namespace World

def update (w : World σ ι ρ) (u : σ → σ) : World σ ι ρ := ⟨u w.state, w.trace⟩

def answer (w : World σ ι ρ) (q : ι) (r : ρ q) : World σ ι ρ := ⟨w.state, w.trace ++ [⟨q, r⟩]⟩

/-- The world after a complete run. -/
def after (w : World σ ι ρ) (o : Outcome σ ι ρ α) : World σ ι ρ := ⟨o.state, w.trace ++ o.trace⟩

@[simp] lemma update_state (w : World σ ι ρ) (u : σ → σ) : (w.update u).state = u w.state := rfl

@[simp] lemma update_trace (w : World σ ι ρ) (u : σ → σ) : (w.update u).trace = w.trace := rfl

@[simp] lemma answer_state (w : World σ ι ρ) (q : ι) (r : ρ q) :
    (w.answer q r).state = w.state := rfl

@[simp] lemma answer_trace (w : World σ ι ρ) (q : ι) (r : ρ q) :
    (w.answer q r).trace = w.trace ++ [⟨q, r⟩] := rfl

@[simp] lemma after_state (w : World σ ι ρ) (o : Outcome σ ι ρ α) :
    (w.after o).state = o.state := rfl

@[simp] lemma after_trace (w : World σ ι ρ) (o : Outcome σ ι ρ α) :
    (w.after o).trace = w.trace ++ o.trace := rfl

end World

/-- What a suspended coroutine relies on: the world at the await and the world at the answer. -/
abbrev Rely (σ ι : Type) (ρ : ι → Type) := (q : ι) → ρ q → World σ ι ρ → World σ ι ρ → Prop

/-- What every update of a coroutine guarantees. -/
abbrev Guarantee (σ ι : Type) (ρ : ι → Type) := World σ ι ρ → World σ ι ρ → Prop

/-- Nothing happens during a suspension. -/
def Alone : Rely σ ι ρ := fun _ _ w w' => w' = w

/-- The contract of a coroutine started in a world. -/
def Meets (R : Rely σ ι ρ) (G : Guarantee σ ι ρ) (Q : α → World σ ι ρ → Prop) :
    Coroutine σ ι ρ α → World σ ι ρ → Prop
  | .pure a, w => Q a w
  | .step u k, w => G w (w.update u) ∧ Meets R G Q (k w.state) (w.update u)
  | .await q k, w =>
    ∀ (r : ρ q) w', R q r w w' → G w' (w'.answer q r) ∧ Meets R G Q (k r) (w'.answer q r)

/-- Alone, the coroutine ends in a world and with a result satisfying `Q`. -/
abbrev Ends (Q : α → World σ ι ρ → Prop) (p : Coroutine σ ι ρ α) (w : World σ ι ρ) : Prop :=
  Meets Alone (fun _ _ => True) Q p w

variable {R : Rely σ ι ρ} {G : Guarantee σ ι ρ} {Q : α → World σ ι ρ → Prop}

@[simp] lemma meets_pure (a : α) (w : World σ ι ρ) : Meets R G Q (.pure a) w ↔ Q a w := Iff.rfl

@[simp] lemma meets_step (u : σ → σ) (k : σ → Coroutine σ ι ρ α) (w : World σ ι ρ) :
    Meets R G Q (.step u k) w ↔ G w (w.update u) ∧ Meets R G Q (k w.state) (w.update u) := Iff.rfl

/-- Rule of consequence: a stronger rely, a weaker guarantee, a weaker postcondition. -/
lemma Meets.mono {R' : Rely σ ι ρ} {G' : Guarantee σ ι ρ} {Q' : α → World σ ι ρ → Prop}
    {p : Coroutine σ ι ρ α} {w : World σ ι ρ} (h : Meets R G Q p w)
    (hR : ∀ q r w w', R' q r w w' → R q r w w') (hG : ∀ w w', G w w' → G' w w')
    (hQ : ∀ a w, Q a w → Q' a w) : Meets R' G' Q' p w := by
  induction p generalizing w with
  | pure a => exact hQ a w h
  | step u k ih => exact ⟨hG _ _ h.1, ih _ h.2⟩
  | await q k ih =>
    intro r w' hr
    obtain ⟨hg, hm⟩ := h r w' (hR q r w w' hr)
    exact ⟨hG _ _ hg, ih r hm⟩

/-- A weaker postcondition. -/
lemma Meets.imp {Q' : α → World σ ι ρ → Prop} {p : Coroutine σ ι ρ α} {w : World σ ι ρ}
    (h : Meets R G Q p w) (hQ : ∀ a w, Q a w → Q' a w) : Meets R G Q' p w :=
  h.mono (fun _ _ _ _ h => h) (fun _ _ h => h) hQ

/-- Sequencing: the second part starts wherever the first one may end. -/
lemma Meets.bind {Q' : β → World σ ι ρ → Prop} {p : Coroutine σ ι ρ α}
    {f : α → Coroutine σ ι ρ β} {w : World σ ι ρ} (hp : Meets R G Q p w)
    (hf : ∀ a w', Q a w' → Meets R G Q' (f a) w') : Meets R G Q' (p.bind f) w := by
  induction p generalizing w with
  | pure a => exact hf a w hp
  | step u k ih => exact ⟨hp.1, ih _ hp.2⟩
  | await q k ih =>
    intro r w' hr
    obtain ⟨hg, hm⟩ := hp r w' hr
    exact ⟨hg, ih r hm⟩

/-! The primitive coroutines, as first parts of a sequence. -/

section Primitives

variable {Q : β → World σ ι ρ → Prop} {w : World σ ι ρ}

lemma Meets.get_bind {f : σ → Coroutine σ ι ρ β} (hG : G w w) (h : Meets R G Q (f w.state) w) :
    Meets R G Q (get.bind f) w := ⟨hG, h⟩

lemma Meets.modify_bind {u : σ → σ} {f : Unit → Coroutine σ ι ρ β} (hG : G w (w.update u))
    (h : Meets R G Q (f ()) (w.update u)) : Meets R G Q ((modify u).bind f) w := ⟨hG, h⟩

lemma Meets.modifyGet_bind {u : σ → α × σ} {f : α → Coroutine σ ι ρ β}
    (hG : G w (w.update fun s => (u s).2))
    (h : Meets R G Q (f (u w.state).1) (w.update fun s => (u s).2)) :
    Meets R G Q ((modifyGet u).bind f) w := ⟨hG, h⟩

lemma Meets.ask_bind {q : ι} {f : ρ q → Coroutine σ ι ρ β} (h : ∀ r w', R q r w w' →
    G w' (w'.answer q r) ∧ Meets R G Q (f r) (w'.answer q r)) :
    Meets R G Q ((ask q).bind f) w := h

end Primitives

/-- Two postconditions of one coroutine hold together. -/
lemma Meets.and {Q' : α → World σ ι ρ → Prop} {p : Coroutine σ ι ρ α} {w : World σ ι ρ}
    (h : Meets R G Q p w) (h' : Meets R G Q' p w) :
    Meets R G (fun a w' => Q a w' ∧ Q' a w') p w := by
  induction p generalizing w with
  | pure a => exact ⟨h, h'⟩
  | step u k ih => exact ⟨h.1, ih _ h.2 h'.2⟩
  | await q k ih =>
    intro r w' hr
    exact ⟨(h r w' hr).1, ih r (h r w' hr).2 (h' r w' hr).2⟩

/-- A family of postconditions of one coroutine holds together. -/
lemma Meets.all {κ : Type} {Q' : κ → α → World σ ι ρ → Prop} {p : Coroutine σ ι ρ α}
    {w : World σ ι ρ} (h : Meets R G Q p w) (h' : ∀ i, Meets R G (Q' i) p w) :
    Meets R G (fun a w' => Q a w' ∧ ∀ i, Q' i a w') p w := by
  induction p generalizing w with
  | pure a => exact ⟨h, h'⟩
  | step u k ih => exact ⟨h.1, ih _ h.2 fun i => (h' i).2⟩
  | await q k ih =>
    intro r w' hr
    exact ⟨(h r w' hr).1, ih r (h r w' hr).2 fun i => (h' i r w' hr).2⟩

/-- Alone, the start and the end of a coroutine are related by what each update guarantees. -/
lemma Meets.reaches {p : Coroutine σ ι ρ α} {w : World σ ι ρ} (h : Meets Alone G Q p w)
    (hG : ∀ w, G w w) (hG' : ∀ {w₁ w₂ w₃}, G w₁ w₂ → G w₂ w₃ → G w₁ w₃) :
    Meets Alone (fun _ _ => True) (fun a w' => Q a w' ∧ G w w') p w := by
  induction p generalizing w with
  | pure a => exact ⟨h, hG w⟩
  | step u k ih =>
    refine ⟨trivial, (ih _ h.2).imp ?_⟩
    exact fun a w' hw' => ⟨hw'.1, hG' h.1 hw'.2⟩
  | await q k ih =>
    rintro r w rfl
    obtain ⟨hg, hm⟩ := h r w rfl
    refine ⟨trivial, (ih r hm).imp ?_⟩
    exact fun a w' hw' => ⟨hw'.1, hG' hg hw'.2⟩

/-- A loop keeps what each of its rounds keeps, and its results have what those of each round
have. -/
lemma Meets.forEach_all {I : World σ ι ρ → Prop} {P : β → Prop}
    {f : α → Coroutine σ ι ρ (List β)} {as : List α} {w : World σ ι ρ}
    (hf : ∀ a ∈ as, ∀ w', I w' → Meets R G (fun bs w'' => I w'' ∧ ∀ b ∈ bs, P b) (f a) w')
    (hw : I w) :
    Meets R G (fun bs w'' => I w'' ∧ ∀ b ∈ bs, P b) (forEach f as) w := by
  induction as generalizing w with
  | nil => exact ⟨hw, by simp⟩
  | cons a as ih =>
    refine (hf a List.mem_cons_self w hw).bind fun bs w' ⟨hw', hbs⟩ => ?_
    refine (ih (fun b hb => hf b (List.mem_cons_of_mem _ hb)) hw').bind fun cs w'' ⟨hw'', hcs⟩ => ?_
    refine ⟨hw'', fun b hb => ?_⟩
    exact (List.mem_append.mp hb).elim (hbs b) (hcs b)

/-- The results of a loop have what those of each round have and later rounds do not take away. -/
lemma Meets.forEach_kept {T : World σ ι ρ → World σ ι ρ → Prop} {P : β → World σ ι ρ → Prop}
    {f : α → Coroutine σ ι ρ (List β)} {as : List α} {w₀ w : World σ ι ρ}
    (hT : ∀ {w₁ w₂ w₃}, T w₁ w₂ → T w₂ w₃ → T w₁ w₃)
    (hkept : ∀ {b w₁ w₂}, T w₀ w₁ → T w₁ w₂ → P b w₁ → P b w₂)
    (hf : ∀ a ∈ as, ∀ w₁, T w₀ w₁ → Meets R G (fun bs w₂ => T w₁ w₂ ∧ ∀ b ∈ bs, P b w₂) (f a) w₁)
    (hw : T w₀ w) (hrefl : ∀ w, T w w) :
    Meets R G (fun bs w' => T w w' ∧ ∀ b ∈ bs, P b w') (forEach f as) w := by
  induction as generalizing w with
  | nil => exact ⟨hrefl w, by simp⟩
  | cons a as ih =>
    refine (hf a List.mem_cons_self w hw).bind fun bs w₁ ⟨hw₁, hbs⟩ => ?_
    refine (ih (fun b hb => hf b (List.mem_cons_of_mem _ hb)) (hT hw hw₁)).bind
      fun cs w₂ ⟨hw₂, hcs⟩ => ⟨hT hw₁ hw₂, fun b hb => ?_⟩
    rcases List.mem_append.mp hb with hb | hb
    · exact hkept (hT hw hw₁) hw₂ (hbs b hb)
    · exact hcs b hb

/-- A loop keeps what each of its rounds keeps. -/
lemma Meets.forEach {I : World σ ι ρ → Prop} {f : α → Coroutine σ ι ρ (List β)} {as : List α}
    {w : World σ ι ρ} (hf : ∀ a ∈ as, ∀ w', I w' → Meets R G (fun _ => I) (f a) w') (hw : I w) :
    Meets R G (fun _ => I) (forEach f as) w := by
  refine (Meets.forEach_all (P := fun _ => True) (fun a ha w' hw' => ?_) hw).imp fun _ _ h => h.1
  exact (hf a ha w' hw').imp fun _ _ h =>
    ⟨h, fun _ _ => trivial⟩

/-- A loop whose invariant speaks of the elements that are still to come. -/
lemma Meets.forEach_rest {I : List α → World σ ι ρ → Prop} {f : α → Coroutine σ ι ρ (List β)}
    {as : List α} {w : World σ ι ρ}
    (hf : ∀ a rest w', I (a :: rest) w' → Meets R G (fun _ => I rest) (f a) w') (hw : I as w) :
    Meets R G (fun _ => I []) (Coroutine.forEach f as) w := by
  induction as generalizing w with
  | nil => exact hw
  | cons a as ih =>
    exact (hf a as w hw).bind fun _ w' hw' => (ih hw').bind fun _ w'' hw'' => hw''

lemma forEach_append (f : α → Coroutine σ ι ρ (List β)) (as bs : List α) :
    Coroutine.forEach f (as ++ bs) = (Coroutine.forEach f as).bind fun xs =>
      (Coroutine.forEach f bs).bind fun ys => .pure (xs ++ ys) := by
  induction as with
  | nil => simp [Coroutine.forEach, bind_pure]
  | cons a as ih => simp [Coroutine.forEach, ih, bind_assoc]

/-- A loop with one distinguished round: `I` is kept before it, it turns `I` into `J`, and `J` is
kept after it. -/
lemma Meets.forEach_split {I J : World σ ι ρ → Prop}
    {f : α → Coroutine σ ι ρ (List β)} {as : List α} (hnodup : as.Nodup) {a : α} (ha : a ∈ as)
    {w : World σ ι ρ} (hbefore : ∀ b ≠ a, ∀ w', I w' → Meets R G (fun _ => I) (f b) w')
    (hround : ∀ w', I w' → Meets R G (fun _ => J) (f a) w')
    (hafter : ∀ b ≠ a, ∀ w', J w' → Meets R G (fun _ => J) (f b) w') (hw : I w) :
    Meets R G (fun _ => J) (Coroutine.forEach f as) w := by
  obtain ⟨before, after, rfl⟩ := List.append_of_mem ha
  have hne : ∀ b, b ∈ before ∨ b ∈ after → b ≠ a := by
    rintro b hb rfl
    rw [List.nodup_middle, List.nodup_cons] at hnodup
    exact hnodup.1 (List.mem_append.mpr hb)
  rw [forEach_append]
  refine Meets.bind (Q := fun _ => I) (Meets.forEach ?_ hw) fun _ w' hw' => ?_
  · exact fun b hb => hbefore b (hne b (Or.inl hb))
  · refine Meets.bind (Q := fun _ => J) ?_ fun _ _ h => h
    refine (hround w' hw').bind fun _ w'' hw'' => ?_
    refine Meets.bind (Q := fun _ => J) (Meets.forEach ?_ hw'') fun _ _ h => h
    exact fun b hb => hafter b (hne b (Or.inr hb))

/-- A loop with distinguished rounds: `I` speaks of those that are still to come, and the other
rounds keep it. -/
lemma Meets.forEach_pivots {I : List α → World σ ι ρ → Prop} {f : α → Coroutine σ ι ρ (List β)}
    {pivots as : List α} (hsub : pivots.Sublist as) (hnodup : as.Nodup) {w : World σ ι ρ}
    (hother : ∀ a ∈ as, a ∉ pivots → ∀ ps w', I ps w' → Meets R G (fun _ => I ps) (f a) w')
    (hpivot : ∀ p ps w', I (p :: ps) w' → Meets R G (fun _ => I ps) (f p) w')
    (hw : I pivots w) : Meets R G (fun _ => I []) (Coroutine.forEach f as) w := by
  have hloop : ∀ {ps bs : List α}, ps.Sublist bs → bs.Nodup → (∀ b ∈ bs, b ∈ as) →
      (∀ b ∈ bs, b ∈ pivots → b ∈ ps) → ∀ {w}, I ps w →
        Meets R G (fun _ => I []) (Coroutine.forEach f bs) w := by
    intro ps bs hsub
    induction hsub with
    | slnil => exact fun _ _ _ _ hw => hw
    | @cons ps bs b hsub ih =>
      intro hnodup hall hmem w hw
      obtain ⟨hnotMem, hnodup'⟩ := List.nodup_cons.mp hnodup
      have hb : b ∉ pivots := fun h => hnotMem (hsub.subset (hmem b List.mem_cons_self h))
      refine (hother b (hall b List.mem_cons_self) hb ps w hw).bind fun _ w' hw' => ?_
      refine (ih hnodup' (fun c hc => hall c (List.mem_cons_of_mem _ hc))
        (fun c hc => hmem c (List.mem_cons_of_mem _ hc)) hw').bind ?_
      exact fun _ w'' hw'' => hw''
    | @cons_cons ps bs p hsub ih =>
      intro hnodup hall hmem w hw
      obtain ⟨hnotMem, hnodup'⟩ := List.nodup_cons.mp hnodup
      refine (hpivot p ps w hw).bind fun _ w' hw' => ?_
      refine (ih hnodup' (fun c hc => hall c (List.mem_cons_of_mem _ hc))
        (fun c hc hc' => ?_) hw').bind fun _ w'' hw'' => hw''
      refine (List.mem_cons.mp (hmem c (List.mem_cons_of_mem _ hc) hc')).resolve_left ?_
      rintro rfl
      exact hnotMem hc
  exact hloop hsub hnodup (fun _ h => h) (fun _ _ h => h) hw

/-- The same, with what holds after each number of distinguished rounds. -/
lemma Meets.forEach_stages {J : ℕ → World σ ι ρ → Prop} {f : α → Coroutine σ ι ρ (List β)}
    {pivots as : List α} (hsub : pivots.Sublist as) (hnodup : as.Nodup) {w : World σ ι ρ}
    (hother : ∀ a ∈ as, a ∉ pivots → ∀ n w', J n w' → Meets R G (fun _ => J n) (f a) w')
    (hpivot : ∀ n p, pivots[n]? = some p → ∀ w', J n w' → Meets R G (fun _ => J (n + 1)) (f p) w')
    (hw : J 0 w) :
    Meets R G (fun _ => J pivots.length) (Coroutine.forEach f as) w := by
  let I : List α → World σ ι ρ → Prop := fun ps w' =>
    ∃ n ≤ pivots.length, ps = pivots.drop n ∧ J n w'
  refine (Meets.forEach_pivots (I := I) hsub hnodup ?_ ?_ ⟨0, Nat.zero_le _, rfl, hw⟩).imp ?_
  · rintro a ha hnot ps w' ⟨n, hn, hps, hw'⟩
    exact (hother a ha hnot n w' hw').imp fun _ _ h => ⟨n, hn, hps, h⟩
  · rintro p ps w' ⟨n, hn, hps, hw'⟩
    have hget : pivots[n]? = some p := by rw [← List.head?_drop, ← hps, List.head?_cons]
    have hlt : n < pivots.length := (List.getElem?_eq_some_iff.mp hget).1
    have htail : ps = pivots.drop (n + 1) := by rw [← List.tail_drop, ← hps, List.tail_cons]
    exact (hpivot n p hget w' hw').imp fun _ _ h => ⟨n + 1, hlt, htail, h⟩
  · rintro _ w' ⟨n, hn, hps, hw'⟩
    have hall : n = pivots.length := hn.antisymm (List.drop_eq_nil_iff.mp hps.symm)
    exact hall ▸ hw'

/-- A contract whose rely allows an undisturbed suspension holds of every sequential run. -/
theorem Meets.run {p : Coroutine σ ι ρ α} {w : World σ ι ρ} (h : Meets R G Q p w)
    (hR : ∀ q r w, R q r w w) (hG : ∀ w, G w w) (hG' : ∀ {w₁ w₂ w₃}, G w₁ w₂ → G w₂ w₃ → G w₁ w₃)
    (ω : Oracle ι ρ) :
    G w (w.after (p.run ω w.state)) ∧ Q (p.run ω w.state).result (w.after (p.run ω w.state)) := by
  induction p generalizing w ω with
  | pure a => simpa [World.after] using ⟨hG w, h⟩
  | step u k ih =>
    obtain ⟨hg, hq⟩ := ih w.state h.2 ω
    exact ⟨hG' h.1 hg, hq⟩
  | await q k ih =>
    obtain ⟨hg, hm⟩ := h (ω 0 q) w (hR q _ w)
    obtain ⟨hg', hq⟩ := ih (ω 0 q) hm fun n => ω (n + 1)
    simp only [World.after, World.answer, List.append_assoc, List.singleton_append] at hg' hq
    exact ⟨hG' hg hg', hq⟩

/-- How a coroutine ends alone is how its run ends. -/
lemma Ends.run {p : Coroutine σ ι ρ α} {w : World σ ι ρ} (h : Ends Q p w) (ω : Oracle ι ρ) :
    Q (p.run ω w.state).result (w.after (p.run ω w.state)) :=
  (Meets.run h (fun _ _ _ => rfl) (fun _ => trivial) (fun _ _ => trivial) ω).2

lemma alone_refl (q : ι) (r : ρ q) (w : World σ ι ρ) : Alone q r w w := rfl

end Coroutine
