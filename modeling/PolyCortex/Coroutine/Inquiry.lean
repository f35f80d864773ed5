import PolyCortex.Coroutine.Contract

/-!
# Parts that only ask

`Inquires Q p` says that `p` makes no update: it only asks, and its result is related by `Q` to the
questions and answers on the way. Such a part has the same meaning in every state and whatever
happens meanwhile.
-/

namespace Coroutine

variable {σ ι : Type} {ρ : ι → Type} {α β : Type}

/-- `p` only asks, and its result and its trace satisfy `Q`. -/
def Inquires (Q : α → List (Exchanged ι ρ) → Prop) : Coroutine σ ι ρ α → Prop
  | .pure a => Q a []
  | .step _ _ => False
  | .await q k => ∀ r, Inquires (fun a t => Q a (⟨q, r⟩ :: t)) (k r)

variable {Q : α → List (Exchanged ι ρ) → Prop}

lemma inquires_pure {a : α} (h : Q a []) : Inquires Q (.pure a : Coroutine σ ι ρ α) := h

lemma inquires_ask_bind {q : ι} {f : ρ q → Coroutine σ ι ρ α}
    (h : ∀ r, Inquires (fun a t => Q a (⟨q, r⟩ :: t)) (f r)) : Inquires Q ((ask q).bind f) := h

lemma Inquires.mono {Q' : α → List (Exchanged ι ρ) → Prop} {p : Coroutine σ ι ρ α}
    (h : Inquires Q p) (hQ : ∀ a t, Q a t → Q' a t) : Inquires Q' p := by
  induction p generalizing Q Q' with
  | pure a => exact hQ a [] h
  | step u k ih => exact h
  | await q k ih => exact fun r => ih r (h r) fun a t => hQ a (⟨q, r⟩ :: t)

/-- The second part asks on: its trace comes after the trace of the first. -/
lemma Inquires.bind {Q' : β → List (Exchanged ι ρ) → Prop} {p : Coroutine σ ι ρ α}
    {f : α → Coroutine σ ι ρ β} (hp : Inquires Q p)
    (hf : ∀ a t, Q a t → Inquires (fun b t' => Q' b (t ++ t')) (f a)) :
    Inquires Q' (p.bind f) := by
  induction p generalizing Q Q' with
  | pure a => exact hf a [] hp
  | step u k ih => exact hp
  | await q k ih => exact fun r => ih r (hp r) fun a t hq => hf a (⟨q, r⟩ :: t) hq

/-- A run leaves the state alone. -/
theorem Inquires.run {p : Coroutine σ ι ρ α} (h : Inquires Q p) (ω : Oracle ι ρ) (s : σ) :
    (p.run ω s).state = s ∧ Q (p.run ω s).result (p.run ω s).trace := by
  induction p generalizing Q ω with
  | pure a => exact ⟨rfl, h⟩
  | step u k ih => exact h.elim
  | await q k ih =>
    rw [run_await]
    exact ih (ω 0 q) (h (ω 0 q)) fun n => ω (n + 1)

/-- As the first part of a sequence: the second part starts in the same state. -/
theorem Inquires.run_bind {p : Coroutine σ ι ρ α} (h : Inquires Q p)
    (f : α → Coroutine σ ι ρ β) (ω : Oracle ι ρ) (s : σ) :
    ∃ a t ω', Q a t ∧ (p.bind f).run ω s =
      ⟨((f a).run ω' s).state, t ++ ((f a).run ω' s).trace, ((f a).run ω' s).result⟩ := by
  obtain ⟨hstate, hq⟩ := h.run ω s
  obtain ⟨ω', hrun⟩ := Coroutine.run_bind p f ω s
  rw [hstate] at hrun
  exact ⟨_, _, ω', hq, hrun⟩

/-- As a contract: nothing is guaranteed to the others but that questions are answered. -/
theorem Inquires.meets {G : Guarantee σ ι ρ} {p : Coroutine σ ι ρ α} (h : Inquires Q p)
    (hG : ∀ w q r, G w (w.answer q r)) (w : World σ ι ρ) :
    Meets Alone G (fun a w' => w'.state = w.state ∧ ∃ t, w'.trace = w.trace ++ t ∧ Q a t) p w := by
  induction p generalizing Q w with
  | pure a => exact ⟨rfl, [], by simp, h⟩
  | step u k ih => exact h.elim
  | await q k ih =>
    rintro r w rfl
    refine ⟨hG w q r, (ih r (h r) (w.answer q r)).imp ?_⟩
    rintro a w' ⟨hstate, t, htrace, hq⟩
    refine ⟨hstate, ⟨q, r⟩ :: t, ?_, hq⟩
    rw [htrace, World.answer_trace, List.append_assoc, List.singleton_append]

/-- Under interference: the state may have moved on by `T` when the part ends, and unless nothing
was asked, the last answer met its side condition in the state at the end. -/
theorem Inquires.meets_side {T : σ → σ → Prop} {S : (q : ι) → ρ q → σ → Prop}
    {G : Guarantee σ ι ρ} {p : Coroutine σ ι ρ α} (h : Inquires Q p)
    (hT : ∀ s, T s s) (hT' : ∀ {s₁ s₂ s₃}, T s₁ s₂ → T s₂ s₃ → T s₁ s₃)
    (hG : ∀ w q r, G w (w.answer q r)) (w : World σ ι ρ) :
    Meets (fun q r w w' => T w.state w'.state ∧ S q r w'.state) G
      (fun a w' => T w.state w'.state ∧ ∃ t, Q a t ∧
        (t = [] ∧ w'.state = w.state ∨ ∃ x ∈ t, S x.1 x.2 w'.state)) p w := by
  induction p generalizing Q w with
  | pure a => exact ⟨hT _, [], h, Or.inl ⟨rfl, rfl⟩⟩
  | step u k ih => exact h.elim
  | await q k ih =>
    rintro r w' ⟨hmove, hside⟩
    refine ⟨hG w' q r, ?_⟩
    refine (ih r (h r) (w'.answer q r)).imp ?_
    rintro a w'' ⟨hmove', t, hq, hlast⟩
    refine ⟨hT' hmove hmove', ⟨q, r⟩ :: t, hq, Or.inr ?_⟩
    rcases hlast with ⟨_, hstate⟩ | ⟨x, hx, hside'⟩
    · exact ⟨⟨q, r⟩, List.mem_cons_self, by rwa [hstate]⟩
    · exact ⟨x, List.mem_cons_of_mem _ hx, hside'⟩

end Coroutine
