import PolyCortex.Coroutine.Inquiry
import PolyCortex.Coroutine.Pool

/-!
# Ghost values

Every task of a pool has a ghost value of its own, which an update may change along with the shared
state. A `Ghost` says what the updates may do and with which values a task may wait and end. When an
invariant ties all the values to the state, and such tasks maintain it, a pool of them has it after
every event (`Pool.step_kept`).
-/

namespace Coroutine

variable {κ γ σ ι : Type} {ρ : ι → Type} {α β : Type}

/-- What a task may do with its ghost value, by its tag. -/
structure Ghost (κ γ σ : Type) where
  start : κ → γ
  updates : κ → γ → σ → γ → σ → Prop
  waits : κ → γ → Prop
  ends : κ → γ → Prop

/-- An invariant of the ghost values of all tasks and the state, which tasks maintain. -/
structure Ghost.Maintains (G : Ghost κ γ σ) (inv : List γ → σ → Prop) : Prop where
  start : ∀ {gs s tag}, inv gs s → inv (gs ++ [G.start tag]) s
  updates : ∀ {gs gs' tag g s g' s'}, inv (gs ++ g :: gs') s → G.updates tag g s g' s' →
    inv (gs ++ g' :: gs') s'
  ends : ∀ {gs gs' tag g s}, inv (gs ++ g :: gs') s → G.ends tag g → inv (gs ++ gs') s

variable {G : Ghost κ γ σ} {inv : List γ → σ → Prop} {tag : κ} {Q : α → γ → σ → Prop} {g : γ} {s : σ}

/-- The coroutine keeps to the ghost from the value `g` on, and ends with `Q`. -/
def Keeps (G : Ghost κ γ σ) (tag : κ) (Q : α → γ → σ → Prop) : γ → Coroutine σ ι ρ α → σ → Prop
  | g, .pure a, s => Q a g s
  | g, .step u k, s => ∃ g', G.updates tag g s g' (u s) ∧ Keeps G tag Q g' (k s) (u s)
  | g, .await _ k, _ => G.waits tag g ∧ ∀ r s, Keeps G tag Q g (k r) s

lemma Keeps.bind {Q' : β → γ → σ → Prop} {p : Coroutine σ ι ρ α} {f : α → Coroutine σ ι ρ β}
    (hp : Keeps G tag Q g p s) (hf : ∀ a g s, Q a g s → Keeps G tag Q' g (f a) s) :
    Keeps G tag Q' g (p.bind f) s := by
  induction p generalizing g s with
  | pure a => exact hf a g s hp
  | step u k ih =>
    obtain ⟨g', hupdates, hrest⟩ := hp
    exact ⟨g', hupdates, ih s hrest⟩
  | await q k ih => exact ⟨hp.1, fun r s => ih r (hp.2 r s)⟩

/-- A part that only asks does not touch the ghost value. -/
lemma Inquires.keeps {Q : α → List (Exchanged ι ρ) → Prop} {p : Coroutine σ ι ρ α}
    (h : Inquires Q p) (hwaits : G.waits tag g) : Keeps G tag (fun _ g' _ => g' = g) g p s := by
  induction p generalizing Q s with
  | pure a => rfl
  | step u k ih => exact h.elim
  | await q k ih => exact ⟨hwaits, fun r s => ih r (h r)⟩

/-- The task keeps to the ghost until it ends. -/
abbrev KeepsOn (G : Ghost κ γ σ) (tag : κ) (g : γ) (p : Coroutine σ ι ρ α) (s : σ) : Prop :=
  Keeps G tag (fun _ g _ => G.ends tag g) g p s

/-- Up to the next rest of a task the invariant holds, with its value among those of the others. -/
lemma KeepsOn.advance {p : Coroutine σ ι ρ α} {gs gs' : List γ} (hG : G.Maintains inv)
    (h : KeepsOn G tag g p s) (hinv : inv (gs ++ g :: gs') s) :
    match (p.advance s).1 with
    | .done _ => inv (gs ++ gs') (p.advance s).2
    | .waiting _ k => ∃ g', inv (gs ++ g' :: gs') (p.advance s).2 ∧ G.waits tag g' ∧
        ∀ r s, KeepsOn G tag g' (k r) s := by
  induction p generalizing g s with
  | pure a => exact hG.ends hinv h
  | step u k ih =>
    obtain ⟨g', hupdates, hrest⟩ := h
    exact ih s hrest (hG.updates hinv hupdates)
  | await q k ih => exact ⟨g, hinv, h⟩

namespace Pool

variable {program : κ → Coroutine σ ι ρ α} {admits : List κ → κ → Bool} {p : Pool κ σ ι ρ α}

/-- The task waits with the ghost value, and keeps to the ghost when it is answered. -/
def WaitsWith (G : Ghost κ γ σ) (t : Task κ σ ι ρ α) (g : γ) : Prop :=
  G.waits t.job.tag g ∧ ∀ r s, KeepsOn G t.job.tag g (t.resume r) s

/-- The tasks have ghost values with which the invariant holds. -/
def Kept (G : Ghost κ γ σ) (inv : List γ → σ → Prop) (p : Pool κ σ ι ρ α) : Prop :=
  ∃ values : List (Task κ σ ι ρ α × γ), values.map (·.1) = p.tasks ∧
    (∀ x ∈ values, WaitsWith G x.1 x.2) ∧ inv (values.map (·.2)) p.world.state

/-- A task that runs on, next to others. -/
lemma settle_kept (hG : G.Maintains inv) (w : World σ ι ρ) (before after : List (Task κ σ ι ρ α × γ))
    (finished : List (Job κ σ ι ρ × α)) (job : Job κ σ ι ρ) {body : Coroutine σ ι ρ α}
    (hbody : KeepsOn G job.tag g body w.state)
    (hothers : ∀ x ∈ before ++ after, WaitsWith G x.1 x.2)
    (hinv : inv (before.map (·.2) ++ g :: after.map (·.2)) w.state) :
    (settle w (before.map (·.1)) (after.map (·.1)) finished job body).Kept G inv := by
  have hpaused := hbody.advance hG hinv
  rw [settle]
  rcases hadvance : body.advance w.state with ⟨paused, s⟩
  rw [hadvance] at hpaused
  cases paused with
  | done a => exact ⟨before ++ after, by simp, hothers, by simpa using hpaused⟩
  | waiting q k =>
    obtain ⟨g', hinv', hwaits⟩ := hpaused
    refine ⟨before ++ (⟨job, q, k⟩, g') :: after, by simp, ?_, by simpa using hinv'⟩
    intro x hx
    simp only [List.mem_append, List.mem_cons] at hx hothers
    rcases hx with hx | rfl | hx
    · exact hothers x (Or.inl hx)
    · exact hwaits
    · exact hothers x (Or.inr hx)

/-- An event keeps the invariant, when the task that it starts keeps to the ghost. -/
theorem step_kept (hG : G.Maintains inv) {event : Event κ ι ρ}
    (hprogram : ∀ tag, event = .start tag → ∀ s, KeepsOn G tag (G.start tag) (program tag) s)
    (hp : p.Kept G inv) : (p.step program admits event).Kept G inv := by
  obtain ⟨values, htasks, hwaits, hinv⟩ := hp
  cases event with
  | start tag =>
    rw [step]
    split_ifs
    · have hstarted := settle_kept (g := G.start tag) hG p.world values [] p.finished ⟨tag, p.world⟩
        (hprogram tag rfl _) (by simpa using hwaits) (by simpa using hG.start hinv)
      rwa [htasks] at hstarted
    · exact ⟨values, htasks, hwaits, hinv⟩
  | answer n reply =>
    rw [step]
    cases ht : p.tasks[n]? with
    | none => exact ⟨values, htasks, hwaits, hinv⟩
    | some t =>
      rw [tasks_split ht, List.map_eq_append_iff] at htasks
      obtain ⟨before, rest, rfl, hbefore, hrest⟩ := htasks
      obtain ⟨⟨_, g⟩, after, rfl, rfl, hafter⟩ := List.map_eq_cons_iff.mp hrest
      simp only [List.mem_append, List.mem_cons] at hwaits
      have ht := hwaits _ (Or.inr (Or.inl rfl))
      have hothers : ∀ x ∈ before ++ after, WaitsWith G x.1 x.2 := by
        intro x hx
        apply hwaits
        exact (List.mem_append.mp hx).imp_right Or.inr
      simp only [List.map_append, List.map_cons] at hinv
      dsimp only
      rw [← hbefore, ← hafter]
      exact settle_kept hG _ before after _ _ (ht.2 _ _) hothers hinv

end Pool
end Coroutine
