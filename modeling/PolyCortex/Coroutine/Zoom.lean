import PolyCortex.Coroutine.Contract

/-!
# Coroutines of a component

A coroutine over the state of a component runs as a coroutine over the state of the whole: it sees
and changes its component only, and its questions are questions of the whole. It keeps its contract, as
long as the whole leaves the component what the contract relies on (`Meets.zoom`).
-/

namespace Coroutine

variable {σ τ ι ι' : Type} {ρ : ι → Type} {ρ' : ι' → Type} {α β : Type}

/-- Where a component lives, and how its questions are asked. -/
structure Component (σ τ ι ι' : Type) (ρ : ι → Type) (ρ' : ι' → Type) where
  get : τ → σ
  set : σ → τ → τ
  embed : ι → ι'
  answer : (q : ι) → ρ' (embed q) → ρ q
  get_set : ∀ s t, get (set s t) = s
  set_set : ∀ s s' t, set s (set s' t) = set s t
  set_get : ∀ t, set (get t) t = t

variable (C : Component σ τ ι ι' ρ ρ')

/-- A coroutine of the component as one of the whole. -/
def zoom : Coroutine σ ι ρ α → Coroutine τ ι' ρ' α
  | .pure a => .pure a
  | .step u k => .step (fun t => C.set (u (C.get t)) t) fun t => zoom (k (C.get t))
  | .await q k => .await (C.embed q) fun r => zoom (k (C.answer q r))

@[simp] lemma zoom_pure (a : α) : (Coroutine.pure a : Coroutine σ ι ρ α).zoom C = .pure a := rfl

@[simp] lemma zoom_bind (p : Coroutine σ ι ρ α) (f : α → Coroutine σ ι ρ β) :
    (p.bind f).zoom C = (p.zoom C).bind fun a => (f a).zoom C := by
  induction p with
  | pure a => rfl
  | step u k ih => simp only [step_bind, zoom, ih]
  | await q k ih => simp only [await_bind, zoom, ih]

/-- The questions of the whole that the component asked, with the answers it saw. -/
def Component.view (ω : Oracle ι' ρ') : Oracle ι ρ := fun n q => C.answer q (ω n (C.embed q))

/-- Alone, a coroutine of the component does to its component what it does by itself. -/
lemma run_zoom (p : Coroutine σ ι ρ α) (ω : Oracle ι' ρ') (t : τ) :
    ((p.zoom C).run ω t).result = (p.run (C.view ω) (C.get t)).result ∧
      ((p.zoom C).run ω t).state = C.set (p.run (C.view ω) (C.get t)).state t := by
  induction p generalizing ω t with
  | pure a => exact ⟨rfl, (C.set_get t).symm⟩
  | step u k ih =>
    obtain ⟨hresult, hstate⟩ := ih (C.get t) ω (C.set (u (C.get t)) t)
    rw [C.get_set] at hresult hstate
    exact ⟨hresult, hstate.trans (C.set_set _ _ _)⟩
  | await q k ih => exact ih _ _ t

/-- A coroutine of the component changes the component only. -/
lemma zoom_frame (p : Coroutine σ ι ρ α) (w : World τ ι' ρ') :
    Meets Alone (fun v v' => ∃ s, v'.state = C.set s v.state)
      (fun _ v => ∃ s, v.state = C.set s w.state) (p.zoom C) w := by
  induction p generalizing w with
  | pure a => exact ⟨C.get w.state, (C.set_get _).symm⟩
  | step u k ih =>
    refine ⟨⟨_, rfl⟩, (ih _ _).imp ?_⟩
    rintro a v ⟨s, hs⟩
    exact ⟨s, hs.trans (C.set_set _ _ _)⟩
  | await q k ih =>
    rintro r w rfl
    exact ⟨⟨C.get w.state, (C.set_get _).symm⟩, ih (C.answer q r) (w.answer (C.embed q) r)⟩

/-- A contract about the states of the component is one about the whole. -/
theorem Meets.zoom {S : (q : ι) → ρ q → σ → σ → Prop} {T : σ → σ → Prop} {Q : α → σ → Prop}
    {R : Rely τ ι' ρ'} (hR : ∀ q r w w', R (C.embed q) r w w' →
      S q (C.answer q r) (C.get w.state) (C.get w'.state))
    {p : Coroutine σ ι ρ α} {trace : List (Exchanged ι ρ)} {w : World τ ι' ρ'}
    (h : Meets (fun q r v v' => S q r v.state v'.state) (fun v v' => T v.state v'.state)
      (fun a v => Q a v.state) p ⟨C.get w.state, trace⟩) :
    Meets R (fun v v' => T (C.get v.state) (C.get v'.state)) (fun a v => Q a (C.get v.state))
      (p.zoom C) w := by
  induction p generalizing trace w with
  | pure a => exact h
  | step u k ih =>
    have hrest : Meets (fun q r v v' => S q r v.state v'.state) (fun v v' => T v.state v'.state)
        (fun a v => Q a v.state) (k (C.get w.state))
        ⟨C.get (w.update fun t => C.set (u (C.get t)) t).state, trace⟩ := by
      show Meets _ _ _ _ ⟨C.get (C.set _ _), trace⟩
      rw [C.get_set]
      exact h.2
    refine ⟨?_, ih _ hrest⟩
    · show T _ (C.get (C.set _ _))
      rw [C.get_set]
      exact h.1
  | await q k ih =>
    intro r w' hr
    obtain ⟨hguarantee, hrest⟩ := h (C.answer q r) ⟨C.get w'.state, trace⟩ (hR q r w w' hr)
    exact ⟨hguarantee, ih _ hrest⟩

end Coroutine
