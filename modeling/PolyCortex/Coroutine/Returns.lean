import PolyCortex.Coroutine.Zoom

/-!
# Big steps

`Returns p s a s'` says that `p`, run alone from `s`, may return `a` and leave `s'` behind. It forgets
what was asked and answered on the way, and takes a program apart from the front.
-/

namespace Coroutine

variable {σ τ ι ι' : Type} {ρ : ι → Type} {ρ' : ι' → Type} {α β : Type}

/-- Alone, `p` may return `a` and leave `s'` behind. -/
def Returns (p : Coroutine σ ι ρ α) (s : σ) (a : α) (s' : σ) : Prop :=
  ∃ ω, (p.run ω s).result = a ∧ (p.run ω s).state = s'

variable {p : Coroutine σ ι ρ α} {s s' : σ} {a : α} {b : β}

lemma run_returns (p : Coroutine σ ι ρ α) (ω : Oracle ι ρ) (s : σ) :
    p.Returns s (p.run ω s).result (p.run ω s).state :=
  ⟨ω, rfl, rfl⟩

/-- The second part of a sequence goes on from where the first part has come to. -/
lemma bind_returns (p : Coroutine σ ι ρ α) (f : α → Coroutine σ ι ρ β) (ω : Oracle ι ρ) (s : σ) :
    (f (p.run ω s).result).Returns (p.run ω s).state ((p.bind f).run ω s).result
      ((p.bind f).run ω s).state := by
  obtain ⟨ω', hrun⟩ := run_bind p f ω s
  rw [hrun]
  exact ⟨ω', rfl, rfl⟩

namespace Returns

lemma of_pure {c : α} (h : (Coroutine.pure c : Coroutine σ ι ρ α).Returns s a s') :
    c = a ∧ s = s' := by
  obtain ⟨ω, hresult, hstate⟩ := h
  exact ⟨hresult, hstate⟩

lemma of_bind {f : α → Coroutine σ ι ρ β} (h : (p.bind f).Returns s b s') :
    ∃ a s₁, p.Returns s a s₁ ∧ (f a).Returns s₁ b s' := by
  obtain ⟨ω, hresult, hstate⟩ := h
  obtain ⟨ω', hrun⟩ := run_bind p f ω s
  rw [hrun] at hresult hstate
  exact ⟨_, _, p.run_returns ω s, ω', hresult, hstate⟩

lemma of_get {f : σ → Coroutine σ ι ρ β} (h : (get.bind f).Returns s b s') :
    (f s).Returns s b s' := h

lemma of_modify {u : σ → σ} {f : Unit → Coroutine σ ι ρ β}
    (h : ((modify u).bind f).Returns s b s') : (f ()).Returns (u s) b s' := h

lemma of_modifyGet {u : σ → α × σ} (h : (modifyGet u : Coroutine σ ι ρ α).Returns s a s') :
    u s = (a, s') := by
  obtain ⟨ω, hresult, hstate⟩ := h
  exact Prod.ext hresult hstate

lemma of_ask {q : ι} {r : ρ q} (h : (ask q : Coroutine σ ι ρ (ρ q)).Returns s r s') : s' = s := by
  obtain ⟨ω, hresult, hstate⟩ := h
  exact hstate.symm

/-- A coroutine of a component returns what it does by itself, and changes nothing else. -/
lemma of_zoom {C : Component σ τ ι ι' ρ ρ'} {t t' : τ} (h : (p.zoom C).Returns t a t') :
    ∃ s, p.Returns (C.get t) a s ∧ t' = C.set s t := by
  obtain ⟨ω, hresult, hstate⟩ := h
  obtain ⟨hresult', hstate'⟩ := run_zoom C p ω t
  refine ⟨_, ⟨C.view ω, hresult' ▸ hresult, rfl⟩, ?_⟩
  rw [← hstate, hstate']

lemma map (h : p.Returns s a s') (f : α → β) : (f <$> p).Returns s (f a) s' := by
  obtain ⟨ω, rfl, rfl⟩ := h
  exact ⟨ω, by simp, by rw [map_def, run_map]⟩

/-- What a contract says of a coroutine alone. -/
lemma meets {G : Guarantee σ ι ρ} {Q : α → World σ ι ρ → Prop} {t : List (Exchanged ι ρ)}
    (h : p.Returns s a s') (hp : Meets Alone G Q p ⟨s, t⟩) (hG : ∀ w, G w w)
    (hG' : ∀ {w₁ w₂ w₃}, G w₁ w₂ → G w₂ w₃ → G w₁ w₃) :
    ∃ t', G ⟨s, t⟩ ⟨s', t'⟩ ∧ Q a ⟨s', t'⟩ := by
  obtain ⟨ω, rfl, rfl⟩ := h
  exact ⟨_, hp.run alone_refl hG hG' ω⟩

end Returns
end Coroutine
