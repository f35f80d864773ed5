import PolyCortex.Coroutine.Contract

/-!
# Two coroutines in lockstep

A coroutine is silent from a state when it asks nothing on its way. `Lockstep f p p' s` says that
`p`, from `s`, and `p'`, from the image of `s` under `f`, are silent, return the same value and end
in a state and its image.
-/

namespace Coroutine

variable {σ ι : Type} {ρ : ι → Type} {α β : Type}

/-- From `s`, `p` asks nothing, returns `a` and leaves `s'` behind. -/
def Silent (p : Coroutine σ ι ρ α) (s : σ) (a : α) (s' : σ) : Prop :=
  ∀ ω, p.run ω s = ⟨s', [], a⟩

def Lockstep (f : σ → σ) (p p' : Coroutine σ ι ρ α) (s : σ) : Prop :=
  ∃ a s', p.Silent s a s' ∧ p'.Silent (f s) a (f s')

variable {f : σ → σ} {p p' : Coroutine σ ι ρ α} {s s' : σ} {a : α}

lemma Silent.bind {g : α → Coroutine σ ι ρ β} {b : β} {s'' : σ} (hp : p.Silent s a s')
    (hg : (g a).Silent s' b s'') : (p.bind g).Silent s b s'' := by
  intro ω
  obtain ⟨ω', hrun⟩ := run_bind p g ω s
  rw [hrun, hp ω, hg ω']
  rfl

namespace Lockstep

lemma pure (f : σ → σ) (a : α) (s : σ) :
    Lockstep f (.pure a : Coroutine σ ι ρ α) (.pure a) s :=
  ⟨a, s, fun _ => rfl, fun _ => rfl⟩

lemma bind {g g' : α → Coroutine σ ι ρ β} (hp : Lockstep f p p' s)
    (hg : ∀ a s', p.Silent s a s' → Lockstep f (g a) (g' a) s') :
    Lockstep f (p.bind g) (p'.bind g') s := by
  obtain ⟨a, s', hs, hs'⟩ := hp
  obtain ⟨b, s'', ht, ht'⟩ := hg a s' hs
  exact ⟨b, s'', hs.bind ht, hs'.bind ht'⟩

lemma map (g : α → β) (hp : Lockstep f p p' s) : Lockstep f (g <$> p) (g <$> p') s :=
  hp.bind fun a s' _ => .pure f (g a) s'

lemma ite {c c' : Prop} [Decidable c] [Decidable c'] {q q' : Coroutine σ ι ρ α} (hc : c' ↔ c)
    (hp : c → Lockstep f p p' s) (hq : ¬ c → Lockstep f q q' s) :
    Lockstep f (if c then p else q) (if c' then p' else q') s := by
  by_cases h : c
  · rw [if_pos h, if_pos (hc.mpr h)]
    exact hp h
  · rw [if_neg h, if_neg (mt hc.mp h)]
    exact hq h

lemma get_bind {k k' : σ → Coroutine σ ι ρ α} (h : Lockstep f (k s) (k' (f s)) s) :
    Lockstep f (get.bind k) (get.bind k') s := h

lemma modify_bind {u u' : σ → σ} {k k' : Unit → Coroutine σ ι ρ α} (hu : u' (f s) = f (u s))
    (h : Lockstep f (k ()) (k' ()) (u s)) :
    Lockstep f ((modify u).bind k) ((modify u').bind k') s := by
  obtain ⟨a, s', hs, hs'⟩ := h
  refine ⟨a, s', hs, fun ω => ?_⟩
  rw [run_modify_bind, hu, hs' ω]

lemma modifyGet_bind {γ : Type} {u u' : σ → γ × σ} {k k' : γ → Coroutine σ ι ρ α}
    (hu : u' (f s) = ((u s).1, f (u s).2)) (h : Lockstep f (k (u s).1) (k' (u s).1) (u s).2) :
    Lockstep f ((modifyGet u).bind k) ((modifyGet u').bind k') s := by
  obtain ⟨a, s', hs, hs'⟩ := h
  refine ⟨a, s', hs, fun ω => ?_⟩
  rw [run_modifyGet_bind, hu, hs' ω]

lemma modifyGet {u u' : σ → α × σ} (hu : u' (f s) = ((u s).1, f (u s).2)) :
    Lockstep f (Coroutine.modifyGet u : Coroutine σ ι ρ α) (Coroutine.modifyGet u') s := by
  refine ⟨(u s).1, (u s).2, fun ω => rfl, fun ω => ?_⟩
  rw [run_modifyGet, hu]

/-- A loop is in lockstep when each of its rounds is, from where the rounds before it lead. -/
lemma forEach {g g' : α → Coroutine σ ι ρ (List β)} {as : List α}
    (h : ∀ pre a post, as = pre ++ a :: post →
      ∀ bs s', (Coroutine.forEach g pre).Silent s bs s' → Lockstep f (g a) (g' a) s') :
    Lockstep f (Coroutine.forEach g as) (Coroutine.forEach g' as) s := by
  induction as generalizing s with
  | nil => exact .pure f [] s
  | cons a as ih =>
    refine (h [] a as rfl [] s fun _ => rfl).bind fun bs s₁ hfirst => ?_
    refine (ih fun pre b post hsplit cs s₂ hpre => ?_).bind fun cs s₂ _ => .pure f _ s₂
    refine h (a :: pre) b post (by rw [hsplit, List.cons_append]) (bs ++ cs) s₂ ?_
    exact hfirst.bind (hpre.bind fun _ => rfl)

/-- The result and the states at the end of two runs in lockstep. -/
lemma run (h : Lockstep f p p' s) (ω ω' : Oracle ι ρ) :
    (p'.run ω' (f s)).state = f (p.run ω s).state ∧
      (p'.run ω' (f s)).result = (p.run ω s).result := by
  obtain ⟨a, s', hs, hs'⟩ := h
  rw [hs ω, hs' ω']
  exact ⟨rfl, rfl⟩

end Lockstep
end Coroutine
