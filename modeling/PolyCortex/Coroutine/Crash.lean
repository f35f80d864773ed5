import PolyCortex.Coroutine.Contract

/-!
# Runs that are cut short

A process can die at any await. `runFor n p` is what a sequential run of `p` leaves when it dies at
the await after `n` answers: the state and the trace up to there, and no result. `passes p` are all the
states a run goes through.
-/

namespace Coroutine

variable {σ ι : Type} {ρ : ι → Type} {α β : Type}

/-- Run until `n` questions are answered, up to the next await. -/
def runFor : ℕ → Coroutine σ ι ρ α → Oracle ι ρ → σ → World σ ι ρ
  | _, .pure _, _, s => ⟨s, []⟩
  | n, .step u k, ω, s => runFor n (k s) ω (u s)
  | 0, .await _ _, _, s => ⟨s, []⟩
  | n + 1, .await q k, ω, s =>
    let w := runFor n (k (ω 0 q)) (fun n => ω (n + 1)) s
    ⟨w.state, ⟨q, ω 0 q⟩ :: w.trace⟩

@[simp] lemma runFor_pure (n : ℕ) (a : α) (ω : Oracle ι ρ) (s : σ) :
    runFor n (.pure a : Coroutine σ ι ρ α) ω s = ⟨s, []⟩ := by cases n <;> rfl

@[simp] lemma runFor_step (n : ℕ) (u : σ → σ) (k : σ → Coroutine σ ι ρ α) (ω : Oracle ι ρ)
    (s : σ) : runFor n (.step u k) ω s = runFor n (k s) ω (u s) := by cases n <;> rfl

@[simp] lemma runFor_modifyGet_bind (n : ℕ) (u : σ → α × σ) (f : α → Coroutine σ ι ρ β)
    (ω : Oracle ι ρ) (s : σ) :
    runFor n ((modifyGet u).bind f) ω s = runFor n (f (u s).1) ω (u s).2 := by cases n <;> rfl

/-- What was asked before the crash is the beginning of what a complete run asks. -/
lemma runFor_trace (n : ℕ) (p : Coroutine σ ι ρ α) (ω : Oracle ι ρ) (s : σ) :
    (runFor n p ω s).trace = (p.run ω s).trace.take n := by
  induction p generalizing n ω s with
  | pure a => simp
  | step u k ih => simpa using ih s n ω (u s)
  | await q k ih =>
    cases n with
    | zero => rfl
    | succ n =>
      rw [run_await, List.take_succ_cons, ← ih]
      rfl

/-- What every update guarantees holds at the crash as well. -/
theorem Meets.runFor {R : Rely σ ι ρ} {G : Guarantee σ ι ρ} {Q : α → World σ ι ρ → Prop}
    {p : Coroutine σ ι ρ α} {w : World σ ι ρ} (h : Meets R G Q p w)
    (hR : ∀ q r w, R q r w w) (hG : ∀ w, G w w) (hG' : ∀ {w₁ w₂ w₃}, G w₁ w₂ → G w₂ w₃ → G w₁ w₃)
    (n : ℕ) (ω : Oracle ι ρ) :
    G w ⟨(p.runFor n ω w.state).state, w.trace ++ (p.runFor n ω w.state).trace⟩ := by
  induction p generalizing w n ω with
  | pure a => simpa using hG w
  | step u k ih => simpa using hG' h.1 (ih w.state h.2 n ω)
  | await q k ih =>
    cases n with
    | zero => simpa [Coroutine.runFor] using hG w
    | succ n =>
      obtain ⟨hg, hm⟩ := h (ω 0 q) w (hR q _ w)
      have hrest := ih (ω 0 q) hm n fun n => ω (n + 1)
      simp only [World.answer, List.append_assoc, List.singleton_append] at hg hrest
      exact hG' hg hrest

/-! ### The states a run goes through -/

/-- The state before each update of a run, and the last one. -/
def passes : Coroutine σ ι ρ α → Oracle ι ρ → σ → List σ
  | .pure _, _, s => [s]
  | .step u k, ω, s => s :: passes (k s) ω (u s)
  | .await q k, ω, s => passes (k (ω 0 q)) (fun n => ω (n + 1)) s

/-- A run goes through the state it starts in. -/
lemma start_mem_passes (p : Coroutine σ ι ρ α) (ω : Oracle ι ρ) (s : σ) : s ∈ p.passes ω s := by
  induction p generalizing ω with
  | pure a => simp [passes]
  | step u k => simp [passes]
  | await q k ih => exact ih _ _

/-- What every update guarantees relates the start to every state on the way. -/
theorem Meets.passes {R : Rely σ ι ρ} {G : Guarantee σ ι ρ} {Q : α → World σ ι ρ → Prop}
    {p : Coroutine σ ι ρ α} {w : World σ ι ρ} (h : Meets R G Q p w)
    (hR : ∀ q r w, R q r w w) (hG : ∀ w, G w w) (hG' : ∀ {w₁ w₂ w₃}, G w₁ w₂ → G w₂ w₃ → G w₁ w₃)
    (ω : Oracle ι ρ) {s : σ} (hs : s ∈ p.passes ω w.state) : ∃ trace, G w ⟨s, trace⟩ := by
  induction p generalizing w ω with
  | pure a =>
    obtain rfl := List.mem_singleton.mp hs
    exact ⟨w.trace, hG w⟩
  | step u k ih =>
    rcases List.mem_cons.mp hs with rfl | hs
    · exact ⟨w.trace, hG w⟩
    · obtain ⟨trace, hrest⟩ := ih w.state h.2 ω hs
      exact ⟨trace, hG' h.1 hrest⟩
  | await q k ih =>
    obtain ⟨hg, hm⟩ := h (ω 0 q) w (hR q _ w)
    obtain ⟨trace, hrest⟩ := ih (ω 0 q) hm _ hs
    exact ⟨trace, hG' hg hrest⟩

end Coroutine
