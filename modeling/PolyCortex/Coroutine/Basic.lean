import Mathlib.Tactic

/-!
# Cooperative coroutines

A coroutine works on a shared state and suspends at explicit awaits. Between two awaits it runs
without interruption, so an update of the state is atomic; at an await it asks its environment a
question `q : ι` and is resumed with an answer of type `ρ q`.

`Coroutine.run` is the sequential meaning: the coroutine runs alone and every question is answered
by an arbitrary oracle. Interleavings of several coroutines are in `Coroutine.Pool`.
-/

/-- A coroutine over a shared state `σ`, with questions `ι`, answers `ρ` and a result in `α`. -/
inductive Coroutine (σ ι : Type) (ρ : ι → Type) (α : Type) : Type where
  | pure (a : α)
  | step (u : σ → σ) (k : σ → Coroutine σ ι ρ α)
  | await (q : ι) (k : ρ q → Coroutine σ ι ρ α)

/-- A question together with the answer it was given. -/
abbrev Coroutine.Exchanged (ι : Type) (ρ : ι → Type) := Σ q : ι, ρ q

/-- One answer for every question, for each question a run may ask: `ω n q` answers the `n`-th. -/
abbrev Coroutine.Oracle (ι : Type) (ρ : ι → Type) := ℕ → (q : ι) → ρ q

namespace Coroutine

variable {σ ι : Type} {ρ : ι → Type} {α β : Type}

def bind : Coroutine σ ι ρ α → (α → Coroutine σ ι ρ β) → Coroutine σ ι ρ β
  | .pure a, f => f a
  | .step u k, f => .step u fun s => (k s).bind f
  | .await q k, f => .await q fun r => (k r).bind f

instance : Monad (Coroutine σ ι ρ) where
  pure := .pure
  bind := bind

@[simp] lemma pure_def (a : α) : (Pure.pure a : Coroutine σ ι ρ α) = .pure a := rfl

@[simp] lemma bind_def (p : Coroutine σ ι ρ α) (f : α → Coroutine σ ι ρ β) :
    p >>= f = p.bind f := rfl

@[simp] lemma map_def (f : α → β) (p : Coroutine σ ι ρ α) :
    f <$> p = p.bind fun a => .pure (f a) := rfl

@[simp] lemma pure_bind (a : α) (f : α → Coroutine σ ι ρ β) :
    (Coroutine.pure a : Coroutine σ ι ρ α).bind f = f a := rfl

@[simp] lemma step_bind (u : σ → σ) (k : σ → Coroutine σ ι ρ α) (f : α → Coroutine σ ι ρ β) :
    (step u k).bind f = step u fun s => (k s).bind f := rfl

@[simp] lemma await_bind (q : ι) (k : ρ q → Coroutine σ ι ρ α) (f : α → Coroutine σ ι ρ β) :
    (await q k).bind f = await q fun r => (k r).bind f := rfl

lemma bind_assoc {γ : Type} (p : Coroutine σ ι ρ α) (f : α → Coroutine σ ι ρ β)
    (g : β → Coroutine σ ι ρ γ) : (p.bind f).bind g = p.bind fun a => (f a).bind g := by
  induction p with
  | pure a => rfl
  | step u k ih => simp only [step_bind, ih]
  | await q k ih => simp only [await_bind, ih]

lemma bind_pure (p : Coroutine σ ι ρ α) : p.bind .pure = p := by
  induction p with
  | pure a => rfl
  | step u k ih => simp only [step_bind, ih]
  | await q k ih => simp only [await_bind, ih]

/-- Read the shared state. -/
def get : Coroutine σ ι ρ σ := .step id .pure

/-- Update the shared state. -/
def modify (u : σ → σ) : Coroutine σ ι ρ Unit := .step u fun _ => .pure ()

/-- Update the shared state and return what the update computes from the old one. -/
def modifyGet (f : σ → α × σ) : Coroutine σ ι ρ α := .step (fun s => (f s).2) fun s => .pure (f s).1

/-- Ask the environment and suspend until it answers. -/
def ask (q : ι) : Coroutine σ ι ρ (ρ q) := .await q .pure

/-- Run `f` on every element in turn and concatenate the results. -/
def forEach (f : α → Coroutine σ ι ρ (List β)) : List α → Coroutine σ ι ρ (List β)
  | [] => .pure []
  | a :: as => (f a).bind fun bs => (forEach f as).bind fun cs => .pure (bs ++ cs)

/-! ### Sequential runs -/

/-- What a complete run leaves behind: the state, the questions answered on the way, the result. -/
structure Outcome (σ ι : Type) (ρ : ι → Type) (α : Type) where
  state : σ
  trace : List (Exchanged ι ρ)
  result : α

/-- Run a coroutine alone, to completion, with every question answered by `ω`. -/
def run : Coroutine σ ι ρ α → Oracle ι ρ → σ → Outcome σ ι ρ α
  | .pure a, _, s => ⟨s, [], a⟩
  | .step u k, ω, s => (k s).run ω (u s)
  | .await q k, ω, s =>
    let o := (k (ω 0 q)).run (fun n => ω (n + 1)) s
    ⟨o.state, ⟨q, ω 0 q⟩ :: o.trace, o.result⟩

@[simp] lemma run_pure (a : α) (ω : Oracle ι ρ) (s : σ) :
    (Coroutine.pure a : Coroutine σ ι ρ α).run ω s = ⟨s, [], a⟩ := rfl

@[simp] lemma run_step (u : σ → σ) (k : σ → Coroutine σ ι ρ α) (ω : Oracle ι ρ) (s : σ) :
    (step u k).run ω s = (k s).run ω (u s) := rfl

lemma run_await (q : ι) (k : ρ q → Coroutine σ ι ρ α) (ω : Oracle ι ρ) (s : σ) :
    (await q k).run ω s =
      ⟨((k (ω 0 q)).run (fun n => ω (n + 1)) s).state,
        ⟨q, ω 0 q⟩ :: ((k (ω 0 q)).run (fun n => ω (n + 1)) s).trace,
        ((k (ω 0 q)).run (fun n => ω (n + 1)) s).result⟩ := rfl

@[simp] lemma run_get_bind (f : σ → Coroutine σ ι ρ β) (ω : Oracle ι ρ) (s : σ) :
    (get.bind f).run ω s = (f s).run ω s := rfl

@[simp] lemma run_modify (u : σ → σ) (ω : Oracle ι ρ) (s : σ) :
    (modify u : Coroutine σ ι ρ Unit).run ω s = ⟨u s, [], ()⟩ := rfl

@[simp] lemma run_modify_bind (u : σ → σ) (f : Unit → Coroutine σ ι ρ β) (ω : Oracle ι ρ) (s : σ) :
    ((modify u).bind f).run ω s = (f ()).run ω (u s) := rfl

@[simp] lemma run_modifyGet (u : σ → α × σ) (ω : Oracle ι ρ) (s : σ) :
    (modifyGet u : Coroutine σ ι ρ α).run ω s = ⟨(u s).2, [], (u s).1⟩ := rfl

@[simp] lemma run_modifyGet_bind (u : σ → α × σ) (f : α → Coroutine σ ι ρ β) (ω : Oracle ι ρ)
    (s : σ) : ((modifyGet u).bind f).run ω s = (f (u s).1).run ω (u s).2 := rfl

/-- The second part of a sequence continues with the answers the first part has not used. -/
lemma run_bind (p : Coroutine σ ι ρ α) (f : α → Coroutine σ ι ρ β) (ω : Oracle ι ρ) (s : σ) :
    ∃ ω', (p.bind f).run ω s =
      ⟨((f (p.run ω s).result).run ω' (p.run ω s).state).state,
        (p.run ω s).trace ++ ((f (p.run ω s).result).run ω' (p.run ω s).state).trace,
        ((f (p.run ω s).result).run ω' (p.run ω s).state).result⟩ := by
  induction p generalizing ω s with
  | pure a => exact ⟨ω, rfl⟩
  | step u k ih => exact ih s ω (u s)
  | await q k ih =>
    obtain ⟨ω', h⟩ := ih (ω 0 q) (fun n => ω (n + 1)) s
    exact ⟨ω', by simp only [await_bind, run_await, h, List.cons_append]⟩

lemma run_map (p : Coroutine σ ι ρ α) (f : α → β) (ω : Oracle ι ρ) (s : σ) :
    (p.bind fun a => .pure (f a)).run ω s =
      ⟨(p.run ω s).state, (p.run ω s).trace, f (p.run ω s).result⟩ := by
  obtain ⟨ω', h⟩ := run_bind p (fun a => .pure (f a)) ω s
  simpa using h

@[simp] lemma run_map_result (p : Coroutine σ ι ρ α) (f : α → β) (ω : Oracle ι ρ) (s : σ) :
    ((p.bind fun a => .pure (f a)).run ω s).result = f (p.run ω s).result := by
  rw [run_map]

end Coroutine
