import Mathlib.Logic.Function.Basic
import Mathlib.Tactic

/-!
# The lock file

`PidLock.acquire` and `PidLock.release`, as the system calls that any number of processes interleave on
one path. `open` creates the file when the path names none, `flock` excludes on the file and not on the
path, and `unlink` takes the name away.
-/

namespace PolyCortex.PidLock

abbrev Inode := ℕ

/-- Where a process is; the comment is its next system call. -/
inductive Phase where
  /-- Outside; `open`. -/
  | idle
  /-- In `acquire`; `flock`, not blocking. -/
  | opened (i : Inode)
  /-- In `acquire`, the file is locked by another process; `close`. -/
  | refused (i : Inode)
  /-- In `acquire`, with the lock; `write` of the pid. -/
  | locked (i : Inode)
  /-- `acquire` has returned `True`; `flock` of `release`, to unlock. -/
  | acquired (i : Inode)
  /-- In `release`; `close`. -/
  | unlocked (i : Inode)
  /-- In `release`; `unlink`. -/
  | closed
  deriving DecidableEq, Repr

namespace Phase

/-- The file that a process means to lock, or has locked. -/
def uses : Phase → Option Inode
  | .opened i => some i
  | .locked i => some i
  | .acquired i => some i
  | _ => none

/-- The file that a process has locked. -/
def holds : Phase → Option Inode
  | .locked i => some i
  | .acquired i => some i
  | _ => none

end Phase

/-- The path and the inodes, with the process that has locked an inode. -/
structure State (P : Type) where
  path : Option Inode := none
  fresh : Inode := 0
  holder : Inode → Option P := fun _ => none
  phase : P → Phase := fun _ => .idle

/-- A process executes its next system call, or it ends and its files are closed. -/
inductive Event (P : Type) where
  | call (p : P)
  | exit (p : P)
  deriving DecidableEq, Repr

variable {P : Type}

namespace State

section Calls

variable [DecidableEq P]

def setPhase (p : P) (phase : Phase) (s : State P) : State P :=
  { s with phase := Function.update s.phase p phase }

/-- `open(path, "w")`. -/
def openFile (p : P) (s : State P) : State P :=
  match s.path with
  | some i => s.setPhase p (.opened i)
  | none => { s with path := some s.fresh, fresh := s.fresh + 1 }.setPhase p (.opened s.fresh)

/-- `flock(LOCK_EX | LOCK_NB)`. -/
def lock (p : P) (i : Inode) (s : State P) : State P :=
  match s.holder i with
  | none => { s with holder := Function.update s.holder i (some p) }.setPhase p (.locked i)
  | some _ => s.setPhase p (.refused i)

/-- `flock(LOCK_UN)`. -/
def unlock (p : P) (i : Inode) (s : State P) : State P :=
  { s with holder := Function.update s.holder i none }.setPhase p (.unlocked i)

/-- `unlink`, of whatever the path names. -/
def unlink (p : P) (s : State P) : State P := { s with path := none }.setPhase p .idle

/-- The end of a process. -/
def exit (p : P) (s : State P) : State P :=
  { s with holder := fun i => if s.holder i = some p then none else s.holder i }.setPhase p .idle

def step (s : State P) : Event P → State P
  | .call p =>
    match s.phase p with
    | .idle => s.openFile p
    | .opened i => s.lock p i
    | .refused _ => s.setPhase p .idle
    | .locked i => s.setPhase p (.acquired i)
    | .acquired i => s.unlock p i
    | .unlocked _ => s.setPhase p .closed
    | .closed => s.unlink p
  | .exit p => s.exit p

/-- An interleaving. -/
def run (s : State P) (events : List (Event P)) : State P := events.foldl step s

end Calls

/-- The process has acquired the lock and not begun to release it. -/
def Acquired (p : P) (s : State P) : Prop := ∃ i, s.phase p = .acquired i

/-- No two processes have acquired the lock. -/
def Exclusive (s : State P) : Prop := ∀ p q, s.Acquired p → s.Acquired q → p = q

/-- Before any process has called `acquire`; a file may have been left behind. -/
structure Initial (s : State P) : Prop where
  idle : ∀ p, s.phase p = .idle
  free : ∀ i, s.holder i = none

/-- An `unlink` is quiet when no other process has a file that it means to lock or has locked. -/
def Quiet (s : State P) : Event P → Prop
  | .call p => s.phase p = .closed → ∀ q, q ≠ p → (s.phase q).uses = none
  | .exit _ => True

/-- All steps of an interleaving are quiet. -/
def QuietRun [DecidableEq P] (s : State P) : List (Event P) → Prop
  | [] => True
  | event :: events => s.Quiet event ∧ (s.step event).QuietRun events

/-! ### The invariant -/

/-- Every file in use has the name, and who has locked a file is its holder. -/
structure Named (s : State P) : Prop where
  named : ∀ p i, (s.phase p).uses = some i → s.path = some i
  held : ∀ p i, (s.phase p).holds = some i → s.holder i = some p

variable {s : State P} {p : P} {i : Inode}

instance decidableQuiet [DecidableEq P] [Fintype P] (s : State P) : ∀ event, Decidable (s.Quiet event)
  | .call p => inferInstanceAs (Decidable (s.phase p = .closed → ∀ q, q ≠ p → (s.phase q).uses = none))
  | .exit _ => .isTrue trivial

instance decidableQuietRun [DecidableEq P] [Fintype P] :
    ∀ (s : State P) events, Decidable (s.QuietRun events)
  | _, [] => .isTrue trivial
  | s, event :: events =>
    have := decidableQuietRun (s.step event) events
    inferInstanceAs (Decidable (s.Quiet event ∧ (s.step event).QuietRun events))

lemma Initial.named (h : s.Initial) : s.Named := by
  constructor
  · intro p i huses
    rw [h.idle] at huses
    cases huses
  · intro p i hholds
    rw [h.idle] at hholds
    cases hholds

/-- Two processes with the lock have locked the file of the path, and it has one holder. -/
lemma Named.exclusive (h : s.Named) : s.Exclusive := by
  rintro p q ⟨i, hp⟩ ⟨j, hq⟩
  have hi : s.path = some i := h.named p i (by rw [hp]; rfl)
  have hj : s.path = some j := h.named q j (by rw [hq]; rfl)
  obtain rfl := Option.some.inj (hi.symm.trans hj)
  have hp' : s.holder i = some p := h.held p i (by rw [hp]; rfl)
  have hq' : s.holder i = some q := h.held q i (by rw [hq]; rfl)
  exact Option.some.inj (hp'.symm.trans hq')

section Steps

variable [DecidableEq P]

/-- A step of one process, which leaves the others the files that they use and hold. -/
lemma Named.of_others (h : s.Named) {s' : State P} (hphase : ∀ q, q ≠ p → s'.phase q = s.phase q)
    (hpath : ∀ q i, q ≠ p → (s.phase q).uses = some i → s'.path = some i)
    (hholder : ∀ q i, q ≠ p → s.holder i = some q → s'.holder i = some q)
    (huses : ∀ i, (s'.phase p).uses = some i → s'.path = some i)
    (hholds : ∀ i, (s'.phase p).holds = some i → s'.holder i = some p) : s'.Named := by
  constructor
  · intro q i hq
    by_cases hqp : q = p
    · subst hqp
      exact huses i hq
    · rw [hphase q hqp] at hq
      exact hpath q i hqp hq
  · intro q i hq
    by_cases hqp : q = p
    · subst hqp
      exact hholds i hq
    · rw [hphase q hqp] at hq
      exact hholder q i hqp (h.held q i hq)

/-- The files are the same for a process that goes on with the file it has, or stops using it. -/
lemma Named.setPhase (h : s.Named) {phase : Phase} (huses : ∀ i, phase.uses = some i → s.path = some i)
    (hholds : ∀ i, phase.holds = some i → s.holder i = some p) : (s.setPhase p phase).Named := by
  have hp : (s.setPhase p phase).phase p = phase := by simp [State.setPhase]
  refine h.of_others (p := p) ?_ (fun q i _ => h.named q i) (fun _ _ _ hq => hq) ?_ ?_
  · intro q hq
    simp [State.setPhase, hq]
  · rwa [hp]
  · rwa [hp]

lemma Named.openFile (h : s.Named) : (s.openFile p).Named := by
  rw [State.openFile]
  cases hpath : s.path with
  | some i => exact h.setPhase (by rintro _ ⟨⟩; exact hpath) (by rintro _ ⟨⟩)
  | none =>
    -- a file in use would have the name
    have hcreated : Named { s with path := some s.fresh, fresh := s.fresh + 1 } :=
      ⟨fun q i huses => absurd (h.named q i huses) (by simp [hpath]), h.held⟩
    exact hcreated.setPhase (by rintro _ ⟨⟩; rfl) (by rintro _ ⟨⟩)

lemma Named.lock (h : s.Named) (hphase : s.phase p = .opened i) : (s.lock p i).Named := by
  have hpath : s.path = some i := h.named p i (by rw [hphase]; rfl)
  rw [State.lock]
  cases hholder : s.holder i with
  | some _ => exact h.setPhase (by rintro _ ⟨⟩) (by rintro _ ⟨⟩)
  | none =>
    have htaken : Named { s with holder := Function.update s.holder i (some p) } := by
      refine ⟨h.named, fun q j hholds => ?_⟩
      have hq : s.holder j = some q := h.held q j hholds
      have hj : j ≠ i := by
        rintro rfl
        simp [hholder] at hq
      simpa [hj] using hq
    exact htaken.setPhase (by rintro _ ⟨⟩; exact hpath) (by rintro _ ⟨⟩; simp)

lemma Named.unlock (h : s.Named) (hphase : s.phase p = .acquired i) : (s.unlock p i).Named := by
  have hp : s.holder i = some p := h.held p i (by rw [hphase]; rfl)
  refine h.of_others (p := p) ?_ (fun q j _ => h.named q j) ?_ ?_ ?_
  · intro q hq
    simp [State.unlock, State.setPhase, hq]
  · -- what the process holds is not held by others
    intro q j hq hj
    have hne : j ≠ i := by
      rintro rfl
      exact hq (Option.some.inj (hj.symm.trans hp))
    simpa [State.unlock, State.setPhase, hne] using hj
  · simp [State.unlock, State.setPhase, Phase.uses]
  · simp [State.unlock, State.setPhase, Phase.holds]

lemma Named.unlink (h : s.Named) (hquiet : ∀ q, q ≠ p → (s.phase q).uses = none) :
    (s.unlink p).Named := by
  refine h.of_others (p := p) ?_ ?_ (fun _ _ _ hq => hq) ?_ ?_
  · intro q hq
    simp [State.unlink, State.setPhase, hq]
  · intro q i hq huses
    rw [hquiet q hq] at huses
    cases huses
  · simp [State.unlink, State.setPhase, Phase.uses]
  · simp [State.unlink, State.setPhase, Phase.holds]

lemma Named.exit (h : s.Named) : (s.exit p).Named := by
  refine h.of_others (p := p) ?_ (fun q i _ => h.named q i) ?_ ?_ ?_
  · intro q hq
    simp [State.exit, State.setPhase, hq]
  · intro q i hq hj
    simp [State.exit, State.setPhase, hj, hq]
  · simp [State.exit, State.setPhase, Phase.uses]
  · simp [State.exit, State.setPhase, Phase.holds]

/-- A quiet step keeps the names. -/
lemma Named.step (h : s.Named) {event : Event P} (hquiet : s.Quiet event) : (s.step event).Named := by
  cases event with
  | exit p => exact h.exit
  | call p =>
    rw [State.step]
    cases hphase : s.phase p with
    | idle => exact h.openFile
    | opened i => exact h.lock hphase
    | refused i => exact h.setPhase (by rintro _ ⟨⟩) (by rintro _ ⟨⟩)
    | locked i =>
      refine h.setPhase ?_ ?_
      · rintro _ ⟨⟩
        exact h.named p i (by rw [hphase]; rfl)
      · rintro _ ⟨⟩
        exact h.held p i (by rw [hphase]; rfl)
    | acquired i => exact h.unlock hphase
    | unlocked i => exact h.setPhase (by rintro _ ⟨⟩) (by rintro _ ⟨⟩)
    | closed => exact h.unlink (hquiet hphase)

lemma Named.run (h : s.Named) {events : List (Event P)} (hquiet : s.QuietRun events) :
    (s.run events).Named := by
  induction events generalizing s with
  | nil => exact h
  | cons event events ih => exact ih (h.step hquiet.1) hquiet.2

lemma QuietRun.take {events : List (Event P)} (h : s.QuietRun events) (n : ℕ) :
    s.QuietRun (events.take n) := by
  induction events generalizing s n with
  | nil => simpa using h
  | cons event events ih =>
    cases n with
    | zero => trivial
    | succ n => exact ⟨h.1, ih h.2 n⟩

end Steps

end State

/-- Three processes, and no file. -/
def threeIdle : State (Fin 3) := {}

/-- One process acquires and releases the lock, then the next one acquires it. -/
def takingTurns : List (Event (Fin 3)) := List.replicate 6 (.call 0) ++ List.replicate 3 (.call 1)

/-- The first process has unlocked the file but not yet unlinked the path when the second one locks the
same file; then the third one finds no file, and creates and locks another one. -/
def race : List (Event (Fin 3)) :=
  List.replicate 4 (.call 0) ++ List.replicate 3 (.call 1) ++ List.replicate 2 (.call 0) ++
    List.replicate 3 (.call 2)

end PolyCortex.PidLock
