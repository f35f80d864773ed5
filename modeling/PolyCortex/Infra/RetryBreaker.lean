import PolyCortex.Machine.History

/-!
# The circuit breaker of the retries

The `CircuitBreaker` that `with_retry` asks before each attempt. Requests and outcomes are calls of their
own, and the breaker does not know which request an outcome belongs to: a late success closes it at
once, and in HALF_OPEN every request is admitted. It guards what it is to guard as long as neither comes
about (`guards_of_sound`). The calls of all callers make one sequence.
-/

namespace PolyCortex.Retry

open Machine

inductive CircuitState where
  | closed
  | opened
  | halfOpen
  deriving DecidableEq, Repr

/-- Times are seconds of the monotonic clock. -/
structure CircuitBreaker where
  failureThreshold : ℕ := 5
  resetTimeout : ℚ := 60
  state : CircuitState := .closed
  failureCount : ℕ := 0
  lastFailureTime : ℚ := 0
  successCount : ℕ := 0
  totalRejected : ℕ := 0

/-- A call, at its time; a success does not look at the clock. -/
inductive BreakerCall where
  | read (now : ℚ)
  | allowRequest (now : ℚ)
  | recordSuccess (now : ℚ)
  | recordFailure (now : ℚ)

namespace BreakerCall

def time : BreakerCall → ℚ
  | .read now | .allowRequest now | .recordSuccess now | .recordFailure now => now

/-- The call records the outcome of a request. -/
def IsOutcome : BreakerCall → Prop
  | .recordSuccess _ | .recordFailure _ => True
  | .read _ | .allowRequest _ => False

end BreakerCall

namespace CircuitBreaker

/-- A new breaker. -/
def new (failureThreshold : ℕ) (resetTimeout : ℚ) : CircuitBreaker := { failureThreshold, resetTimeout }

/-- Reading `state`. -/
def readState (now : ℚ) (b : CircuitBreaker) : CircuitBreaker :=
  if b.state = .opened ∧ b.resetTimeout ≤ now - b.lastFailureTime then { b with state := .halfOpen } else b

/-- `allow_request`. -/
def allowRequest (now : ℚ) (b : CircuitBreaker) : Bool × CircuitBreaker :=
  let b := b.readState now
  match b.state with
  | .closed => (true, b)
  | .halfOpen => (true, b)
  | .opened => (false, { b with totalRejected := b.totalRejected + 1 })

/-- `record_success`. -/
def recordSuccess (b : CircuitBreaker) : CircuitBreaker :=
  { b with successCount := b.successCount + 1, state := .closed, failureCount := 0 }

/-- `record_failure`. -/
def recordFailure (now : ℚ) (b : CircuitBreaker) : CircuitBreaker :=
  let b := { b with failureCount := b.failureCount + 1, lastFailureTime := now }
  if b.failureThreshold ≤ b.failureCount then { b with state := .opened } else b

def step (b : CircuitBreaker) : BreakerCall → CircuitBreaker
  | .read now => b.readState now
  | .allowRequest now => (b.allowRequest now).2
  | .recordSuccess _ => b.recordSuccess
  | .recordFailure now => b.recordFailure now

/-- After some calls. -/
def after (b : CircuitBreaker) (calls : List BreakerCall) : CircuitBreaker := run step b calls

/-! ### What a breaker is to guard -/

/-- Since any moment at which the breaker was open there is a call at which the timeout has passed since
the last failure before it. -/
def WaitedUntil (b : CircuitBreaker) (calls : List BreakerCall) (request : BreakerCall) : Prop :=
  ∀ first rest, calls = first ++ rest → (b.after first).state = .opened →
    ∃ middle call later, rest ++ [request] = middle ++ call :: later ∧
      ∀ failed, .recordFailure failed ∈ first ++ middle → failed + b.resetTimeout ≤ call.time

/-- A request at a time finds the breaker half open. -/
def Probes (b : CircuitBreaker) (now : ℚ) : Prop := (b.readState now).state = .halfOpen

/-- A request has been admitted in HALF_OPEN, and no outcome been recorded since. -/
def Outstanding (b : CircuitBreaker) : List BreakerCall → Prop :=
  Since (fun before call => ∃ now, call = .allowRequest now ∧ (b.after before).Probes now)
    fun call => ¬ call.IsOutcome

/-- No request is admitted before the timeout, and in HALF_OPEN none while another one is out. -/
structure Guards (b : CircuitBreaker) (calls : List BreakerCall) : Prop where
  waits : ∀ before now later, calls = before ++ .allowRequest now :: later →
    ((b.after before).allowRequest now).1 = true → b.WaitedUntil before (.allowRequest now)
  single : ∀ before now later, calls = before ++ .allowRequest now :: later →
    (b.after before).Probes now → ¬ b.Outstanding before

/-- A success is recorded in OPEN after the timeout only, and no request is made in HALF_OPEN while
another one is out. -/
def Sound (b₀ : CircuitBreaker) (before : List BreakerCall) (b : CircuitBreaker) : BreakerCall → Prop
  | .recordSuccess now => b.state = .opened → b.lastFailureTime + b.resetTimeout ≤ now
  | .allowRequest now => b.Probes now → ¬ b₀.Outstanding before
  | .read _ | .recordFailure _ => True

variable {b b₀ : CircuitBreaker} {call : BreakerCall} {calls : List BreakerCall} {now : ℚ}

@[simp] lemma after_concat : b.after (calls ++ [call]) = (b.after calls).step call := run_concat _ _ _ _

lemma after_append (later : List BreakerCall) : b.after (calls ++ later) = (b.after calls).after later :=
  run_append _ _ _ _

/-! ### What a call does -/

@[simp] lemma readState_resetTimeout : (b.readState now).resetTimeout = b.resetTimeout := by
  rw [readState]; split_ifs <;> rfl

@[simp] lemma readState_lastFailureTime : (b.readState now).lastFailureTime = b.lastFailureTime := by
  rw [readState]; split_ifs <;> rfl

lemma allowRequest_cases (now : ℚ) (b : CircuitBreaker) :
    (b.readState now).state ≠ .opened ∧ b.allowRequest now = (true, b.readState now) ∨
      (b.readState now).state = .opened ∧
        b.allowRequest now =
          (false, { b.readState now with totalRejected := (b.readState now).totalRejected + 1 }) := by
  rw [allowRequest]
  cases hstate : (b.readState now).state with
  | closed => exact Or.inl ⟨nofun, by simp⟩
  | halfOpen => exact Or.inl ⟨nofun, by simp⟩
  | opened => exact Or.inr ⟨rfl, by simp [hstate]⟩

lemma step_allowRequest_state : (b.step (.allowRequest now)).state = (b.readState now).state := by
  rw [step]
  rcases allowRequest_cases now b with ⟨-, h⟩ | ⟨-, h⟩ <;> rw [h]

lemma step_resetTimeout : (b.step call).resetTimeout = b.resetTimeout := by
  cases call with
  | read now => exact readState_resetTimeout
  | allowRequest now =>
    rw [step]
    rcases allowRequest_cases now b with ⟨-, h⟩ | ⟨-, h⟩ <;> simp [h]
  | recordSuccess now => rfl
  | recordFailure now =>
    rw [step, recordFailure]
    dsimp only
    split_ifs <;> rfl

lemma step_lastFailureTime (hcall : ∀ now, call ≠ .recordFailure now) :
    (b.step call).lastFailureTime = b.lastFailureTime := by
  cases call with
  | read now => exact readState_lastFailureTime
  | allowRequest now =>
    rw [step]
    rcases allowRequest_cases now b with ⟨-, h⟩ | ⟨-, h⟩ <;> simp [h]
  | recordSuccess now => rfl
  | recordFailure now => exact absurd rfl (hcall now)

lemma failure_lastFailureTime : (b.step (.recordFailure now)).lastFailureTime = now := by
  rw [step, recordFailure]
  dsimp only
  split_ifs <;> rfl

/-- An open breaker that is read to be something else has waited for the timeout. -/
lemma waited_of_readState (hopen : b.state = .opened) (hleaves : (b.readState now).state ≠ .opened) :
    b.lastFailureTime + b.resetTimeout ≤ now := by
  rw [readState] at hleaves
  split_ifs at hleaves with hread
  · linarith [hread.2]
  · exact absurd hopen hleaves

/-- A sound call that opens the way has waited for the timeout. -/
lemma waited_of_step {before : List BreakerCall} (hopen : b.state = .opened)
    (hsound : Sound b₀ before b call) (hleaves : (b.step call).state ≠ .opened) :
    b.lastFailureTime + b.resetTimeout ≤ call.time := by
  cases call with
  | read now => exact waited_of_readState hopen hleaves
  | allowRequest now => exact waited_of_readState hopen (step_allowRequest_state ▸ hleaves)
  | recordSuccess now => exact hsound hopen
  | recordFailure now =>
    rw [step, recordFailure] at hleaves
    dsimp only at hleaves
    split_ifs at hleaves
    · exact absurd rfl hleaves
    · exact absurd hopen hleaves

/-! ### Runs -/

lemma after_resetTimeout (b : CircuitBreaker) (calls : List BreakerCall) :
    (b.after calls).resetTimeout = b.resetTimeout := by
  induction calls using List.reverseRecOn with
  | nil => rfl
  | append_singleton calls call ih => rw [after_concat, step_resetTimeout, ih]

/-- After an outcome no request is out. -/
lemma not_outstanding_of_isOutcome (h : call.IsOutcome) : ¬ b.Outstanding (calls ++ [call]) := by
  rw [Outstanding, since_concat]
  rintro (⟨-, hnot⟩ | ⟨now, rfl, -⟩)
  · exact hnot h
  · exact h

/-- At times that do not decrease no failure is later than the last one. -/
lemma failed_le (hsorted : (calls.map BreakerCall.time).Pairwise (· ≤ ·)) {failed : ℚ}
    (hfailed : .recordFailure failed ∈ calls) : failed ≤ (b.after calls).lastFailureTime := by
  apply le_last (fun _ _ h => BreakerCall.recordFailure.inj h) (fun _ _ => failure_lastFailureTime)
    (fun _ _ h => step_lastFailureTime h) ?_ hfailed
  refine (List.pairwise_map.mp hsorted).imp fun {call later} hle now now' hnow hnow' => ?_
  subst hnow hnow'
  exact hle

/-- A request that is admitted after the breaker was open comes after a call that waited. -/
lemma waitedUntil_of_sound {before later : List BreakerCall}
    (hsorted : ((before ++ .allowRequest now :: later).map BreakerCall.time).Pairwise (· ≤ ·))
    (hsound : Along step b (Sound b) (before ++ .allowRequest now :: later))
    (hadmitted : ((b.after before).allowRequest now).1 = true) :
    b.WaitedUntil before (.allowRequest now) := by
  rintro first rest rfl hopen
  have hleaves : ((b.after first).after (rest ++ [.allowRequest now])).state ≠ .opened := by
    rw [← after_append, ← List.append_assoc, after_concat, step_allowRequest_state]
    rcases allowRequest_cases now (b.after (first ++ rest)) with ⟨hstate, -⟩ | ⟨-, hrejected⟩
    · exact hstate
    · rw [hrejected] at hadmitted
      cases hadmitted
  obtain ⟨middle, call, rest', hsplit, hopen', hleaves'⟩ :
      ∃ middle call rest', rest ++ [.allowRequest now] = middle ++ call :: rest' ∧
        ((b.after first).after middle).state = .opened ∧
          (((b.after first).after middle).step call).state ≠ .opened :=
    exists_leaves (P := fun b : CircuitBreaker => b.state = .opened) hopen hleaves
  have hcalls : first ++ rest ++ .allowRequest now :: later =
      (first ++ middle) ++ call :: (rest' ++ later) := by
    calc first ++ rest ++ .allowRequest now :: later
        = first ++ (rest ++ [.allowRequest now]) ++ later := by simp
      _ = (first ++ middle) ++ call :: (rest' ++ later) := by rw [hsplit]; simp
  rw [← after_append] at hopen' hleaves'
  have hcall : Sound b (first ++ middle) (b.after (first ++ middle)) call := hsound _ _ _ hcalls
  have hwaited := waited_of_step hopen' hcall hleaves'
  rw [hcalls, List.map_append, List.pairwise_append] at hsorted
  rw [after_resetTimeout] at hwaited
  refine ⟨middle, call, rest', hsplit, fun failed hfailed => ?_⟩
  exact (add_le_add_left (failed_le hsorted.1 hfailed) _).trans hwaited

/-- While all calls are sound the breaker guards what it is to guard. -/
theorem guards_of_sound (failureThreshold : ℕ) (resetTimeout : ℚ) (calls : List BreakerCall)
    (hsorted : (calls.map BreakerCall.time).Pairwise (· ≤ ·))
    (hsound : Along step (new failureThreshold resetTimeout) (Sound (new failureThreshold resetTimeout))
      calls) : Guards (new failureThreshold resetTimeout) calls := by
  constructor
  case waits =>
    rintro before now later rfl hadmitted
    exact waitedUntil_of_sound hsorted hsound hadmitted
  case single =>
    intro before now later hcalls
    exact hsound before (.allowRequest now) later hcalls

/-- Two requests are out when a breaker of one failure opens: the late success of the second closes it
after a second, and of two requests after the timeout both are admitted. -/
theorem not_guards_one :
    ¬ Guards (new 1 60)
      [.allowRequest 0, .allowRequest 0, .recordFailure 1, .recordSuccess 2, .allowRequest 3] ∧
      ¬ Guards (new 1 60) [.allowRequest 0, .recordFailure 1, .allowRequest 61, .allowRequest 62] := by
  constructor
  · intro h
    obtain ⟨middle, call, later, hsplit, hwaited⟩ :=
      h.waits [.allowRequest 0, .allowRequest 0, .recordFailure 1, .recordSuccess 2] 3 [] rfl
        (by decide +kernel) [.allowRequest 0, .allowRequest 0, .recordFailure 1] [.recordSuccess 2] rfl
        (by decide +kernel)
    have hlate : call.time ≤ 3 := by
      have hmem : call ∈ [BreakerCall.recordSuccess 2, .allowRequest 3] := by
        change call ∈ [BreakerCall.recordSuccess 2] ++ [.allowRequest 3]
        simp [hsplit]
      rcases List.mem_pair.mp hmem with rfl | rfl <;> norm_num [BreakerCall.time]
    have := hwaited 1 (by simp)
    have htimeout : (new 1 60).resetTimeout = 60 := rfl
    linarith
  · intro h
    refine h.single [.allowRequest 0, .recordFailure 1, .allowRequest 61] 62 [] rfl ?_ ?_
    · rw [Probes]
      decide +kernel
    · refine ⟨[.allowRequest 0, .recordFailure 1], _, [], rfl, ⟨61, rfl, ?_⟩, by simp⟩
      rw [Probes]
      decide +kernel

/-- A breaker of one failure that opens, admits one request after a minute and closes with its success. -/
theorem guards_of_sound_one :
    Guards (new 1 60) [.allowRequest 0, .recordFailure 1, .allowRequest 61, .recordSuccess 62] := by
  refine guards_of_sound 1 60 _ (by decide +kernel) ?_
  simp only [along_cons, Sound]
  refine ⟨fun hprobes => ?_, trivial, fun _ => ?_, fun hopen => ?_, along_nil⟩
  · exact absurd hprobes (by rw [Probes]; decide +kernel)
  · have hfailed : ¬ (new 1 60).Outstanding ([.allowRequest 0] ++ [.recordFailure 1]) :=
      not_outstanding_of_isOutcome trivial
    exact hfailed
  · exact absurd hopen (by decide +kernel)

end CircuitBreaker
end PolyCortex.Retry
