import PolyCortex.Machine.History

/-!
# Circuit breakers

`CircuitBreaker`: it opens when the failures reach their threshold, is half open when `state` is read
after the recovery timeout, and then closes after enough successes. A success reads `state` twice, and
time may pass between the two. However reads, successes and failures interleave, the breaker recovers as
it is to (`recovers`).
-/

namespace PolyCortex

open Machine

inductive BreakerState where
  | closed
  | opened
  | halfOpen
  deriving DecidableEq, Repr

/-- What a breaker is made with. -/
structure BreakerSettings where
  failureThreshold : ℕ := 5
  recoveryTimeout : ℚ := 60
  successThreshold : ℕ := 2

/-- Times are seconds of the monotonic clock. -/
structure CircuitBreaker extends BreakerSettings where
  state : BreakerState := .closed
  failureCount : ℕ := 0
  successCount : ℕ := 0
  lastFailureTime : ℚ := 0

/-- What is called, with the clock readings it makes; the second one of a success is for its second read
of the state. -/
inductive BreakerEvent where
  | read (now : ℚ)
  | success (now later : ℚ)
  | failure (now : ℚ)

def BreakerEvent.times : BreakerEvent → List ℚ
  | .read now => [now]
  | .success now later => [now, later]
  | .failure now => [now]

namespace CircuitBreaker

/-- A new breaker. -/
def new (settings : BreakerSettings) : CircuitBreaker := { toBreakerSettings := settings }

/-- Reading `state`. -/
def readState (now : ℚ) (b : CircuitBreaker) : CircuitBreaker :=
  if b.state = .opened ∧ b.recoveryTimeout ≤ now - b.lastFailureTime then
    { b with state := .halfOpen, successCount := 0 }
  else b

/-- A success is counted in a half-open breaker, and closes it with enough others. -/
def countSuccess (b : CircuitBreaker) : CircuitBreaker :=
  let b := { b with successCount := b.successCount + 1 }
  if b.successThreshold ≤ b.successCount then { b with state := .closed, failureCount := 0 } else b

/-- `record_success`. -/
def recordSuccess (now later : ℚ) (b : CircuitBreaker) : CircuitBreaker :=
  let b := b.readState now
  if b.state = .halfOpen then b.countSuccess
  else
    let b := b.readState later
    if b.state = .closed then { b with failureCount := b.failureCount - 1 } else b

/-- `record_failure`. -/
def recordFailure (now : ℚ) (b : CircuitBreaker) : CircuitBreaker :=
  let b := { b with failureCount := b.failureCount + 1, lastFailureTime := now }
  if b.failureThreshold ≤ b.failureCount then { b with state := .opened } else b

def step (b : CircuitBreaker) : BreakerEvent → CircuitBreaker
  | .read now => b.readState now
  | .success now later => b.recordSuccess now later
  | .failure now => b.recordFailure now

/-- After some events. -/
def after (b : CircuitBreaker) (events : List BreakerEvent) : CircuitBreaker := run step b events

/-- A success that finds the breaker half open. -/
def counts (b : CircuitBreaker) : BreakerEvent → Bool
  | .success now _ => (b.readState now).state = .halfOpen
  | _ => false

/-- How many successes find the breaker half open. -/
def halfOpenSuccesses (b : CircuitBreaker) : List BreakerEvent → ℕ
  | [] => 0
  | event :: events => (b.counts event).toNat + halfOpenSuccesses (b.step event) events

/-- The breaker is open before some events, half open since, and none of them is a failure. -/
structure HalfOpenSince (b : CircuitBreaker) (during : List BreakerEvent) : Prop where
  opened : b.state = .opened
  halfOpen : ∀ event events, event :: events <+: during → (b.after (event :: events)).state = .halfOpen
  no_failure : ∀ now, .failure now ∉ during

/-- What is to hold of a breaker after some events and of the next one. -/
structure Recovers (b : CircuitBreaker) (events : List BreakerEvent) (event : BreakerEvent) : Prop where
  counts : (b.after events).state ≠ .closed → b.failureThreshold ≤ (b.after events).failureCount
  waits : (b.after events).state = .opened → (b.after (events ++ [event])).state ≠ .opened →
    ∃ now ∈ event.times, ∀ failed, .failure failed ∈ events → failed + b.recoveryTimeout ≤ now
  closes : (b.after events).state ≠ .closed → (b.after (events ++ [event])).state = .closed →
    ∃ before during, events = before ++ during ∧ (b.after before).HalfOpenSince during ∧
      (∀ now, event ≠ .failure now) ∧
      b.successThreshold ≤ (b.after before).halfOpenSuccesses (during ++ [event])
  reopens : (b.after events).state = .halfOpen → ∀ now, event = .failure now →
    (b.after (events ++ [event])).state = .opened

variable {b : CircuitBreaker} {event : BreakerEvent} {events during : List BreakerEvent} {now later : ℚ}

/-! ### What an event does -/

@[simp] lemma after_nil : b.after [] = b := rfl

lemma after_append : b.after (events ++ during) = (b.after events).after during := run_append _ _ _ _

@[simp] lemma after_concat : b.after (events ++ [event]) = (b.after events).step event :=
  run_concat _ _ _ _

lemma readState_of_elapsed (h : b.state = .opened)
    (helapsed : b.recoveryTimeout ≤ now - b.lastFailureTime) :
    b.readState now = { b with state := .halfOpen, successCount := 0 } := by
  rw [readState, if_pos ⟨h, helapsed⟩]

lemma readState_of_not (h : b.state = .opened → ¬ b.recoveryTimeout ≤ now - b.lastFailureTime) :
    b.readState now = b := by
  rw [readState, if_neg fun hboth => h hboth.1 hboth.2]

@[simp] lemma readState_settings : (b.readState now).toBreakerSettings = b.toBreakerSettings := by
  rw [readState]; split_ifs <;> rfl

@[simp] lemma readState_lastFailureTime : (b.readState now).lastFailureTime = b.lastFailureTime := by
  rw [readState]; split_ifs <;> rfl

@[simp] lemma readState_failureCount : (b.readState now).failureCount = b.failureCount := by
  rw [readState]; split_ifs <;> rfl

lemma recordSuccess_of_halfOpen (h : (b.readState now).state = .halfOpen) :
    b.recordSuccess now later = (b.readState now).countSuccess := by
  rw [recordSuccess]
  exact if_pos h

/-- A success that does not find the breaker half open has found it as it was. -/
lemma readState_of_ne (h : (b.readState now).state ≠ .halfOpen) : b.readState now = b := by
  rw [readState] at h ⊢
  split_ifs at h ⊢
  · exact absurd rfl h
  · rfl

lemma recordSuccess_of_ne (h : (b.readState now).state ≠ .halfOpen) :
    b.recordSuccess now later =
      if b.state = .closed then { b with failureCount := b.failureCount - 1 } else b.readState later := by
  have hfirst := readState_of_ne h
  rw [recordSuccess, if_neg h, hfirst]
  by_cases hclosed : b.state = .closed
  · have hread : b.readState later = b := readState_of_not fun hopen => by simp [hclosed] at hopen
    rw [hread, if_pos hclosed]
  · have hread : (b.readState later).state ≠ .closed := by
      rw [readState]
      split_ifs
      · simp
      · exact hclosed
    rw [if_neg hclosed]
    exact if_neg hread

lemma step_settings : (b.step event).toBreakerSettings = b.toBreakerSettings := by
  cases event with
  | read now => exact readState_settings
  | success now later =>
    rw [step]
    by_cases hfound : (b.readState now).state = .halfOpen
    · rw [recordSuccess_of_halfOpen hfound, countSuccess]
      dsimp only
      split_ifs <;> simp
    · rw [recordSuccess_of_ne hfound]
      split_ifs <;> simp
  | failure now =>
    rw [step, recordFailure]
    dsimp only
    split_ifs <;> rfl

/-- A breaker that is found half open was so, or has been open until now. -/
lemma ne_closed_of_found (h : (b.readState now).state = .halfOpen) : b.state ≠ .closed := by
  intro hclosed
  rw [readState_of_not fun hopen => by simp [hclosed] at hopen, hclosed] at h
  cases h

lemma successCount_of_found (h : (b.readState now).state = .halfOpen) :
    (b.readState now).successCount = if b.state = .halfOpen then b.successCount else 0 := by
  by_cases hread : b.state = .opened ∧ b.recoveryTimeout ≤ now - b.lastFailureTime
  · rw [readState_of_elapsed hread.1 hread.2, if_neg (by simp [hread.1])]
  · have hsame : b.readState now = b := if_neg hread
    rw [hsame] at h ⊢
    exact (if_pos h).symm

/-- The successes counted so far, with a read or a success that leaves the breaker half open. -/
lemma step_successCount (hevent : ∀ now, event ≠ .failure now) (hopen : b.state ≠ .closed)
    (hhalf : (b.step event).state = .halfOpen) :
    (b.step event).successCount =
      (if b.state = .halfOpen then b.successCount else 0) + (b.counts event).toNat := by
  cases event with
  | read now => exact successCount_of_found hhalf
  | success now later =>
    rw [step] at hhalf ⊢
    by_cases hfound : (b.readState now).state = .halfOpen
    · have hcount := successCount_of_found hfound
      rw [recordSuccess_of_halfOpen hfound, countSuccess] at hhalf ⊢
      dsimp only at hhalf ⊢
      rw [counts, decide_eq_true hfound, ← hcount]
      split_ifs at hhalf ⊢
      rfl
    · rw [recordSuccess_of_ne hfound, if_neg hopen] at hhalf ⊢
      rw [counts, decide_eq_false hfound]
      exact successCount_of_found hhalf
  | failure now => exact absurd rfl (hevent now)

/-- A breaker closes with a success that finds it half open, the last that it needs. -/
lemma step_closed (hopen : b.state ≠ .closed) (hclosed : (b.step event).state = .closed) :
    (∀ now, event ≠ .failure now) ∧ b.successThreshold ≤
      (if b.state = .halfOpen then b.successCount else 0) + (b.counts event).toNat := by
  cases event with
  | read now =>
    rw [step, readState] at hclosed
    split_ifs at hclosed
    exact absurd hclosed hopen
  | success now later =>
    refine ⟨nofun, ?_⟩
    rw [step] at hclosed
    by_cases hfound : (b.readState now).state = .halfOpen
    · rw [recordSuccess_of_halfOpen hfound, countSuccess] at hclosed
      dsimp only at hclosed
      split_ifs at hclosed with henough
      · rw [readState_settings, successCount_of_found hfound] at henough
        rw [counts, decide_eq_true hfound]
        exact henough
      · rw [hfound] at hclosed
        cases hclosed
    · rw [recordSuccess_of_ne hfound, if_neg hopen, readState] at hclosed
      split_ifs at hclosed
      exact absurd hclosed hopen
  | failure now =>
    rw [step, recordFailure] at hclosed
    dsimp only at hclosed
    split_ifs at hclosed
    exact absurd hclosed hopen

/-- A breaker that is open leaves this state by a read of the clock after the timeout. -/
lemma step_waits (hopen : b.state = .opened) (hleaves : (b.step event).state ≠ .opened) :
    ∃ now ∈ event.times, b.recoveryTimeout ≤ now - b.lastFailureTime := by
  by_contra hearly
  push Not at hearly
  have hread : ∀ now ∈ event.times, b.readState now = b := by
    intro now hnow
    exact readState_of_not fun _ => not_le.mpr (hearly now hnow)
  cases event with
  | read now =>
    rw [step, hread now (by simp [BreakerEvent.times])] at hleaves
    exact hleaves hopen
  | success now later =>
    have hnow := hread now (by simp [BreakerEvent.times])
    have hlater := hread later (by simp [BreakerEvent.times])
    rw [step, recordSuccess_of_ne (by simp [hnow, hopen]), if_neg (by simp [hopen]), hlater] at hleaves
    exact hleaves hopen
  | failure now =>
    rw [step, recordFailure] at hleaves
    dsimp only at hleaves
    split_ifs at hleaves
    · exact hleaves rfl
    · exact hleaves hopen

lemma step_lastFailureTime (hevent : ∀ now, event ≠ .failure now) :
    (b.step event).lastFailureTime = b.lastFailureTime := by
  cases event with
  | read now => exact readState_lastFailureTime
  | success now later =>
    rw [step]
    by_cases hfound : (b.readState now).state = .halfOpen
    · rw [recordSuccess_of_halfOpen hfound, countSuccess]
      dsimp only
      split_ifs <;> simp
    · rw [recordSuccess_of_ne hfound]
      split_ifs <;> simp
  | failure now => exact absurd rfl (hevent now)

lemma failure_lastFailureTime : (b.step (.failure now)).lastFailureTime = now := by
  rw [step, recordFailure]
  dsimp only
  split_ifs <;> rfl

/-- The failures of a breaker that is not closed have reached the threshold. -/
lemma step_failureCount (hcounts : b.state ≠ .closed → b.failureThreshold ≤ b.failureCount)
    (hopen : (b.step event).state ≠ .closed) : b.failureThreshold ≤ (b.step event).failureCount := by
  cases event with
  | read now =>
    rw [step] at hopen ⊢
    rw [readState_failureCount]
    refine hcounts fun hclosed => hopen ?_
    rw [readState_of_not fun h => by simp [hclosed] at h, hclosed]
  | success now later =>
    rw [step] at hopen ⊢
    by_cases hfound : (b.readState now).state = .halfOpen
    · rw [recordSuccess_of_halfOpen hfound, countSuccess] at hopen ⊢
      dsimp only at hopen ⊢
      split_ifs at hopen ⊢
      · exact absurd rfl hopen
      · simpa using hcounts (ne_closed_of_found hfound)
    · rw [recordSuccess_of_ne hfound] at hopen ⊢
      split_ifs at hopen ⊢ with hclosed
      · exact absurd hclosed hopen
      · simpa using hcounts hclosed
  | failure now =>
    rw [step, recordFailure] at hopen ⊢
    dsimp only at hopen ⊢
    split_ifs at hopen ⊢ with hreached
    · exact hreached
    · exact (hcounts hopen).trans (Nat.le_succ _)

/-- A failure in a breaker that is not closed opens it. -/
lemma step_failure (hcounts : b.state ≠ .closed → b.failureThreshold ≤ b.failureCount)
    (hopen : b.state ≠ .closed) : (b.step (.failure now)).state = .opened := by
  rw [step, recordFailure]
  exact congrArg _ (if_pos ((hcounts hopen).trans (Nat.le_succ _)))

lemma step_halfOpen (hcounts : b.state ≠ .closed → b.failureThreshold ≤ b.failureCount)
    (hhalf : (b.step event).state = .halfOpen) :
    b.state ≠ .closed ∧ ∀ now, event ≠ .failure now := by
  have hopen : b.state ≠ .closed := by
    intro hclosed
    have hread : ∀ now, b.readState now = b := fun now =>
      readState_of_not fun hopen => by simp [hclosed] at hopen
    cases event with
    | read now => simp [step, hread, hclosed] at hhalf
    | success now later =>
      rw [step, recordSuccess_of_ne (by simp [hread, hclosed]), if_pos hclosed] at hhalf
      simp [hclosed] at hhalf
    | failure now =>
      rw [step, recordFailure] at hhalf
      dsimp only at hhalf
      split_ifs at hhalf
      simp [hclosed] at hhalf
  refine ⟨hopen, fun now hevent => ?_⟩
  rw [hevent, step_failure hcounts hopen] at hhalf
  cases hhalf

/-! ### Runs -/

@[simp] lemma halfOpenSuccesses_concat (b : CircuitBreaker) (events : List BreakerEvent)
    (event : BreakerEvent) : b.halfOpenSuccesses (events ++ [event]) =
      b.halfOpenSuccesses events + ((b.after events).counts event).toNat := by
  induction events generalizing b with
  | nil => simp [halfOpenSuccesses]
  | cons first events ih =>
    rw [List.cons_append, halfOpenSuccesses, halfOpenSuccesses, ih, Nat.add_assoc]
    rfl

/-- A breaker that is half open stays so with an event that is no failure and leaves it so. -/
lemma HalfOpenSince.concat (h : b.HalfOpenSince during) (hevent : ∀ now, event ≠ .failure now)
    (hhalf : (b.after (during ++ [event])).state = .halfOpen) : b.HalfOpenSince (during ++ [event]) := by
  refine ⟨h.opened, fun first rest hprefix => ?_, fun now hmem => ?_⟩
  · rcases List.prefix_concat_iff.mp hprefix with heq | hbefore
    · rw [heq]
      exact hhalf
    · exact h.halfOpen first rest hbefore
  · rcases List.mem_append.mp hmem with hduring | hlast
    · exact h.no_failure now hduring
    · exact hevent now (List.mem_singleton.mp hlast).symm

lemma HalfOpenSince.nil (h : b.state = .opened) : b.HalfOpenSince [] :=
  ⟨h, fun _ _ hprefix => by simp at hprefix, by simp⟩

/-- What the events so far say of a breaker. -/
structure Consistent (b₀ : CircuitBreaker) (events : List BreakerEvent) (b : CircuitBreaker) : Prop where
  after : b = b₀.after events
  settings : b.toBreakerSettings = b₀.toBreakerSettings
  counts : b.state ≠ .closed → b.failureThreshold ≤ b.failureCount
  halfOpen : b.state = .halfOpen →
    ∃ before during, events = before ++ during ∧ (b₀.after before).HalfOpenSince during ∧
      b.successCount = (b₀.after before).halfOpenSuccesses during

/-- An event that is no failure, in a breaker that is not closed: since when it is half open, and how many
successes have been counted. -/
lemma Consistent.since {b₀ : CircuitBreaker} (h : Consistent b₀ events b) (hopen : b.state ≠ .closed) :
    ∃ before during, events = before ++ during ∧ (b₀.after before).HalfOpenSince during ∧
      (if b.state = .halfOpen then b.successCount else 0) = (b₀.after before).halfOpenSuccesses during := by
  cases hstate : b.state with
  | closed => exact absurd hstate hopen
  | opened =>
    refine ⟨events, [], (List.append_nil _).symm, HalfOpenSince.nil (h.after ▸ hstate), ?_⟩
    simp [halfOpenSuccesses]
  | halfOpen =>
    obtain ⟨before, during, hsplit, hsince, hcount⟩ := h.halfOpen hstate
    exact ⟨before, during, hsplit, hsince, by rw [if_pos rfl, hcount]⟩

lemma Consistent.step {b₀ : CircuitBreaker} (h : Consistent b₀ events b) (event : BreakerEvent) :
    Consistent b₀ (events ++ [event]) (b.step event) := by
  have hafter : b.step event = b₀.after (events ++ [event]) := by rw [after_concat, ← h.after]
  refine ⟨hafter, step_settings.trans h.settings, fun hopen => ?_, fun hhalf => ?_⟩
  · rw [step_settings]
    exact step_failureCount h.counts hopen
  · obtain ⟨hopen, hevent⟩ := step_halfOpen h.counts hhalf
    obtain ⟨before, during, hsplit, hsince, hcount⟩ := h.since hopen
    have hbefore : (b₀.after before).after during = b := by rw [← after_append, ← hsplit, h.after]
    refine ⟨before, during ++ [event], by simp [hsplit], hsince.concat hevent ?_, ?_⟩
    · rw [after_concat, hbefore]
      exact hhalf
    · rw [step_successCount hevent hopen hhalf, hcount, halfOpenSuccesses_concat, hbefore]

lemma consistent (settings : BreakerSettings) (events : List BreakerEvent) :
    Consistent (new settings) events ((new settings).after events) := by
  apply run_history
  · exact ⟨rfl, rfl, fun h => absurd rfl h, nofun⟩
  · exact fun _ _ event h => h.step event

/-- At times that do not decrease no failure is later than the last one. -/
lemma failed_le (hsorted : (events.flatMap BreakerEvent.times).Pairwise (· ≤ ·)) {failed : ℚ}
    (hfailed : .failure failed ∈ events) : failed ≤ (b.after events).lastFailureTime := by
  apply le_last (fun _ _ h => BreakerEvent.failure.inj h) (fun _ _ => failure_lastFailureTime)
    (fun _ _ h => step_lastFailureTime h) ?_ hfailed
  refine (List.pairwise_flatMap.mp hsorted).2.imp fun {event later} hle now now' hnow hnow' => ?_
  subst hnow hnow'
  exact hle now (List.mem_singleton_self _) now' (List.mem_singleton_self _)

/-- The breaker opens and recovers as it is to: it is not closed before the failures have reached their
threshold, does not leave OPEN before the timeout, closes after enough successes in HALF_OPEN, and a
failure there opens it again. -/
theorem recovers (settings : BreakerSettings) (events : List BreakerEvent) (event : BreakerEvent)
    (hsorted : ((events ++ [event]).flatMap BreakerEvent.times).Pairwise (· ≤ ·)) :
    Recovers (new settings) events event := by
  have h := consistent settings events
  have hsettings := h.settings
  constructor
  case counts =>
    intro hopen
    have hcounts := h.counts hopen
    rwa [hsettings] at hcounts
  case waits =>
    intro hopen hleaves
    rw [after_concat] at hleaves
    obtain ⟨now, hnow, helapsed⟩ := step_waits hopen hleaves
    rw [hsettings] at helapsed
    refine ⟨now, hnow, fun failed hfailed => ?_⟩
    rw [List.flatMap_append, List.pairwise_append] at hsorted
    have hle : failed ≤ ((new settings).after events).lastFailureTime := failed_le hsorted.1 hfailed
    linarith
  case closes =>
    intro hopen hclosed
    rw [after_concat] at hclosed
    obtain ⟨hevent, henough⟩ := step_closed hopen hclosed
    obtain ⟨before, during, hsplit, hsince, hcount⟩ := h.since hopen
    have hbefore : ((new settings).after before).after during = (new settings).after events := by
      rw [← after_append, ← hsplit]
    refine ⟨before, during, hsplit, hsince, hevent, ?_⟩
    rwa [halfOpenSuccesses_concat, hbefore, ← hcount, ← hsettings]
  case reopens =>
    rintro hhalf now rfl
    rw [after_concat]
    exact step_failure h.counts (by simp [hhalf])

/-- A breaker that opens, is half open after a minute and closes with its second success. -/
theorem recovers_minute :
    Recovers (new { failureThreshold := 1 }) [.failure 1, .read 61, .success 62 62] (.success 63 63) :=
  recovers { failureThreshold := 1 } _ _ (by decide +kernel)

end CircuitBreaker
end PolyCortex
