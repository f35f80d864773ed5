import PolyCortex.Data.Persisted

/-!
# Retries

`with_retry` calls a function until it returns, raises an error that is not to be retried, or has been
called once more than the number of retries; between calls it sleeps, twice as long each time and for at
most the maximal delay, and then scales the delay by a random factor of up to 1.5. So a sleep may last
longer than the maximum (`retry_contract_iff`). The base delay is a float, and so becomes the power of
two that it is multiplied with: from the 1024th power on this raises. There is no circuit breaker.
-/

namespace PolyCortex

open PersistedValue (floatOverflow)

/-- What a call of the wrapped function does. -/
inductive CallOutcome (α ε : Type) where
  | returned (value : α)
  | raised (exc : ε)

inductive RetryAction where
  | call
  | sleep (delay : ℚ)
  deriving DecidableEq, Repr

/-- How the wrapper ends: as the function does, by an error of its own, or with its retries used up. -/
inductive RetryResult (α ε : Type) where
  | returned (value : α)
  | raised (exc : ε)
  | failed (e : PyError)
  | retryExhausted (attempts : ℕ) (lastError : Option ε)

structure RetryRun (α ε : Type) where
  actions : List RetryAction
  result : RetryResult α ε

/-- The parameters of the decorator; the error types to retry on are a predicate. -/
structure RetryPolicy (ε : Type) where
  maxRetries : ℕ := 3
  baseDelay : ℚ := 1
  maxDelay : ℚ := 30
  jitter : Bool := true
  retryOn : ε → Bool := fun _ => true

/-- A call, and the sleep after it before the rest, unless its delay has raised. -/
def RetryRun.afterSleep {α ε : Type} (run : RetryRun α ε) : Except PyError ℚ → RetryRun α ε
  | .ok delay => { run with actions := [.call, .sleep delay] ++ run.actions }
  | .error e => ⟨[.call], .failed e⟩

/-- How often the function is called. -/
def RetryRun.calls {α ε : Type} (run : RetryRun α ε) : ℕ := run.actions.count .call

namespace RetryPolicy

variable {α ε : Type} (policy : RetryPolicy ε) (outcomes : ℕ → CallOutcome α ε) (draws : ℕ → ℚ)

/-- The delay after an attempt, with what `random.random()` gives. -/
def delay (attempt : ℕ) : Except PyError ℚ :=
  if (2 : ℤ) ^ attempt < floatOverflow then
    let delay := min (policy.baseDelay * 2 ^ attempt) policy.maxDelay
    .ok (if policy.jitter then delay * (1 / 2 + draws attempt) else delay)
  else .error .overflowError

/-- The loop over the attempts. -/
def attempts : List ℕ → Option ε → RetryRun α ε
  | [], lastExc => ⟨[], .retryExhausted (policy.maxRetries + 1) lastExc⟩
  | attempt :: rest, _ =>
    match outcomes attempt with
    | .returned value => ⟨[.call], .returned value⟩
    | .raised exc =>
      if policy.retryOn exc then
        if policy.maxRetries ≤ attempt then
          ⟨[.call], .retryExhausted (policy.maxRetries + 1) (some exc)⟩
        else (attempts rest (some exc)).afterSleep (policy.delay draws attempt)
      else ⟨[.call], .raised exc⟩

/-- `with_retry`: a call of the decorated function. -/
def wrapper : RetryRun α ε :=
  policy.attempts outcomes draws (List.range (policy.maxRetries + 1)) none

/-! ### What a retry is to do -/

/-- A call raises an error to retry on. -/
def Retries (outcome : CallOutcome α ε) : Prop :=
  ∃ exc, outcome = .raised exc ∧ policy.retryOn exc = true

/-- The outcome of a call is that of the wrapper. -/
def settled : CallOutcome α ε → RetryResult α ε
  | .returned value => .returned value
  | .raised exc => .raised exc

/-- The function is called up to the first call that does not raise an error to retry on, and its outcome
is that of the wrapper; else it is called as often as it may be, and the last error is reported. -/
structure Contract (run : RetryRun α ε) : Prop where
  settles : ∀ k ≤ policy.maxRetries, (∀ i < k, policy.Retries (outcomes i)) →
    ¬ policy.Retries (outcomes k) → run.calls = k + 1 ∧ run.result = settled (outcomes k)
  exhausts : (∀ i ≤ policy.maxRetries, policy.Retries (outcomes i)) →
    run.calls = policy.maxRetries + 1 ∧ ∃ exc, outcomes policy.maxRetries = .raised exc ∧
      run.result = .retryExhausted (policy.maxRetries + 1) (some exc)
  sleeps : ∀ delay, .sleep delay ∈ run.actions → delay ≤ policy.maxDelay

/-- The random factor does not lift the delay after an attempt above the maximum. -/
def Within (attempt : ℕ) : Prop :=
  policy.maxDelay = 0 ∨ policy.jitter = false ∨ draws attempt ≤ 1 / 2 ∨
    policy.baseDelay * 2 ^ attempt * (1 / 2 + draws attempt) ≤ policy.maxDelay

/-! ### The call that ends the loop -/

/-- The attempt at which the loop ends. -/
structure EndsAt (k : ℕ) : Prop where
  retries : ∀ i < k, policy.Retries (outcomes i)
  le_maxRetries : k ≤ policy.maxRetries
  le_power : k ≤ 1024
  ends : ¬ policy.Retries (outcomes k) ∨ k = policy.maxRetries ∨ k = 1024

/-- The delay after an attempt that has one. -/
def delayAt (attempt : ℕ) : ℚ :=
  if policy.jitter then min (policy.baseDelay * 2 ^ attempt) policy.maxDelay * (1 / 2 + draws attempt)
  else min (policy.baseDelay * 2 ^ attempt) policy.maxDelay

/-- How the loop ends at an attempt. -/
def resultAt (k : ℕ) : RetryResult α ε :=
  match outcomes k with
  | .returned value => .returned value
  | .raised exc =>
    if policy.retryOn exc then
      if policy.maxRetries ≤ k then .retryExhausted (policy.maxRetries + 1) (some exc)
      else .failed .overflowError
    else .raised exc

variable {policy outcomes draws} {k : ℕ}

lemma two_pow_lt_floatOverflow_iff : (2 : ℤ) ^ k < floatOverflow ↔ k < 1024 := by
  constructor
  · intro h
    have hlt : floatOverflow < 2 ^ 1024 := sub_lt_self _ (by positivity)
    exact (pow_lt_pow_iff_right₀ one_lt_two).mp (h.trans hlt)
  · intro hk
    have hpow : (2 : ℤ) ^ k ≤ 2 ^ 1023 := pow_le_pow_right₀ one_le_two (Nat.le_of_lt_succ hk)
    have hlt : (2 : ℤ) ^ 970 < 2 ^ 1023 := pow_lt_pow_right₀ one_lt_two (by norm_num)
    have hsucc : (2 : ℤ) ^ 1024 = 2 ^ 1023 + 2 ^ 1023 := by rw [← two_mul, ← pow_succ']
    rw [floatOverflow, hsucc, lt_sub_iff_add_lt]
    exact add_lt_add_of_le_of_lt hpow hlt

lemma delay_of_lt (hk : k < 1024) : policy.delay draws k = .ok (policy.delayAt draws k) := by
  rw [delay, if_pos (two_pow_lt_floatOverflow_iff.mpr hk), delayAt]

lemma delay_of_le (hk : 1024 ≤ k) : policy.delay draws k = .error .overflowError := by
  rw [delay, if_neg (fun h => absurd (two_pow_lt_floatOverflow_iff.mp h) (not_lt.mpr hk))]

lemma exists_endsAt (policy : RetryPolicy ε) (outcomes : ℕ → CallOutcome α ε) :
    ∃ k, policy.EndsAt outcomes k := by
  classical
  have hexists : ∃ k, ¬ policy.Retries (outcomes k) ∨ k = policy.maxRetries ∨ k = 1024 :=
    ⟨1024, Or.inr (Or.inr rfl)⟩
  have hbefore : ∀ i < Nat.find hexists, policy.Retries (outcomes i) := by
    intro i hi
    exact not_not.mp (not_or.mp (Nat.find_min hexists hi)).1
  refine ⟨Nat.find hexists, hbefore, ?_, ?_, Nat.find_spec hexists⟩
  · exact Nat.find_min' hexists (Or.inr (Or.inl rfl))
  · exact Nat.find_min' hexists (Or.inr (Or.inr rfl))

/-- A call that is retried, with the sleep after it. -/
lemma attempts_of_retries (draws : ℕ → ℚ) (rest : List ℕ) (lastExc : Option ε)
    (h : policy.Retries (outcomes k))
    (hmax : k < policy.maxRetries) (hpower : k < 1024) :
    ∃ exc, policy.attempts outcomes draws (k :: rest) lastExc =
      (policy.attempts outcomes draws rest (some exc)).afterSleep (.ok (policy.delayAt draws k)) := by
  obtain ⟨exc, hraised, hretry⟩ := h
  refine ⟨exc, ?_⟩
  rw [attempts, hraised]
  dsimp only
  rw [if_pos hretry, if_neg (not_le.mpr hmax), delay_of_lt hpower]

/-- The call that ends the loop. -/
lemma attempts_of_ends {rest : List ℕ} {lastExc : Option ε} (h : policy.EndsAt outcomes k) :
    policy.attempts outcomes draws (k :: rest) lastExc = ⟨[.call], policy.resultAt outcomes k⟩ := by
  rw [attempts, resultAt]
  cases houtcome : outcomes k with
  | returned value => rfl
  | raised exc =>
    dsimp only
    split_ifs with hretry hmax
    · rfl
    · have hpower : k = 1024 := by
        rcases h.ends with hnot | hmax' | hpower
        · exact absurd ⟨exc, houtcome, hretry⟩ hnot
        · exact absurd hmax'.ge hmax
        · exact hpower
      rw [delay_of_le hpower.ge]
      rfl
    · rfl

/-- The loop from an attempt on: calls that are retried, each with its sleep, and the one that ends it. -/
lemma attempts_eq (h : policy.EndsAt outcomes k) (m i : ℕ) (hi : i + m = k) (lastExc : Option ε) :
    policy.attempts outcomes draws (List.range' i (policy.maxRetries + 1 - i)) lastExc =
      ⟨(List.range' i m).flatMap (fun i => [.call, .sleep (policy.delayAt draws i)]) ++ [.call],
        policy.resultAt outcomes k⟩ := by
  have hle := h.le_maxRetries
  have hpower := h.le_power
  have hrange : policy.maxRetries + 1 - i = policy.maxRetries + 1 - (i + 1) + 1 := by omega
  induction m generalizing i lastExc with
  | zero =>
    obtain rfl : i = k := hi
    rw [hrange, List.range'_succ, attempts_of_ends h]
    rfl
  | succ m ih =>
    rw [hrange, List.range'_succ, List.range'_succ]
    obtain ⟨exc, hattempt⟩ := attempts_of_retries draws
      (List.range' (i + 1) (policy.maxRetries + 1 - (i + 1))) lastExc
      (h.retries i (by omega)) (by omega) (by omega)
    rw [hattempt, ih (i + 1) (by omega) (some exc) (by omega)]
    rfl

lemma wrapper_eq (h : policy.EndsAt outcomes k) :
    policy.wrapper outcomes draws =
      ⟨(List.range k).flatMap (fun i => [.call, .sleep (policy.delayAt draws i)]) ++ [.call],
        policy.resultAt outcomes k⟩ := by
  rw [wrapper, List.range_eq_range', List.range_eq_range']
  exact attempts_eq h k 0 (Nat.zero_add k) none

lemma calls_of_endsAt (h : policy.EndsAt outcomes k) : (policy.wrapper outcomes draws).calls = k + 1 := by
  rw [wrapper_eq h, RetryRun.calls, List.count_append, List.count_flatMap]
  simp [Function.comp_def]

lemma sleep_mem_iff (h : policy.EndsAt outcomes k) {delay : ℚ} :
    RetryAction.sleep delay ∈ (policy.wrapper outcomes draws).actions ↔
      ∃ i < k, delay = policy.delayAt draws i := by
  rw [wrapper_eq h]
  simp

/-! ### The contract -/

/-- A delay stays within the maximum, unless the random factor lifts it above. -/
lemma delayAt_le_iff (hbase : 0 ≤ policy.baseDelay) (hmax : 0 ≤ policy.maxDelay) (k : ℕ) :
    policy.delayAt draws k ≤ policy.maxDelay ↔ policy.Within draws k := by
  set b := policy.baseDelay * 2 ^ k with hb
  have hb0 : 0 ≤ b := by positivity
  rw [delayAt, Within, ← hb]
  cases hjitter : policy.jitter with
  | false => simp
  | true =>
    simp only [if_true, Bool.true_eq_false, false_or]
    rcases le_or_gt (draws k) (1 / 2) with hdraw | hdraw
    · refine iff_of_true ?_ (Or.inr (Or.inl hdraw))
      calc min b policy.maxDelay * (1 / 2 + draws k)
          ≤ min b policy.maxDelay * 1 :=
            mul_le_mul_of_nonneg_left (by linarith) (le_min hb0 hmax)
        _ ≤ policy.maxDelay := by rw [mul_one]; exact min_le_right _ _
    · have hfactor : 1 < 1 / 2 + draws k := by linarith
      rw [or_iff_right (not_le.mpr hdraw)]
      rcases le_or_gt b policy.maxDelay with hle | hlt
      · rw [min_eq_left hle, or_iff_right_of_imp]
        intro hzero
        have hb' : b = 0 := le_antisymm (hzero ▸ hle) hb0
        rw [hb', zero_mul]
        exact hmax
      · rw [min_eq_right hlt.le, or_iff_left_of_imp]
        · constructor
          · intro h
            nlinarith
          · intro h
            rw [h, zero_mul]
        · intro h
          nlinarith

/-- Unless the power of two is too large, the loop ends with a call that is not retried or the last. -/
lemma EndsAt.ends_of_power (h : policy.EndsAt outcomes k)
    (hpower : policy.maxRetries ≤ 1024 ∨ ∃ i ≤ 1024, ¬ policy.Retries (outcomes i)) :
    ¬ policy.Retries (outcomes k) ∨ k = policy.maxRetries := by
  rcases h.ends with hnot | hlast | rfl
  · exact Or.inl hnot
  · exact Or.inr hlast
  · rcases hpower with hle | ⟨i, hi, hnot⟩
    · exact Or.inr (le_antisymm h.le_maxRetries hle)
    · rcases hi.lt_or_eq with hlt | rfl
      · exact absurd (h.retries i hlt) hnot
      · exact Or.inl hnot

/-- The contract with the first of the calls that is not retried, or that is the last one. -/
lemma contract_of_ends (h : policy.EndsAt outcomes k)
    (hends : ¬ policy.Retries (outcomes k) ∨ k = policy.maxRetries)
    (hsleeps : ∀ i < k, policy.delayAt draws i ≤ policy.maxDelay) :
    policy.Contract outcomes (policy.wrapper outcomes draws) := by
  have hresult : (policy.wrapper outcomes draws).result = policy.resultAt outcomes k := by
    rw [wrapper_eq h]
  constructor
  case settles =>
    intro k' hk' hretries hnot
    obtain rfl : k' = k := by
      rcases lt_trichotomy k' k with hlt | heq | hlt
      · exact absurd (h.retries k' hlt) hnot
      · exact heq
      · rcases hends with hnot' | rfl
        · exact absurd (hretries k hlt) hnot'
        · exact absurd hk' (not_le.mpr hlt)
    refine ⟨calls_of_endsAt h, hresult.trans ?_⟩
    rw [resultAt]
    cases houtcome : outcomes k' with
    | returned value => rfl
    | raised exc => exact if_neg fun hretry => hnot ⟨exc, houtcome, hretry⟩
  case exhausts =>
    intro hretries
    obtain rfl : k = policy.maxRetries := by
      rcases hends with hnot | hlast
      · exact absurd (hretries k h.le_maxRetries) hnot
      · exact hlast
    obtain ⟨exc, hraised, hretry⟩ := hretries _ le_rfl
    refine ⟨calls_of_endsAt h, exc, hraised, hresult.trans ?_⟩
    rw [resultAt, hraised]
    simp [hretry]
  case sleeps =>
    intro delay hdelay
    obtain ⟨i, hi, rfl⟩ := (sleep_mem_iff h).mp hdelay
    exact hsleeps i hi

/-- A loop that ends with a power of two that is too large has not made the calls it is to make. -/
lemma Contract.power (h : policy.Contract outcomes (policy.wrapper outcomes draws)) :
    policy.maxRetries ≤ 1024 ∨ ∃ i ≤ 1024, ¬ policy.Retries (outcomes i) := by
  classical
  by_contra hpower
  push Not at hpower
  obtain ⟨hmax, hretries⟩ := hpower
  have hends : policy.EndsAt outcomes 1024 :=
    ⟨fun i hi => hretries i hi.le, hmax.le, le_rfl, Or.inr (Or.inr rfl)⟩
  have hcalls : (policy.wrapper outcomes draws).calls = 1024 + 1 := calls_of_endsAt hends
  by_cases hall : ∀ i ≤ policy.maxRetries, policy.Retries (outcomes i)
  · have := (h.exhausts hall).1
    omega
  · push Not at hall
    have hleast := Nat.find_spec hall
    have hbefore : ∀ i < Nat.find hall, policy.Retries (outcomes i) := by
      intro i hi
      by_contra hnot
      exact Nat.find_min hall hi ⟨(hi.le.trans hleast.1), hnot⟩
    have hlate : 1024 < Nat.find hall := by
      by_contra hle
      exact hleast.2 (hretries _ (not_lt.mp hle))
    have := (h.settles _ hleast.1 hbefore hleast.2).1
    omega

/-- One retry after half a minute, which is also the longest that a sleep may last. -/
def halfMinute : RetryPolicy Unit := { maxRetries := 1, baseDelay := 30 }

end RetryPolicy
end PolyCortex
