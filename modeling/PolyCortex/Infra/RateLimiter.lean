import Mathlib.Algebra.Order.Field.Rat
import Mathlib.Data.Rat.Floor
import Mathlib.Tactic

/-!
# The rate limiter

`TokenBucketRateLimiter`: a call of `acquire` takes a token, or sleeps until there is one. The lock
serializes the calls, so a run is the list of the times at which the calls get the lock.
-/

namespace PolyCortex

structure TokenBucketRateLimiter where
  rate : ℚ
  burst : ℚ
  tokens : ℚ
  lastRefill : ℚ
  deriving DecidableEq, Repr

namespace TokenBucketRateLimiter

/-- `__init__`. -/
def init (requestsPerMinute : ℚ) (burst : Option ℚ) (now : ℚ) : TokenBucketRateLimiter where
  rate := requestsPerMinute / 60
  burst := burst.getD requestsPerMinute
  tokens := burst.getD requestsPerMinute
  lastRefill := now

/-- The tokens after the refill. -/
def refilled (now : ℚ) (l : TokenBucketRateLimiter) : ℚ :=
  min l.burst (l.tokens + (now - l.lastRefill) * l.rate)

/-- `acquire`, by a call that gets the lock at `now`: when it returns, and the limiter then. -/
def acquire (now : ℚ) (l : TokenBucketRateLimiter) : ℚ × TokenBucketRateLimiter :=
  let l := { l with tokens := l.refilled now, lastRefill := now }
  if l.tokens < 1 then (now + (1 - l.tokens) / l.rate, { l with tokens := 0 })
  else (now, { l with tokens := l.tokens - 1 })

/-- The times at which the calls return. -/
def completions (l : TokenBucketRateLimiter) : List ℚ → List ℚ
  | [] => []
  | now :: starts => (l.acquire now).1 :: completions (l.acquire now).2 starts

/-- No call gets the lock before the one before it has returned. -/
def Serialized (free : ℚ) (l : TokenBucketRateLimiter) : List ℚ → Prop
  | [] => True
  | now :: starts => free ≤ now ∧ Serialized (l.acquire now).1 (l.acquire now).2 starts

/-- After a call that slept, the next one starts only when the bucket would have filled up since. -/
def Unhurried (free : ℚ) (l : TokenBucketRateLimiter) : List ℚ → Prop
  | [] => True
  | now :: starts =>
    (free = l.lastRefill ∨ l.burst ≤ (now - free) * l.rate) ∧
      Unhurried (l.acquire now).1 (l.acquire now).2 starts

instance decidableSerialized : ∀ free l starts, Decidable (Serialized free l starts)
  | _, _, [] => .isTrue trivial
  | _, l, now :: starts =>
    have := decidableSerialized (l.acquire now).1 (l.acquire now).2 starts
    inferInstanceAs (Decidable (_ ∧ _))

instance decidableUnhurried : ∀ free l starts, Decidable (Unhurried free l starts)
  | _, _, [] => .isTrue trivial
  | _, l, now :: starts =>
    have := decidableUnhurried (l.acquire now).1 (l.acquire now).2 starts
    inferInstanceAs (Decidable (_ ∧ _))

variable {l : TokenBucketRateLimiter} {free now : ℚ} {starts : List ℚ}

@[simp] lemma acquire_rate : (l.acquire now).2.rate = l.rate := by
  rw [acquire]
  dsimp only
  split_ifs <;> rfl

@[simp] lemma acquire_burst : (l.acquire now).2.burst = l.burst := by
  rw [acquire]
  dsimp only
  split_ifs <;> rfl

/-- What a call does: it sleeps for the rest of a token, or takes one. -/
lemma acquire_cases (now : ℚ) (l : TokenBucketRateLimiter) :
    (l.refilled now < 1 ∧ (l.acquire now).1 = now + (1 - l.refilled now) / l.rate ∧
      (l.acquire now).2.tokens = 0) ∨
    (1 ≤ l.refilled now ∧ (l.acquire now).1 = now ∧ (l.acquire now).2.tokens = l.refilled now - 1) := by
  rw [acquire]
  dsimp only
  split_ifs with hfew
  · exact Or.inl ⟨hfew, rfl, rfl⟩
  · exact Or.inr ⟨not_lt.mp hfew, rfl, rfl⟩

lemma le_acquire (hrate : 0 < l.rate) : now ≤ (l.acquire now).1 := by
  obtain ⟨hfew, hdone, -⟩ | ⟨-, hdone, -⟩ := acquire_cases now l
  · rw [hdone]
    have : 0 ≤ (1 - l.refilled now) / l.rate := div_nonneg (by linarith) hrate.le
    linarith
  · exact hdone.ge

/-- The refill credits no more than the time since the last call returned exactly when there is nothing
to credit twice, or when the bucket is full either way. -/
lemma refilled_eq_iff (hrate : 0 < l.rate) (hslept : l.lastRefill ≤ free) (htokens : l.tokens = 0) :
    l.refilled now = min l.burst ((now - free) * l.rate) ↔
      free = l.lastRefill ∨ l.burst ≤ (now - free) * l.rate := by
  rw [refilled, htokens, zero_add]
  have hle : (now - free) * l.rate ≤ (now - l.lastRefill) * l.rate :=
    mul_le_mul_of_nonneg_right (by linarith) hrate.le
  constructor
  · intro heq
    by_contra! h
    have hlt : (now - free) * l.rate < (now - l.lastRefill) * l.rate :=
      mul_lt_mul_of_pos_right (by linarith [lt_of_le_of_ne hslept h.1.symm]) hrate
    rw [min_eq_right h.2.le] at heq
    rcases min_choice l.burst ((now - l.lastRefill) * l.rate) with hmin | hmin
    · linarith
    · linarith
  · rintro (rfl | hfull)
    · rfl
    · rw [min_eq_left hfull, min_eq_left (hfull.trans hle)]

/-- The bucket between two calls: the last one returned at `free`. -/
structure Balanced (free : ℚ) (l : TokenBucketRateLimiter) : Prop where
  rate_pos : 0 < l.rate
  one_le_burst : 1 ≤ l.burst
  nonneg : 0 ≤ l.tokens
  le_burst : l.tokens ≤ l.burst
  slept : free = l.lastRefill ∨ l.tokens = 0

/-- A call takes a token from what time has brought since the last one. -/
lemma Balanced.tokens_le (h : l.Balanced free)
    (hunhurried : free = l.lastRefill ∨ l.burst ≤ (now - free) * l.rate) :
    (l.acquire now).2.tokens ≤ l.tokens + ((l.acquire now).1 - free) * l.rate - 1 := by
  have hrefilled : l.refilled now ≤ l.tokens + (now - free) * l.rate := by
    rcases hunhurried with rfl | hfull
    · exact min_le_right _ _
    · have := min_le_left l.burst (l.tokens + (now - l.lastRefill) * l.rate)
      have := h.nonneg
      rw [refilled]
      linarith
  obtain ⟨-, hdone, htokens⟩ | ⟨-, hdone, htokens⟩ := acquire_cases now l
  · have hwait : (now + (1 - l.refilled now) / l.rate - free) * l.rate =
        (now - free) * l.rate + (1 - l.refilled now) := by
      have := h.rate_pos.ne'
      field_simp
      ring
    rw [htokens, hdone, hwait]
    linarith
  · rw [htokens, hdone]
    linarith

lemma Balanced.acquire (h : l.Balanced free) :
    (l.acquire now).2.Balanced (l.acquire now).1 ∧ (l.acquire now).2.tokens ≤ l.burst - 1 := by
  have := h.one_le_burst
  obtain ⟨-, hdone, htokens⟩ | ⟨henough, hdone, htokens⟩ := acquire_cases now l
  · refine ⟨⟨?_, ?_, htokens.ge, ?_, Or.inr htokens⟩, ?_⟩
    · simpa using h.rate_pos
    · simpa using h.one_le_burst
    · rw [htokens, acquire_burst]
      linarith
    · linarith
  · have hle : l.refilled now ≤ l.burst := min_le_left _ _
    refine ⟨⟨?_, ?_, ?_, ?_, Or.inl ?_⟩, ?_⟩
    · simpa using h.rate_pos
    · simpa using h.one_le_burst
    · linarith
    · rw [htokens, acquire_burst]
      linarith
    · rw [hdone, TokenBucketRateLimiter.acquire]
      dsimp only
      split_ifs <;> rfl
    · linarith

/-- The calls return in their order. -/
lemma le_of_mem_completions (hrate : 0 < l.rate) (hserial : l.Serialized free starts) {c : ℚ}
    (hc : c ∈ l.completions starts) : free ≤ c := by
  induction starts generalizing l free with
  | nil => simp [completions] at hc
  | cons now starts ih =>
    have hdone : free ≤ (l.acquire now).1 := hserial.1.trans (le_acquire hrate)
    rcases List.mem_cons.mp hc with rfl | hc
    · exact hdone
    · exact hdone.trans (ih (by simpa using hrate) hserial.2 hc)

/-- Up to the time `v`, no more calls return than there are tokens, with those that come in until then. -/
lemma countP_le (h : l.Balanced free) (hserial : l.Serialized free starts)
    (hunhurried : l.Unhurried free starts) {v : ℚ} (hv : free ≤ v) :
    ((l.completions starts).countP (· ≤ v) : ℚ) ≤ l.tokens + (v - free) * l.rate := by
  induction starts generalizing l free with
  | nil =>
    have := mul_nonneg (sub_nonneg.mpr hv) h.rate_pos.le
    have := h.nonneg
    simp [completions]
    linarith
  | cons now starts ih =>
    by_cases hdone : (l.acquire now).1 ≤ v
    · have hrest := ih h.acquire.1 hserial.2 hunhurried.2 hdone
      have htokens := h.tokens_le hunhurried.1
      rw [acquire_rate] at hrest
      rw [completions, List.countP_cons_of_pos (by simpa using hdone)]
      push_cast
      linarith
    · have hnone : (l.completions (now :: starts)).countP (· ≤ v) = 0 := by
        rw [List.countP_eq_zero]
        intro c hc hle
        simp only [decide_eq_true_eq] at hle
        rcases List.mem_cons.mp hc with rfl | hc
        · exact hdone hle
        · have := le_of_mem_completions (by simpa using h.rate_pos) hserial.2 hc
          exact hdone (this.trans hle)
      rw [hnone, Nat.cast_zero]
      have := mul_nonneg (sub_nonneg.mpr hv) h.rate_pos.le
      linarith [h.nonneg]

/-- In a window of length `T`, at most `burst + rate * T` calls return. -/
lemma countP_window_le (h : l.Balanced free) (hserial : l.Serialized free starts)
    (hunhurried : l.Unhurried free starts) {u T : ℚ} (hT : 0 ≤ T) :
    ((l.completions starts).countP (fun c => u ≤ c ∧ c ≤ u + T) : ℚ) ≤ l.burst + l.rate * T := by
  have hroom : 0 ≤ l.rate * T := mul_nonneg h.rate_pos.le hT
  induction starts generalizing l free with
  | nil =>
    have := h.one_le_burst
    simp [completions]
    linarith
  | cons now starts ih =>
    have hrest := ih h.acquire.1 hserial.2 hunhurried.2 (by simpa using hroom)
    rw [acquire_rate, acquire_burst] at hrest
    by_cases hin : u ≤ (l.acquire now).1 ∧ (l.acquire now).1 ≤ u + T
    · -- the first call in the window: all others in it return later
      have hfew := countP_le h.acquire.1 hserial.2 hunhurried.2 hin.2
      have hle : ((l.acquire now).2.completions starts).countP (fun c => u ≤ c ∧ c ≤ u + T) ≤
          ((l.acquire now).2.completions starts).countP (· ≤ u + T) := by
        refine List.countP_mono_left fun c _ hc => ?_
        simp only [decide_eq_true_eq] at hc ⊢
        exact hc.2
      have hle' : (((l.acquire now).2.completions starts).countP (fun c => u ≤ c ∧ c ≤ u + T) : ℚ) ≤
          ((l.acquire now).2.completions starts).countP (· ≤ u + T) := by exact_mod_cast hle
      have hlength : (u + T - (l.acquire now).1) * l.rate ≤ l.rate * T := by
        rw [mul_comm]
        exact mul_le_mul_of_nonneg_left (by linarith [hin.1]) h.rate_pos.le
      have htokens : (l.acquire now).2.tokens ≤ l.burst - 1 := h.acquire.2
      rw [acquire_rate] at hfew
      rw [completions, List.countP_cons_of_pos (by simpa using hin)]
      push_cast
      linarith
    · rw [completions, List.countP_cons_of_neg (by simpa using hin)]
      exact hrest

/-- A limiter with a positive rate and room for a token lets at most `burst + rate * T` calls return in a
window of length `T`, as long as no call that follows a sleep is made before the bucket would have
filled up. -/
theorem acquisitions_le {requestsPerMinute created : ℚ} {burst : Option ℚ}
    (hrate : 0 < (init requestsPerMinute burst created).rate)
    (hburst : 1 ≤ (init requestsPerMinute burst created).burst)
    (hserial : (init requestsPerMinute burst created).Serialized created starts)
    (hunhurried : (init requestsPerMinute burst created).Unhurried created starts)
    {u T : ℚ} (hT : 0 ≤ T) :
    (((init requestsPerMinute burst created).completions starts).countP
        (fun c => u ≤ c ∧ c ≤ u + T) : ℚ) ≤
      (init requestsPerMinute burst created).burst + (init requestsPerMinute burst created).rate * T :=
  countP_window_le ⟨hrate, hburst, zero_le_one.trans hburst, le_rfl, Or.inl rfl⟩ hserial hunhurried hT

theorem acquisitions_le_two :
    (((init 60 (some 1) 0).completions [0, 0, 2]).countP (fun c => 1 ≤ c ∧ c ≤ 1 + 1) : ℚ) ≤
      (init 60 (some 1) 0).burst + (init 60 (some 1) 0).rate * 1 :=
  acquisitions_le (by decide +kernel) (by decide +kernel) (by decide +kernel) (by decide +kernel)
    zero_le_one

/-- One request a second, and no burst: after the second call has slept for a second, the third one is let
through at once. -/
theorem acquisitions_twice :
    let l := init 60 (some 1) 0
    l.Serialized 0 [0, 0, 1] ∧ l.completions [0, 0, 1] = [0, 1, 1] ∧
      ¬ ((l.completions [0, 0, 1]).countP (fun c => (1 : ℚ) ≤ c ∧ c ≤ 1 + 0) : ℚ) ≤
        l.burst + l.rate * 0 := by
  decide +kernel

end TokenBucketRateLimiter
end PolyCortex
