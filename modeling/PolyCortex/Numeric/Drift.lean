import Mathlib.Algebra.Order.Archimedean.Basic
import Mathlib.Tactic

/-!
# Drift toward a baseline

A value that closes a fixed share of its distance to a baseline in each step. It stays within the bounds
that hold for both, and stays there forever only when the baseline is within them
(`forall_iterate_mem_iff`).
-/

namespace Drift

variable {K : Type} [Field K] [LinearOrder K] [IsStrictOrderedRing K] {rate baseline low high x : K}

/-- One step. -/
def drift (rate baseline x : K) : K := x * (1 - rate) + baseline * rate

omit [LinearOrder K] [IsStrictOrderedRing K] in
lemma drift_sub (rate baseline x : K) :
    drift rate baseline x - baseline = (1 - rate) * (x - baseline) := by
  rw [drift]
  ring

omit [LinearOrder K] [IsStrictOrderedRing K] in
lemma iterate_sub (rate baseline x : K) (n : ℕ) :
    (drift rate baseline)^[n] x - baseline = (1 - rate) ^ n * (x - baseline) := by
  induction n with
  | zero => simp
  | succ n ih =>
    rw [Function.iterate_succ_apply', drift_sub, ih, pow_succ]
    ring

/-- A step ends between the value and the baseline. -/
lemma drift_mem (hrate : 0 ≤ rate ∧ rate ≤ 1) (hx : x ∈ Set.Icc low high)
    (hbaseline : baseline ∈ Set.Icc low high) : drift rate baseline x ∈ Set.Icc low high := by
  have hlow : low * (1 - rate) + low * rate = low := by ring
  have hhigh : high * (1 - rate) + high * rate = high := by ring
  have hrest : 0 ≤ 1 - rate := sub_nonneg.mpr hrate.2
  rw [drift]
  constructor
  · calc low = low * (1 - rate) + low * rate := hlow.symm
      _ ≤ x * (1 - rate) + baseline * rate :=
        add_le_add (mul_le_mul_of_nonneg_right hx.1 hrest)
          (mul_le_mul_of_nonneg_right hbaseline.1 hrate.1)
  · calc x * (1 - rate) + baseline * rate
        ≤ high * (1 - rate) + high * rate :=
          add_le_add (mul_le_mul_of_nonneg_right hx.2 hrest)
            (mul_le_mul_of_nonneg_right hbaseline.2 hrate.1)
      _ = high := hhigh

lemma iterate_mem (hrate : 0 ≤ rate ∧ rate ≤ 1) (hx : x ∈ Set.Icc low high)
    (hbaseline : baseline ∈ Set.Icc low high) (n : ℕ) :
    (drift rate baseline)^[n] x ∈ Set.Icc low high := by
  induction n with
  | zero => exact hx
  | succ n ih =>
    rw [Function.iterate_succ_apply']
    exact drift_mem hrate ih hbaseline

/-- The distance to the baseline becomes as small as one likes. -/
lemma exists_iterate_near [Archimedean K] (hrate : 0 < rate ∧ rate ≤ 1) {ε : K} (hε : 0 < ε) :
    ∃ n : ℕ, |(drift rate baseline)^[n] x - baseline| < ε := by
  have hdistance : 0 < |x - baseline| + 1 := add_pos_of_nonneg_of_pos (abs_nonneg _) one_pos
  have hrest : 0 ≤ 1 - rate := sub_nonneg.mpr hrate.2
  obtain ⟨n, hn⟩ := exists_pow_lt_of_lt_one (div_pos hε hdistance) (sub_lt_self 1 hrate.1)
  refine ⟨n, ?_⟩
  rw [iterate_sub, abs_mul, abs_of_nonneg (pow_nonneg hrest n)]
  calc (1 - rate) ^ n * |x - baseline|
      ≤ (1 - rate) ^ n * (|x - baseline| + 1) :=
        mul_le_mul_of_nonneg_left (le_add_of_nonneg_right zero_le_one) (pow_nonneg hrest n)
    _ < ε := (lt_div_iff₀ hdistance).mp hn

/-- It is always within the bounds exactly when it begins there and the baseline is there. -/
lemma forall_iterate_mem_iff [Archimedean K] (hrate : 0 < rate ∧ rate ≤ 1) :
    (∀ n : ℕ, (drift rate baseline)^[n] x ∈ Set.Icc low high) ↔
      x ∈ Set.Icc low high ∧ baseline ∈ Set.Icc low high := by
  constructor
  · intro h
    refine ⟨h 0, ?_, ?_⟩
    · by_contra hlow
      obtain ⟨n, hn⟩ : ∃ n : ℕ, |(drift rate baseline)^[n] x - baseline| < low - baseline :=
        exists_iterate_near hrate (sub_pos.mpr (not_le.mp hlow))
      have habove := (abs_lt.mp hn).2
      have hmem := (h n).1
      linarith
    · by_contra hhigh
      obtain ⟨n, hn⟩ : ∃ n : ℕ, |(drift rate baseline)^[n] x - baseline| < baseline - high :=
        exists_iterate_near hrate (sub_pos.mpr (not_le.mp hhigh))
      have hbelow := (abs_lt.mp hn).1
      have hmem := (h n).2
      linarith
  · exact fun h => iterate_mem ⟨hrate.1.le, hrate.2⟩ h.1 h.2

end Drift
