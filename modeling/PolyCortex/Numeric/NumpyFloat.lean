import Mathlib.Algebra.BigOperators.Group.List.Basic
import Mathlib.Algebra.Order.Field.Basic
import Mathlib.Tactic.Abel
import PolyCortex.Data.Series

/-!
# Floats of arrays

Floats over any ordered field, with infinities and NaN, where a division by zero gives one of these; and
series of them: differences, and means and standard deviations over windows, in which NaN and the
infinities are left out.
-/

inductive NumpyFloat (K : Type) where
  | finite (x : K)
  | infinite (negative : Bool)
  | nan
  deriving DecidableEq

namespace NumpyFloat

variable {K : Type}

/-! ### Arithmetic -/

section Arithmetic

variable [Field K]

protected def add : NumpyFloat K → NumpyFloat K → NumpyFloat K
  | finite a, finite b => finite (a + b)
  | nan, _ => nan
  | _, nan => nan
  | infinite m, infinite n => if m = n then infinite m else nan
  | infinite m, finite _ => infinite m
  | finite _, infinite n => infinite n

protected def neg : NumpyFloat K → NumpyFloat K
  | finite a => finite (-a)
  | infinite negative => infinite !negative
  | nan => nan

instance : Add (NumpyFloat K) := ⟨NumpyFloat.add⟩
instance : Neg (NumpyFloat K) := ⟨NumpyFloat.neg⟩
instance : Sub (NumpyFloat K) := ⟨fun x y => x + -y⟩

@[simp] lemma finite_add (a b : K) : finite a + finite b = finite (a + b) := rfl

@[simp] lemma finite_sub (a b : K) : finite a - finite b = finite (a - b) :=
  congrArg finite (sub_eq_add_neg a b).symm

@[simp] lemma nan_add (x : NumpyFloat K) : nan + x = nan := by
  cases x <;> rfl

@[simp] lemma add_nan (x : NumpyFloat K) : x + nan = nan := by
  cases x <;> rfl

@[simp] lemma sub_nan (x : NumpyFloat K) : x - nan = nan := add_nan x

variable [LinearOrder K]

/-- A product with an infinity. -/
def scaleInfinite (negative : Bool) (a : K) : NumpyFloat K :=
  if a = 0 then nan else infinite (negative ^^ decide (a < 0))

protected def mul : NumpyFloat K → NumpyFloat K → NumpyFloat K
  | finite a, finite b => finite (a * b)
  | nan, _ => nan
  | _, nan => nan
  | infinite m, infinite n => infinite (m ^^ n)
  | infinite m, finite b => scaleInfinite m b
  | finite a, infinite n => scaleInfinite n a

protected def div : NumpyFloat K → NumpyFloat K → NumpyFloat K
  | finite a, finite b =>
    if b = 0 then if a = 0 then nan else infinite (decide (a < 0)) else finite (a / b)
  | nan, _ => nan
  | _, nan => nan
  | infinite _, infinite _ => nan
  | infinite m, finite b => infinite (m ^^ decide (b < 0))
  | finite _, infinite _ => finite 0

instance : Mul (NumpyFloat K) := ⟨NumpyFloat.mul⟩
instance : Div (NumpyFloat K) := ⟨NumpyFloat.div⟩

lemma finite_div {b : K} (a : K) (hb : b ≠ 0) : finite a / finite b = finite (a / b) := if_neg hb

@[simp] lemma div_nan (x : NumpyFloat K) : x / nan = nan := by
  cases x <;> rfl

def isNan : NumpyFloat K → Bool
  | nan => true
  | _ => false

/-- `x == 0`. -/
def isZero : NumpyFloat K → Bool
  | finite a => a = 0
  | _ => false

protected def abs : NumpyFloat K → NumpyFloat K
  | finite a => finite (max a (-a))
  | infinite _ => infinite false
  | nan => nan

/-- `clip(lower=low)`. -/
def clipLower (low : K) : NumpyFloat K → NumpyFloat K
  | finite a => finite (max a low)
  | infinite true => finite low
  | infinite false => infinite false
  | nan => nan

/-- `clip(upper=high)`. -/
def clipUpper (high : K) : NumpyFloat K → NumpyFloat K
  | finite a => finite (min a high)
  | infinite true => infinite true
  | infinite false => finite high
  | nan => nan

/-- `clip(low, high)`. -/
def clip (low high : K) (x : NumpyFloat K) : NumpyFloat K := (x.clipLower low).clipUpper high

/-- A function on the finite values. -/
def apply (f : K → K) : NumpyFloat K → NumpyFloat K
  | finite a => finite (f a)
  | x => x

end Arithmetic

/-! ### Windows -/

section Windows

/-- The values of a window that count. -/
def valid (window : List (NumpyFloat K)) : List K :=
  window.filterMap fun
    | finite a => some a
    | _ => none

lemma valid_append (xs ys : List (NumpyFloat K)) : valid (xs ++ ys) = valid xs ++ valid ys :=
  List.filterMap_append

lemma valid_sublist {xs ys : List (NumpyFloat K)} (h : xs.Sublist ys) : (valid xs).Sublist (valid ys) :=
  h.filterMap _

lemma length_valid_le (window : List (NumpyFloat K)) : (valid window).length ≤ window.length :=
  List.length_filterMap_le _ _

lemma mem_valid {window : List (NumpyFloat K)} {x : K} (h : x ∈ valid window) : finite x ∈ window := by
  obtain ⟨value, hvalue, heq⟩ := List.mem_filterMap.mp h
  cases value with
  | finite y => exact Option.some.inj heq ▸ hvalue
  | infinite negative => cases heq
  | nan => cases heq

lemma valid_replicate (n : ℕ) (x : K) : valid (List.replicate n (finite x)) = List.replicate n x := by
  induction n with
  | zero => rfl
  | succ n ih =>
    rw [List.replicate_succ, List.replicate_succ, ← ih]
    rfl

/-- The standard deviation of a window, by the function `std` of the values that count; of one value
there is none. -/
def deviation (std : List K → K) (minPeriods : ℕ) (window : List (NumpyFloat K)) : NumpyFloat K :=
  if (valid window).length < max minPeriods 2 then nan else finite (std (valid window))

/-- `rolling(n).std()`. -/
def rollingStd (std : List K → K) (n minPeriods : ℕ) : List (NumpyFloat K) → List (NumpyFloat K) :=
  Series.rolling n (deviation std minPeriods)

lemma causal_rollingStd (std : List K → K) (n minPeriods : ℕ) :
    Series.Causal (rollingStd std n minPeriods) :=
  Series.causal_rolling _ _

variable [Field K] {x : K} {n : ℕ} {window : List (NumpyFloat K)}

/-- Equal values do not deviate. -/
lemma deviation_replicate {std : List K → K} (hstd : std (List.replicate n x) = 0)
    (hwindow : valid window = List.replicate n x) (hn : 2 ≤ n) : deviation std 1 window = finite 0 := by
  rw [deviation, hwindow, List.length_replicate, if_neg (not_lt.mpr (max_le (by omega) hn)), hstd]

/-- The mean of a window, when enough of its values count. -/
def mean (minPeriods : ℕ) (window : List (NumpyFloat K)) : NumpyFloat K :=
  if (valid window).length < minPeriods then nan
  else finite ((valid window).sum / (valid window).length)

/-- The mean of equal values is their value. -/
lemma mean_replicate [CharZero K] {minPeriods : ℕ} (hwindow : valid window = List.replicate n x)
    (hn : 0 < n) (hmin : minPeriods ≤ n) : mean minPeriods window = finite x := by
  have hne : (n : K) ≠ 0 := Nat.cast_ne_zero.mpr hn.ne'
  rw [mean, hwindow, List.length_replicate, if_neg (not_lt.mpr hmin), List.sum_replicate,
    nsmul_eq_mul, mul_div_cancel_left₀ x hne]

/-- The last value less the one before. -/
def lastChange (window : List (NumpyFloat K)) : NumpyFloat K :=
  match window.reverse with
  | last :: before :: _ => last - before
  | _ => nan

/-- `diff()`. -/
def diff : List (NumpyFloat K) → List (NumpyFloat K) := Series.rolling 2 lastChange

/-- `rolling(n).mean()`. -/
def rollingMean (n minPeriods : ℕ) : List (NumpyFloat K) → List (NumpyFloat K) :=
  Series.rolling n (mean minPeriods)

/-- Where a window is not full there is no mean. -/
lemma getElem?_rollingMean_of_lt {xs : List (NumpyFloat K)} {k i : ℕ} (hi : i < xs.length)
    (hk : i + 1 < k) : (rollingMean k k xs)[i]? = some nan := by
  have hvalid : (valid ((xs.take (i + 1)).rtake k)).length < k := by
    refine lt_of_le_of_lt ((length_valid_le _).trans (List.drop_sublist _ _).length_le) ?_
    rw [List.length_take]
    omega
  rw [rollingMean, Series.getElem?_rolling k _ hi, mean, if_pos hvalid]

/-- The rolling mean of equal values is their value. -/
lemma getElem?_rollingMean_replicate [CharZero K] {n k i : ℕ} (hi : i < n) (hpos : 0 < k)
    (hk : k ≤ i + 1) : (rollingMean k k (List.replicate n (finite x)))[i]? = some (finite x) := by
  have hwindow : ((List.replicate n (finite x)).take (i + 1)).rtake k = List.replicate k (finite x) := by
    rw [List.take_replicate, List.rtake, List.drop_replicate, List.length_replicate]
    congr 1
    omega
  have hmean : mean k (List.replicate k (finite x)) = finite x :=
    mean_replicate (valid_replicate k x) hpos le_rfl
  rw [rollingMean, Series.getElem?_rolling k _ (by simpa using hi), hwindow, hmean]

lemma causal_diff : Series.Causal (diff (K := K)) := Series.causal_rolling _ _

lemma causal_rollingMean (n minPeriods : ℕ) : Series.Causal (rollingMean (K := K) n minPeriods) :=
  Series.causal_rolling _ _

end Windows
end NumpyFloat
