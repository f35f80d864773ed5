import Mathlib.Data.Rat.Lemmas
import Mathlib.Tactic

/-!
# Floats of Python

Floats with exact finite numbers, infinities and NaN. NaN compares with nothing, so that what `min` and
`max` return depends on the order of their arguments.
-/

inductive PyFloat where
  | finite (q : ℚ)
  | infinite (negative : Bool)
  | nan
  deriving DecidableEq, Repr

namespace PyFloat

variable {a b : ℚ} {x y : PyFloat}

def isFinite : PyFloat → Bool
  | finite _ => true
  | _ => false

/-- The number, if it is one. -/
def toRat? : PyFloat → Option ℚ
  | finite q => some q
  | _ => none

/-! ### Arithmetic -/

protected def add : PyFloat → PyFloat → PyFloat
  | finite a, finite b => finite (a + b)
  | nan, _ => nan
  | _, nan => nan
  | infinite m, infinite n => if m = n then infinite m else nan
  | infinite m, finite _ => infinite m
  | finite _, infinite n => infinite n

protected def neg : PyFloat → PyFloat
  | finite q => finite (-q)
  | infinite negative => infinite !negative
  | nan => nan

/-- The sign of a product with an infinity. -/
def scaleInfinite (negative : Bool) (q : ℚ) : PyFloat :=
  if q = 0 then nan else infinite (negative ^^ decide (q < 0))

protected def mul : PyFloat → PyFloat → PyFloat
  | finite a, finite b => finite (a * b)
  | nan, _ => nan
  | _, nan => nan
  | infinite m, infinite n => infinite (m ^^ n)
  | infinite m, finite b => scaleInfinite m b
  | finite a, infinite n => scaleInfinite n a

/-- A division by zero raises and is not asked for. -/
protected def div : PyFloat → PyFloat → PyFloat
  | finite a, finite b => if b = 0 then nan else finite (a / b)
  | nan, _ => nan
  | _, nan => nan
  | infinite _, infinite _ => nan
  | infinite m, finite b => scaleInfinite m b
  | finite _, infinite _ => finite 0

instance : Zero PyFloat := ⟨finite 0⟩
instance : Add PyFloat := ⟨PyFloat.add⟩
instance : Sub PyFloat := ⟨fun x y => x.add y.neg⟩
instance : Mul PyFloat := ⟨PyFloat.mul⟩
instance : Div PyFloat := ⟨PyFloat.div⟩
instance : OfScientific PyFloat := ⟨fun m s e => finite (OfScientific.ofScientific m s e)⟩

@[simp] lemma finite_add (a b : ℚ) : finite a + finite b = finite (a + b) := rfl

@[simp] lemma finite_sub (a b : ℚ) : finite a - finite b = finite (a - b) :=
  congrArg finite (sub_eq_add_neg a b).symm

@[simp] lemma finite_mul (a b : ℚ) : finite a * finite b = finite (a * b) := rfl

lemma finite_div (a : ℚ) (h : b ≠ 0) : finite a / finite b = finite (a / b) := if_neg h

@[simp] lemma nan_add (x : PyFloat) : nan + x = nan := by
  cases x <;> rfl

@[simp] lemma add_nan (x : PyFloat) : x + nan = nan := by
  cases x <;> rfl

@[simp] lemma finite_add_infinite (a : ℚ) (negative : Bool) :
    finite a + infinite negative = infinite negative := rfl

/-- A sum is a number only if both parts are. -/
lemma isFinite_add (x y : PyFloat) : (x + y).isFinite = (x.isFinite && y.isFinite) := by
  cases x with
  | finite a => cases y <;> rfl
  | infinite m =>
    cases y with
    | finite b => rfl
    | infinite n => cases m <;> cases n <;> rfl
    | nan => rfl
  | nan => simp [isFinite]

/-- A part of something that is no number is nothing, or no number. -/
lemma div_of_not_isFinite (x : PyFloat) (h : y.isFinite = false) :
    x / y = finite 0 ∨ (x / y).isFinite = false := by
  cases y with
  | finite b => exact absurd h (by simp [isFinite])
  | infinite n => cases x <;> simp [HDiv.hDiv, Div.div, PyFloat.div, isFinite]
  | nan => cases x <;> simp [HDiv.hDiv, Div.div, PyFloat.div, isFinite]

/-- An infinity keeps its sign when it is scaled by a positive number. -/
lemma infinite_mul_of_pos (negative : Bool) (h : 0 < a) :
    infinite negative * finite a = infinite negative := by
  have hscale : infinite negative * finite a = scaleInfinite negative a := rfl
  rw [hscale, scaleInfinite, if_neg h.ne', decide_eq_false h.not_gt, Bool.xor_false]

@[simp] lemma nan_mul (x : PyFloat) : nan * x = nan := by
  cases x <;> rfl

/-- A literal is a finite number. -/
lemma ofScientific_eq (m : ℕ) (s : Bool) (e : ℕ) :
    (OfScientific.ofScientific m s e : PyFloat) = finite (OfScientific.ofScientific m s e) := rfl

/-! ### Comparisons -/

/-- `x < y`. -/
protected def lt : PyFloat → PyFloat → Bool
  | finite a, finite b => a < b
  | infinite m, infinite n => m && !n
  | infinite m, finite _ => m
  | finite _, infinite n => !n
  | nan, _ => false
  | _, nan => false

instance : LT PyFloat := ⟨fun x y => x.lt y = true⟩

instance : DecidableLT PyFloat := fun x y => inferInstanceAs (Decidable (x.lt y = true))

@[simp] lemma finite_lt : finite a < finite b ↔ a < b := by
  simp [LT.lt, PyFloat.lt]

@[simp] lemma not_nan_lt (x : PyFloat) : ¬ nan < x := by
  cases x <;> simp [LT.lt, PyFloat.lt]

@[simp] lemma not_lt_nan (x : PyFloat) : ¬ x < nan := by
  cases x <;> simp [LT.lt, PyFloat.lt]

/-- `x <= y`. -/
protected def le : PyFloat → PyFloat → Bool
  | finite a, finite b => a ≤ b
  | infinite m, infinite n => m || !n
  | infinite m, finite _ => m
  | finite _, infinite n => !n
  | nan, _ => false
  | _, nan => false

instance : LE PyFloat := ⟨fun x y => x.le y = true⟩

instance : DecidableLE PyFloat := fun x y => inferInstanceAs (Decidable (x.le y = true))

@[simp] lemma finite_le : finite a ≤ finite b ↔ a ≤ b := by
  simp [LE.le, PyFloat.le]

protected lemma lt_irrefl (x : PyFloat) : ¬ x < x := by
  cases x with
  | finite q => simp
  | infinite negative => simp [LT.lt, PyFloat.lt]
  | nan => simp

protected lemma le_of_lt (h : x < y) : x ≤ y := by
  cases x <;> cases y <;> first
    | exact finite_le.mpr (finite_lt.mp h).le
    | simp_all [LT.lt, LE.le, PyFloat.lt, PyFloat.le]

protected lemma lt_of_le_of_lt {z : PyFloat} (hxy : x ≤ y) (hyz : y < z) : x < z := by
  cases x <;> cases y <;> cases z <;> first
    | exact finite_lt.mpr ((finite_le.mp hxy).trans_lt (finite_lt.mp hyz))
    | simp_all [LT.lt, LE.le, PyFloat.lt, PyFloat.le]

end PyFloat

/-! ### `min` and `max` -/

section MinMax

variable {α : Type} [LT α] [DecidableLT α]

/-- `min(x, y)`: the first one, unless the second is less. -/
def pyMin (x y : α) : α := if y < x then y else x

/-- `max(x, y)`: the first one, unless the second is greater. -/
def pyMax (x y : α) : α := if x < y then y else x

end MinMax

lemma pyMin_eq {α : Type} [LinearOrder α] (x y : α) : pyMin x y = min x y := by
  rw [pyMin, min_def]
  split_ifs with hlt hle hle
  · exact absurd hlt hle.not_gt
  · rfl
  · rfl
  · exact absurd (not_lt.mp hlt) hle

lemma pyMax_eq {α : Type} [LinearOrder α] (x y : α) : pyMax x y = max x y := by
  rw [pyMax, max_def]
  split_ifs with hlt hle hle
  · rfl
  · exact absurd hlt.le hle
  · exact le_antisymm hle (not_lt.mp hlt)
  · rfl

namespace PyFloat

lemma clamp_finite (low high q : ℚ) :
    pyMax (finite low) (pyMin (finite q) (finite high)) = finite (max low (min q high)) := by
  rw [← pyMin_eq, ← pyMax_eq, pyMin, pyMin]
  simp only [finite_lt]
  rw [← apply_ite finite, pyMax, pyMax]
  simp only [finite_lt]
  rw [← apply_ite finite]

/-- The larger of a bound and something that is not above another one is between the two. -/
lemma pyMax_between {low high : ℚ} {y : PyFloat} (hle : low ≤ high)
    (hfinite : ∀ q, y = finite q → q ≤ high) (hinfinite : y ≠ infinite false) :
    ∃ q, low ≤ q ∧ q ≤ high ∧ pyMax (finite low) y = finite q := by
  cases y with
  | finite q =>
    refine ⟨max low q, le_max_left _ _, max_le hle (hfinite q rfl), ?_⟩
    rw [← pyMax_eq, pyMax, pyMax, apply_ite finite]
    simp only [finite_lt]
  | infinite negative =>
    cases negative with
    | true => exact ⟨low, le_rfl, hle, rfl⟩
    | false => exact absurd rfl hinfinite
  | nan => exact ⟨low, le_rfl, hle, by simp [pyMax]⟩

/-- Forced between two bounds the number is one, whatever it was: the bounds come first in the
comparison that NaN loses. -/
lemma clamp_eq (low high : ℚ) (hle : low ≤ high) (x : PyFloat) :
    ∃ q, low ≤ q ∧ q ≤ high ∧ pyMax (finite low) (pyMin x (finite high)) = finite q := by
  rw [pyMin]
  split_ifs with hlt
  · exact pyMax_between hle (fun q h => (finite.inj h).ge) (by simp)
  · apply pyMax_between hle
    · rintro q rfl
      simpa using hlt
    · rintro rfl
      exact hlt rfl

/-- The same when the upper bound comes first. -/
lemma clamp_eq_of_high (low high : ℚ) (hle : low ≤ high) (x : PyFloat) :
    ∃ q, low ≤ q ∧ q ≤ high ∧ pyMax (finite low) (pyMin (finite high) x) = finite q := by
  rw [pyMin]
  split_ifs with hlt
  · apply pyMax_between hle
    · rintro q rfl
      exact (finite_lt.mp hlt).le
    · rintro rfl
      exact absurd hlt Bool.false_ne_true
  · exact pyMax_between hle (fun q h => (finite.inj h).ge) (by simp)

/-- `np.clip`. -/
def clip (low high : ℚ) : PyFloat → PyFloat
  | finite q => finite (min (max q low) high)
  | infinite true => finite low
  | infinite false => finite high
  | nan => nan

end PyFloat
