import Mathlib.Data.Rat.Floor
import Mathlib.Tactic

/-!
# Decimal rounding of rationals

`roundTo n q` is `q` rounded to `n` decimal digits, ties going to the even digit. Its values lie
on the grid of the multiples of `10⁻ⁿ`; it is monotone, it fixes the grid and it moves nothing by
more than half a grid step.
-/

namespace Rounding

/-- The integer nearest to `q`; a tie goes to the even one. -/
def roundHalfEven (q : ℚ) : ℤ :=
  let f := ⌊q⌋
  let r := q - f
  if r < 1 / 2 then f
  else if 1 / 2 < r then f + 1
  else if f % 2 = 0 then f else f + 1

/-- `q` rounded to `n` decimal digits. -/
def roundTo (n : ℕ) (q : ℚ) : ℚ := roundHalfEven (q * 10 ^ n) / 10 ^ n

/-- The multiples of `10⁻ⁿ`. -/
def OnGrid (n : ℕ) (q : ℚ) : Prop := ∃ z : ℤ, q = z / 10 ^ n

/-! ### Rounding to an integer -/

lemma roundHalfEven_eq_floor_or (q : ℚ) :
    (roundHalfEven q = ⌊q⌋ ∧ q - ⌊q⌋ ≤ 1 / 2) ∨
    (roundHalfEven q = ⌊q⌋ + 1 ∧ 1 / 2 ≤ q - ⌊q⌋) := by
  simp only [roundHalfEven]
  split_ifs with h₁ h₂ h₃
  · exact Or.inl ⟨rfl, h₁.le⟩
  · exact Or.inr ⟨rfl, h₂.le⟩
  · exact Or.inl ⟨rfl, not_lt.mp h₂⟩
  · exact Or.inr ⟨rfl, not_lt.mp h₁⟩

lemma abs_roundHalfEven_sub_le (q : ℚ) : |(roundHalfEven q : ℚ) - q| ≤ 1 / 2 := by
  have hfloor := Int.floor_le q
  have hlt := Int.lt_floor_add_one q
  rw [abs_le]
  rcases roundHalfEven_eq_floor_or q with ⟨h, hr⟩ | ⟨h, hr⟩
  · rw [h]
    constructor <;> linarith
  · rw [h]
    push_cast
    constructor <;> linarith

/-- Below the next tie a value is not rounded past the integer. -/
lemma roundHalfEven_le_of_lt {q : ℚ} {z : ℤ} (h : q < z + 1 / 2) : roundHalfEven q ≤ z := by
  have hround := (abs_le.mp (abs_roundHalfEven_sub_le q)).2
  have hlt : (roundHalfEven q : ℚ) < z + 1 := by linarith
  exact Int.lt_add_one_iff.mp (by exact_mod_cast hlt)

/-- Above the tie before it, a value is rounded to the integer at least. -/
lemma le_roundHalfEven_of_lt {q : ℚ} {z : ℤ} (h : z - 1 / 2 < q) : z ≤ roundHalfEven q := by
  have hround := (abs_le.mp (abs_roundHalfEven_sub_le q)).1
  have hlt : (z : ℚ) < roundHalfEven q + 1 := by linarith
  exact Int.lt_add_one_iff.mp (by exact_mod_cast hlt)

@[simp] lemma roundHalfEven_intCast (z : ℤ) : roundHalfEven (z : ℚ) = z := by
  simp [roundHalfEven]

/-- Two rationals between the same integers are compared on the same side of the tie; otherwise
an integer separates them and neither crosses it. -/
lemma roundHalfEven_mono {p q : ℚ} (h : p ≤ q) : roundHalfEven p ≤ roundHalfEven q := by
  rcases (Int.floor_mono h).lt_or_eq with hlt | heq
  · have hp : roundHalfEven p ≤ ⌊p⌋ + 1 := by
      rcases roundHalfEven_eq_floor_or p with ⟨hp, _⟩ | ⟨hp, _⟩ <;> omega
    have hq : ⌊q⌋ ≤ roundHalfEven q := by
      rcases roundHalfEven_eq_floor_or q with ⟨hq, _⟩ | ⟨hq, _⟩ <;> omega
    omega
  · simp only [roundHalfEven]
    rw [heq]
    split_ifs <;> first | omega | (exfalso; linarith)

/-! ### Rounding to digits -/

variable {n : ℕ}

private lemma pow_pos' (n : ℕ) : (0 : ℚ) < 10 ^ n := by positivity

lemma onGrid_zero : OnGrid n 0 := ⟨0, by simp⟩

lemma onGrid_roundTo (q : ℚ) : OnGrid n (roundTo n q) := ⟨_, rfl⟩

lemma OnGrid.add {p q : ℚ} (hp : OnGrid n p) (hq : OnGrid n q) : OnGrid n (p + q) := by
  obtain ⟨x, rfl⟩ := hp
  obtain ⟨y, rfl⟩ := hq
  exact ⟨x + y, by push_cast; ring⟩

lemma OnGrid.sub {p q : ℚ} (hp : OnGrid n p) (hq : OnGrid n q) : OnGrid n (p - q) := by
  obtain ⟨x, rfl⟩ := hp
  obtain ⟨y, rfl⟩ := hq
  exact ⟨x - y, by push_cast; ring⟩

lemma onGrid_sum {l : List ℚ} (h : ∀ q ∈ l, OnGrid n q) : OnGrid n l.sum := by
  induction l with
  | nil => exact onGrid_zero
  | cons q l ih =>
    simp only [List.forall_mem_cons] at h
    rw [List.sum_cons]
    exact h.1.add (ih h.2)

lemma OnGrid.le_of_pos {q : ℚ} (h : OnGrid n q) (hpos : 0 < q) : 1 / 10 ^ n ≤ q := by
  obtain ⟨z, rfl⟩ := h
  have hz : 0 < (z : ℚ) := (div_pos_iff_of_pos_right (pow_pos' n)).mp hpos
  have hone : (1 : ℚ) ≤ z := by exact_mod_cast Int.cast_pos.mp hz
  exact div_le_div_of_nonneg_right hone (pow_pos' n).le

lemma OnGrid.roundTo_eq {q : ℚ} (h : OnGrid n q) : roundTo n q = q := by
  obtain ⟨z, rfl⟩ := h
  rw [roundTo, div_mul_cancel₀ _ (pow_pos' n).ne', roundHalfEven_intCast]

@[simp] lemma roundTo_zero : roundTo n 0 = 0 := onGrid_zero.roundTo_eq

lemma roundTo_mono {p q : ℚ} (h : p ≤ q) : roundTo n p ≤ roundTo n q := by
  have hm : roundHalfEven (p * 10 ^ n) ≤ roundHalfEven (q * 10 ^ n) :=
    roundHalfEven_mono (mul_le_mul_of_nonneg_right h (pow_pos' n).le)
  exact div_le_div_of_nonneg_right (by exact_mod_cast hm) (pow_pos' n).le

lemma roundTo_nonneg {q : ℚ} (h : 0 ≤ q) : 0 ≤ roundTo n q := by
  simpa using roundTo_mono (n := n) h

lemma abs_roundTo_sub_le (q : ℚ) : |roundTo n q - q| ≤ 1 / 2 / 10 ^ n := by
  have h := abs_roundHalfEven_sub_le (q * 10 ^ n)
  have heq : roundTo n q - q = (roundHalfEven (q * 10 ^ n) - q * 10 ^ n) / 10 ^ n := by
    rw [sub_div, mul_div_cancel_right₀ _ (pow_pos' n).ne', roundTo]
  rw [heq, abs_div, abs_of_pos (pow_pos' n)]
  exact div_le_div_of_nonneg_right h (pow_pos' n).le

lemma roundTo_le_add (q : ℚ) : roundTo n q ≤ q + 1 / 2 / 10 ^ n := by
  have := (abs_le.mp (abs_roundTo_sub_le (n := n) q)).2
  linarith

lemma le_roundTo_add (q : ℚ) : q ≤ roundTo n q + 1 / 2 / 10 ^ n := by
  have := (abs_le.mp (abs_roundTo_sub_le (n := n) q)).1
  linarith

/-- Rounding a value does not move it past a grid point. -/
lemma OnGrid.le_roundTo {p q : ℚ} (hp : OnGrid n p) (h : p ≤ q) : p ≤ roundTo n q :=
  hp.roundTo_eq ▸ roundTo_mono h

end Rounding
