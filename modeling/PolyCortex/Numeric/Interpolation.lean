import Mathlib.Algebra.Order.Field.Basic
import Mathlib.Tactic

/-!
# Linear interpolation

The piecewise linear function through a list of points, constant before the first and after the last
of them. Where the points go up it is monotone (`interpolate_mono`), and through points with distinct
places it goes through all of them (`interpolate_knot`).
-/

namespace Interpolation

variable {K : Type} [Field K] [LinearOrder K] {x x' x₀ x₁ y₀ y₁ : K} {points : List (K × K)}

/-- The line through two points, at `x`. -/
def line (x₀ y₀ x₁ y₁ x : K) : K := y₀ + (y₁ - y₀) / (x₁ - x₀) * (x - x₀)

/-- The value at `x`. -/
def interpolate (x : K) : List (K × K) → K
  | [] => 0
  | [(_, y)] => y
  | (x₀, y₀) :: (x₁, y₁) :: points =>
    if x < x₁ then if x ≤ x₀ then y₀ else line x₀ y₀ x₁ y₁ x
    else interpolate x ((x₁, y₁) :: points)

/-- The points go up, or at least not down. -/
def Ascending (points : List (K × K)) : Prop :=
  points.Pairwise fun p q => p.1 ≤ q.1 ∧ p.2 ≤ q.2

variable [IsStrictOrderedRing K]

lemma line_mono (hx : x₀ < x₁) (hy : y₀ ≤ y₁) (h : x ≤ x') :
    line x₀ y₀ x₁ y₁ x ≤ line x₀ y₀ x₁ y₁ x' := by
  have hslope : 0 ≤ (y₁ - y₀) / (x₁ - x₀) := div_nonneg (sub_nonneg.mpr hy) (sub_nonneg.mpr hx.le)
  unfold line
  gcongr

omit [LinearOrder K] [IsStrictOrderedRing K] in
lemma line_left : line x₀ y₀ x₁ y₁ x₀ = y₀ := by
  simp [line]

lemma line_right (hx : x₀ < x₁) : line x₀ y₀ x₁ y₁ x₁ = y₁ := by
  rw [line, div_mul_cancel₀ _ (sub_pos.mpr hx).ne']
  ring

omit [Field K] [IsStrictOrderedRing K] in
lemma ascending_zip {xs ys : List K} (hx : xs.Pairwise (· ≤ ·)) (hy : ys.Pairwise (· ≤ ·)) :
    Ascending (xs.zip ys) := by
  induction xs generalizing ys with
  | nil => exact List.Pairwise.nil
  | cons x xs ih =>
    cases ys with
    | nil => exact List.Pairwise.nil
    | cons y ys =>
      obtain ⟨hx, hxs⟩ := List.pairwise_cons.mp hx
      obtain ⟨hy, hys⟩ := List.pairwise_cons.mp hy
      refine List.pairwise_cons.mpr ⟨fun point hpoint => ?_, ih hxs hys⟩
      obtain ⟨hmemx, hmemy⟩ := List.of_mem_zip hpoint
      exact ⟨hx _ hmemx, hy _ hmemy⟩

/-- Nowhere is the value less than the first one. -/
lemma le_interpolate (h : Ascending ((x₀, y₀) :: points)) (x : K) :
    y₀ ≤ interpolate x ((x₀, y₀) :: points) := by
  induction points generalizing x₀ y₀ with
  | nil => rfl
  | cons point points ih =>
    obtain ⟨x₁, y₁⟩ := point
    obtain ⟨hfirst, hrest⟩ := List.pairwise_cons.mp h
    obtain ⟨hx, hy⟩ := hfirst (x₁, y₁) (by simp)
    rw [interpolate]
    split_ifs with hright hleft
    · exact le_rfl
    · rw [not_le] at hleft
      calc y₀ = line x₀ y₀ x₁ y₁ x₀ := line_left.symm
        _ ≤ line x₀ y₀ x₁ y₁ x := line_mono (hleft.trans hright) hy hleft.le
    · exact hy.trans (ih hrest)

/-- Before the second point the value is not more than there. -/
lemma segment_le (hy : y₀ ≤ y₁) (h : x < x₁) :
    (if x ≤ x₀ then y₀ else line x₀ y₀ x₁ y₁ x) ≤ y₁ := by
  split_ifs with hleft
  · exact hy
  · rw [not_le] at hleft
    calc line x₀ y₀ x₁ y₁ x ≤ line x₀ y₀ x₁ y₁ x₁ := line_mono (hleft.trans h) hy h.le
      _ = y₁ := line_right (hleft.trans h)

lemma segment_mono (hy : y₀ ≤ y₁) (h : x ≤ x') (h' : x' < x₁) :
    (if x ≤ x₀ then y₀ else line x₀ y₀ x₁ y₁ x) ≤
      if x' ≤ x₀ then y₀ else line x₀ y₀ x₁ y₁ x' := by
  by_cases hleft' : x' ≤ x₀
  · rw [if_pos hleft', if_pos (h.trans hleft')]
  · rw [if_neg hleft']
    rw [not_le] at hleft'
    split_ifs with hleft
    · calc y₀ = line x₀ y₀ x₁ y₁ x₀ := line_left.symm
        _ ≤ line x₀ y₀ x₁ y₁ x' := line_mono (hleft'.trans h') hy hleft'.le
    · exact line_mono (hleft'.trans h') hy h

/-- Through ascending points the function is monotone. -/
theorem interpolate_mono (hpoints : Ascending points) (h : x ≤ x') :
    interpolate x points ≤ interpolate x' points := by
  induction points with
  | nil => exact le_rfl
  | cons point points ih =>
    cases points with
    | nil => exact le_rfl
    | cons next points =>
      obtain ⟨x₀, y₀⟩ := point
      obtain ⟨x₁, y₁⟩ := next
      obtain ⟨hfirst, hrest⟩ := List.pairwise_cons.mp hpoints
      have hy : y₀ ≤ y₁ := (hfirst (x₁, y₁) (by simp)).2
      rw [interpolate, interpolate]
      by_cases hright' : x' < x₁
      · rw [if_pos (h.trans_lt hright'), if_pos hright']
        exact segment_mono hy h hright'
      · rw [if_neg hright']
        by_cases hright : x < x₁
        · rw [if_pos hright]
          exact (segment_le hy hright).trans (le_interpolate hrest x')
        · rw [if_neg hright]
          exact ih hrest

omit [IsStrictOrderedRing K] in
/-- Where the places are distinct the function goes through the points. -/
theorem interpolate_knot (hpoints : points.Pairwise fun p q => p.1 < q.1) {point : K × K}
    (hpoint : point ∈ points) : interpolate point.1 points = point.2 := by
  induction points with
  | nil => cases hpoint
  | cons first points ih =>
    cases points with
    | nil =>
      rw [List.mem_singleton.mp hpoint]
      rfl
    | cons next points =>
      obtain ⟨x₀, y₀⟩ := first
      obtain ⟨x₁, y₁⟩ := next
      obtain ⟨hfirst, hrest⟩ := List.pairwise_cons.mp hpoints
      rw [interpolate]
      rcases List.mem_cons.mp hpoint with rfl | hpoint
      · rw [if_pos (hfirst (x₁, y₁) (by simp)), if_pos le_rfl]
      · have hright : x₁ ≤ point.1 := by
          rcases List.mem_cons.mp hpoint with rfl | hpoint
          · exact le_rfl
          · exact ((List.pairwise_cons.mp hrest).1 point hpoint).le
        rw [if_neg hright.not_gt]
        exact ih hrest hpoint

end Interpolation
