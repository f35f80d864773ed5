import Mathlib.Algebra.Order.BigOperators.Group.List
import Mathlib.Tactic

/-!
# Weighted means

The mean of values with weights, as a list that grows at its end. One more part moves the mean by the
weighted step of a running average (`mean_append_singleton`), and a mean with positive weights lies
between two of its values (`exists_le_mean`, `exists_mean_le`). It does not fall when larger values come
after (`mean_le_mean_append`), and is the harmonic mean only of equal ones (`eq_mean_of_harmonic`).
-/

namespace Weighted

variable {K : Type*} [Field K]

/-- The sum of the weights; a part is a weight with its value. -/
def weight (parts : List (K × K)) : K := (parts.map (·.1)).sum

/-- The weighted sum of the values. -/
def total (parts : List (K × K)) : K := (parts.map fun part => part.1 * part.2).sum

def mean (parts : List (K × K)) : K := total parts / weight parts

variable {parts : List (K × K)} {w x : K}

@[simp] lemma weight_nil : weight ([] : List (K × K)) = 0 := rfl

@[simp] lemma total_nil : total ([] : List (K × K)) = 0 := rfl

@[simp] lemma weight_cons (part : K × K) (parts : List (K × K)) :
    weight (part :: parts) = part.1 + weight parts := by
  rw [weight, List.map_cons, List.sum_cons, weight]

@[simp] lemma total_cons (part : K × K) (parts : List (K × K)) :
    total (part :: parts) = part.1 * part.2 + total parts := by
  rw [total, List.map_cons, List.sum_cons, total]

@[simp] lemma weight_append (parts parts' : List (K × K)) :
    weight (parts ++ parts') = weight parts + weight parts' := by
  simp [weight]

@[simp] lemma total_append (parts parts' : List (K × K)) :
    total (parts ++ parts') = total parts + total parts' := by
  simp [total]

lemma weight_append_singleton (parts : List (K × K)) (w x : K) :
    weight (parts ++ [(w, x)]) = weight parts + w := by
  simp

lemma mean_mul_weight (h : weight parts ≠ 0) : mean parts * weight parts = total parts :=
  div_mul_cancel₀ _ h

lemma mean_singleton (hw : w ≠ 0) (x : K) : mean [(w, x)] = x := by
  simp [mean, hw]

/-- A running average: the old mean counts with the old weight. -/
lemma mean_append_singleton (h : weight parts ≠ 0) (w x : K) :
    mean (parts ++ [(w, x)]) = (mean parts * weight parts + x * w) / (weight parts + w) := by
  rw [mean_mul_weight h, mean]
  simp [mul_comm]

/-- The order of the parts does not matter. -/
lemma mean_perm {parts' : List (K × K)} (h : parts.Perm parts') : mean parts = mean parts' := by
  rw [mean, mean, total, total, weight, weight, (h.map _).sum_eq, (h.map _).sum_eq]

/-- Only the ratios of the weights matter. -/
lemma mean_map_mul {c : K} (hc : c ≠ 0) (parts : List (K × K)) :
    mean (parts.map fun part => (c * part.1, part.2)) = mean parts := by
  have hweight : weight (parts.map fun part => (c * part.1, part.2)) = c * weight parts := by
    rw [weight, List.map_map, weight, ← List.sum_map_mul_left]
    rfl
  have htotal : total (parts.map fun part => (c * part.1, part.2)) = c * total parts := by
    rw [total, List.map_map, total, ← List.sum_map_mul_left]
    simp [Function.comp_def, mul_assoc]
  rw [mean, htotal, hweight, mul_div_mul_left _ _ hc, mean]

@[simp] lemma weight_compl (c : K) (parts : List (K × K)) :
    weight (parts.map fun part => (part.1, c - part.2)) = weight parts := by
  rw [weight, List.map_map, weight]
  rfl

lemma total_compl (c : K) (parts : List (K × K)) :
    total (parts.map fun part => (part.1, c - part.2)) = c * weight parts - total parts := by
  induction parts with
  | nil => simp
  | cons part parts ih =>
    rw [List.map_cons, total_cons, total_cons, weight_cons, ih]
    ring

/-- The mean of the complements. -/
lemma mean_compl (c : K) (h : weight parts ≠ 0) :
    mean (parts.map fun part => (part.1, c - part.2)) = c - mean parts := by
  rw [mean, total_compl, weight_compl, sub_div, mul_div_cancel_right₀ c h, mean]

/-! ### Shares -/

/-- The weights by value, together. -/
def shares (parts : List (K × K)) : K := (parts.map fun part => part.1 / part.2).sum

@[simp] lemma shares_nil : shares ([] : List (K × K)) = 0 := rfl

@[simp] lemma shares_cons (part : K × K) (parts : List (K × K)) :
    shares (part :: parts) = part.1 / part.2 + shares parts := by
  rw [shares, List.map_cons, List.sum_cons, shares]

/-- The shares as weights of the values. -/
lemma weight_map_shares (parts : List (K × K)) :
    weight (parts.map fun part => (part.1 / part.2, part.2)) = shares parts := by
  rw [weight, List.map_map, shares]
  rfl

lemma total_map_shares (hne : ∀ part ∈ parts, part.2 ≠ 0) :
    total (parts.map fun part => (part.1 / part.2, part.2)) = weight parts := by
  rw [total, List.map_map, weight]
  exact congrArg List.sum (List.map_congr_left fun part hpart => div_mul_cancel₀ _ (hne part hpart))

/-- The squared distances from `c`, with the shares as weights. -/
lemma total_sq_sub (hne : ∀ part ∈ parts, part.2 ≠ 0) (c : K) :
    total (parts.map fun part => (part.1 / part.2, (part.2 - c) ^ 2)) =
      total parts - 2 * c * weight parts + c ^ 2 * shares parts := by
  induction parts with
  | nil => simp
  | cons part parts ih =>
    simp only [List.forall_mem_cons] at hne
    have hpart := hne.1
    rw [List.map_cons, total_cons, ih hne.2, total_cons, weight_cons, shares_cons]
    field_simp
    ring

lemma total_eq_of_forall_eq {c : K} (heq : ∀ part ∈ parts, part.2 = c) :
    total parts = c * weight parts := by
  induction parts with
  | nil => simp
  | cons part parts ih =>
    simp only [List.forall_mem_cons] at heq
    rw [total_cons, weight_cons, ih heq.2, heq.1]
    ring

/-- The shares of parts of one value. -/
lemma shares_eq_of_forall_eq {c : K} (heq : ∀ part ∈ parts, part.2 = c) :
    shares parts = weight parts / c := by
  induction parts with
  | nil => simp
  | cons part parts ih =>
    simp only [List.forall_mem_cons] at heq
    rw [shares_cons, weight_cons, ih heq.2, heq.1, add_div]

/-! ### Means and values -/

variable [LinearOrder K] [IsStrictOrderedRing K]

lemma weight_nonneg (hpos : ∀ part ∈ parts, 0 < part.1) : 0 ≤ weight parts := by
  refine List.sum_nonneg fun w hw => ?_
  obtain ⟨part, hpart, rfl⟩ := List.mem_map.mp hw
  exact (hpos part hpart).le

lemma weight_pos (hpos : ∀ part ∈ parts, 0 < part.1) (hne : parts ≠ []) : 0 < weight parts := by
  cases parts with
  | nil => exact absurd rfl hne
  | cons part parts =>
    have hrest : 0 ≤ weight parts := weight_nonneg fun p hp => hpos p (List.mem_cons_of_mem _ hp)
    rw [weight_cons]
    exact add_pos_of_pos_of_nonneg (hpos part List.mem_cons_self) hrest

/-- The mean as the common value of all parts. -/
lemma sum_mean (hpos : ∀ part ∈ parts, 0 < part.1) (hne : parts ≠ []) :
    (parts.map fun part => part.1 * mean parts).sum = total parts := by
  rw [List.sum_map_mul_right, mul_comm]
  exact mean_mul_weight (weight_pos hpos hne).ne'

/-- Not all values are above the mean. -/
lemma exists_le_mean (hpos : ∀ part ∈ parts, 0 < part.1) (hne : parts ≠ []) :
    ∃ part ∈ parts, part.2 ≤ mean parts := by
  obtain ⟨part, hpart, hle⟩ := List.exists_le_of_sum_le hne (fun part => part.1 * part.2)
    (fun part => part.1 * mean parts) (sum_mean hpos hne).ge
  exact ⟨part, hpart, le_of_mul_le_mul_left hle (hpos part hpart)⟩

/-- Not all values are below the mean. -/
lemma exists_mean_le (hpos : ∀ part ∈ parts, 0 < part.1) (hne : parts ≠ []) :
    ∃ part ∈ parts, mean parts ≤ part.2 := by
  obtain ⟨part, hpart, hle⟩ := List.exists_le_of_sum_le hne (fun part => part.1 * mean parts)
    (fun part => part.1 * part.2) (sum_mean hpos hne).le
  exact ⟨part, hpart, le_of_mul_le_mul_left hle (hpos part hpart)⟩

/-! ### Bounds for the values -/

variable {parts' : List (K × K)} {c : K}

lemma total_le (hpos : ∀ part ∈ parts, 0 < part.1) (hle : ∀ part ∈ parts, part.2 ≤ c) :
    total parts ≤ c * weight parts := by
  induction parts with
  | nil => simp
  | cons part parts ih =>
    simp only [List.forall_mem_cons] at hpos hle
    have hrest := ih hpos.2 hle.2
    have hfirst : part.1 * part.2 ≤ c * part.1 :=
      (mul_le_mul_of_nonneg_left hle.1 hpos.1.le).trans_eq (mul_comm _ _)
    rw [total_cons, weight_cons]
    linarith

lemma le_total (hpos : ∀ part ∈ parts, 0 < part.1) (hle : ∀ part ∈ parts, c ≤ part.2) :
    c * weight parts ≤ total parts := by
  induction parts with
  | nil => simp
  | cons part parts ih =>
    simp only [List.forall_mem_cons] at hpos hle
    have hrest := ih hpos.2 hle.2
    have hfirst : c * part.1 ≤ part.1 * part.2 :=
      (mul_comm _ _).trans_le (mul_le_mul_of_nonneg_left hle.1 hpos.1.le)
    rw [total_cons, weight_cons]
    linarith

lemma mean_le (hpos : ∀ part ∈ parts, 0 < part.1) (hne : parts ≠ [])
    (hle : ∀ part ∈ parts, part.2 ≤ c) : mean parts ≤ c :=
  (div_le_iff₀ (weight_pos hpos hne)).mpr (total_le hpos hle)

lemma le_mean (hpos : ∀ part ∈ parts, 0 < part.1) (hne : parts ≠ [])
    (hle : ∀ part ∈ parts, c ≤ part.2) : c ≤ mean parts :=
  (le_div_iff₀ (weight_pos hpos hne)).mpr (le_total hpos hle)

/-- The mean of the values that come first is not above the values that come after them. -/
lemma mean_le_of_later (hpos : ∀ part ∈ parts, 0 < part.1) (hne : parts ≠ [])
    (hlater : ∀ part ∈ parts, ∀ later ∈ parts', part.2 ≤ later.2) :
    ∀ later ∈ parts', mean parts ≤ later.2 :=
  fun later hmem => mean_le hpos hne fun part hpart => hlater part hpart later hmem

/-- More parts with values that are not smaller do not lower the mean. -/
lemma mean_le_mean_append (hpos : ∀ part ∈ parts, 0 < part.1) (hne : parts ≠ [])
    (hpos' : ∀ part ∈ parts', 0 < part.1)
    (hlater : ∀ part ∈ parts, ∀ later ∈ parts', part.2 ≤ later.2) :
    mean parts ≤ mean (parts ++ parts') := by
  have hweight : 0 < weight parts := weight_pos hpos hne
  have htotal := le_total hpos' (mean_le_of_later hpos hne hlater)
  have hall : 0 < weight parts + weight parts' := add_pos_of_pos_of_nonneg hweight (weight_nonneg hpos')
  have hmean : mean (parts ++ parts') = (total parts + total parts') / (weight parts + weight parts') := by
    simp [mean]
  rw [hmean, le_div_iff₀ hall, mul_add, mean_mul_weight hweight.ne']
  linarith

/-- Values that are at least `c`, and `c` on the whole, are all `c`. -/
lemma eq_of_total_eq (hpos : ∀ part ∈ parts, 0 < part.1) (hle : ∀ part ∈ parts, c ≤ part.2)
    (htotal : total parts = c * weight parts) : ∀ part ∈ parts, part.2 = c := by
  induction parts with
  | nil => simp
  | cons part parts ih =>
    simp only [List.forall_mem_cons] at hpos hle ⊢
    rw [total_cons, weight_cons] at htotal
    have hrest := le_total hpos.2 hle.2
    have hfirst : part.1 * c ≤ part.1 * part.2 := mul_le_mul_of_nonneg_left hle.1 hpos.1.le
    have heq : part.1 * part.2 = part.1 * c := by linarith
    exact ⟨mul_left_cancel₀ hpos.1.ne' heq, ih hpos.2 hle.2 (by linarith)⟩

/-- Values that are at most `c`, and `c` on the whole, are all `c`. -/
lemma eq_of_total_eq' (hpos : ∀ part ∈ parts, 0 < part.1) (hle : ∀ part ∈ parts, part.2 ≤ c)
    (htotal : total parts = c * weight parts) : ∀ part ∈ parts, part.2 = c := by
  have hcompl : ∀ part ∈ parts.map fun part => (part.1, c - part.2), part.2 = 0 := by
    apply eq_of_total_eq
    · exact List.forall_mem_map.mpr hpos
    · exact List.forall_mem_map.mpr fun part hpart => sub_nonneg.mpr (hle part hpart)
    · rw [total_compl, htotal, sub_self, zero_mul]
  exact fun part hpart => (sub_eq_zero.mp (List.forall_mem_map.mp hcompl part hpart)).symm

/-- More parts with values that are not smaller leave the mean alone only if it is the value of them
all. -/
lemma eq_mean_of_mean_append_eq (hpos : ∀ part ∈ parts, 0 < part.1) (hne : parts ≠ [])
    (hpos' : ∀ part ∈ parts', 0 < part.1) (hne' : parts' ≠ [])
    (hlater : ∀ part ∈ parts, ∀ later ∈ parts', part.2 ≤ later.2)
    (heq : mean parts = mean (parts ++ parts')) :
    ∀ part ∈ parts, part.2 = mean parts := by
  have hweight : 0 < weight parts := weight_pos hpos hne
  have hweight' : 0 < weight parts' := weight_pos hpos' hne'
  have htotal : total parts' = mean parts * weight parts' := by
    have hne'' : weight (parts ++ parts') ≠ 0 := by
      rw [weight_append]
      exact (add_pos hweight hweight').ne'
    have hall := mean_mul_weight hne''
    rw [← heq, weight_append, total_append, mul_add, mean_mul_weight hweight.ne'] at hall
    exact (add_left_cancel hall).symm
  have hlater' := eq_of_total_eq hpos' (mean_le_of_later hpos hne hlater) htotal
  obtain ⟨later, hmem⟩ := List.exists_mem_of_ne_nil parts' hne'
  refine eq_of_total_eq' hpos (fun part hpart => ?_) (mean_mul_weight hweight.ne').symm
  exact (hlater part hpart later hmem).trans_eq (hlater' later hmem)

/-! ### Harmonic means -/

/-- The mean is the harmonic mean only if it is the value of all parts. -/
lemma eq_mean_of_harmonic (hpos : ∀ part ∈ parts, 0 < part.1) (hvalues : ∀ part ∈ parts, 0 < part.2)
    (hne : parts ≠ []) (heq : mean parts = weight parts / shares parts) :
    ∀ part ∈ parts, part.2 = mean parts := by
  have hweight : 0 < weight parts := weight_pos hpos hne
  have hshares : shares parts ≠ 0 := by
    intro hzero
    rw [hzero, div_zero, mean, div_eq_zero_iff, or_iff_left hweight.ne'] at heq
    obtain ⟨low, hlow, hle⟩ := exists_le_mean hpos hne
    rw [mean, heq, zero_div] at hle
    exact absurd (hvalues low hlow) hle.not_gt
  have hharmonic : mean parts * shares parts = weight parts := by
    rw [heq, div_mul_cancel₀ _ hshares]
  have hsquares : ∀ part ∈ parts.map fun part => (part.1 / part.2, (part.2 - mean parts) ^ 2),
      part.2 = 0 := by
    apply eq_of_total_eq
    · exact List.forall_mem_map.mpr fun part hpart => div_pos (hpos part hpart) (hvalues part hpart)
    · exact List.forall_mem_map.mpr fun part _ => sq_nonneg _
    · rw [total_sq_sub fun part hpart => (hvalues part hpart).ne', zero_mul,
        ← mean_mul_weight hweight.ne', sq, mul_assoc (mean parts), hharmonic]
      ring
  exact fun part hpart =>
    sub_eq_zero.mp (pow_eq_zero_iff two_ne_zero |>.mp (List.forall_mem_map.mp hsquares part hpart))

/-- Parts of one value have it as their mean. -/
lemma mean_eq_of_forall_eq (hpos : ∀ part ∈ parts, 0 < part.1) (hne : parts ≠ [])
    (heq : ∀ part ∈ parts, part.2 = c) : mean parts = c := by
  rw [mean, total_eq_of_forall_eq heq, mul_div_cancel_right₀ _ (weight_pos hpos hne).ne']

/-! ### Weights that favour some of the values -/

/-- Weights that favour the smaller ones of positive values do not raise the mean. -/
lemma mean_favouring_le {g : K → K} (hpos : ∀ part ∈ parts, 0 < part.1)
    (hvalues : ∀ part ∈ parts, 0 < part.2) (hne : parts ≠ []) (hg : ∀ x, 0 < x → 0 < g x)
    (hanti : ∀ x y, 0 < x → x ≤ y → g y ≤ g x) :
    mean (parts.map fun part => (part.1 * g part.2, part.2)) ≤ mean parts := by
  have hmean : 0 < mean parts := by
    obtain ⟨part, hpart, hle⟩ := exists_le_mean hpos hne
    exact (hvalues part hpart).trans_le hle
  have hfavoured : 0 < weight (parts.map fun part => (part.1 * g part.2, part.2)) := by
    apply weight_pos _ (by simpa using hne)
    exact List.forall_mem_map.mpr fun part hpart => mul_pos (hpos part hpart) (hg _ (hvalues part hpart))
  have hcentred : total (parts.map fun part => (part.1, mean parts - part.2)) = 0 := by
    rw [total_compl, mean_mul_weight (weight_pos hpos hne).ne', sub_self]
  -- where a value is above the mean its factor is below that of the mean, and the other way round
  have hpart : ∀ part ∈ parts, g (mean parts) * (part.1 * (mean parts - part.2)) ≤
      part.1 * g part.2 * (mean parts - part.2) := by
    intro part hpart
    rw [mul_left_comm, mul_assoc]
    apply mul_le_mul_of_nonneg_left _ (hpos part hpart).le
    rcases LinearOrder.le_total (mean parts) part.2 with hle | hle
    · exact mul_le_mul_of_nonpos_right (hanti _ _ hmean hle) (sub_nonpos.mpr hle)
    · exact mul_le_mul_of_nonneg_right (hanti _ _ (hvalues part hpart) hle) (sub_nonneg.mpr hle)
  have hnonneg : 0 ≤ total ((parts.map fun part => (part.1 * g part.2, part.2)).map
      fun part => (part.1, mean parts - part.2)) := by
    calc (0 : K) = (parts.map fun part => g (mean parts) * (part.1 * (mean parts - part.2))).sum := by
          rw [List.sum_map_mul_left, ← mul_zero (g (mean parts)), ← hcentred, total, List.map_map]
          rfl
      _ ≤ (parts.map fun part => part.1 * g part.2 * (mean parts - part.2)).sum := List.sum_le_sum hpart
      _ = _ := by
          rw [total, List.map_map, List.map_map]
          rfl
  rw [total_compl, sub_nonneg] at hnonneg
  rwa [mean, div_le_iff₀ hfavoured]

end Weighted
