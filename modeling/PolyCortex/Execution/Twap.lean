import Mathlib.Data.List.ModifyLast
import PolyCortex.Numeric.Rounding

/-!
# TWAP orders

`TWAPOrder` splits an order into slices of about the same size, each rounded to cents; the last one
takes up the difference. It does so also when the others, rounded up, are more than the order: then
it has a size below zero. Whether that can happen is a matter of the largest slice (`partitions_iff`).
The clock is left out, and so are the fills.
-/

namespace PolyCortex

open Rounding

/-- A child order; its fill is left out. -/
structure TWAPSlice where
  sliceId : String
  sliceNumber : ℕ
  tokenId : String
  side : String
  size : ℚ
  priceLimit : ℚ
  deriving DecidableEq, Repr

/-- The fields an order is made of. -/
structure TWAPOrder where
  orderId : String
  tokenId : String
  side : String
  totalSize : ℚ
  priceLimit : ℚ
  numSlices : ℕ := 10
  randomizeSize : Bool := false

namespace TWAPOrder

variable {o : TWAPOrder} {draws : ℕ → ℚ}

def baseSize (o : TWAPOrder) : ℚ := o.totalSize / o.numSlices

/-- The rounded size of a slice, with what `random.random()` gives for it. -/
def sliceSize (o : TWAPOrder) (draws : ℕ → ℚ) (i : ℕ) : ℚ :=
  roundTo 2
    (if o.randomizeSize then o.baseSize * (8 / 10 + draws i * (4 / 10)) else o.baseSize)

def slice (o : TWAPOrder) (draws : ℕ → ℚ) (i : ℕ) : TWAPSlice where
  sliceId := s!"{o.orderId}-s{i}"
  sliceNumber := i
  tokenId := o.tokenId
  side := o.side
  size := o.sliceSize draws i
  priceLimit := o.priceLimit

/-- `_build_slices`. -/
def buildSlices (o : TWAPOrder) (draws : ℕ → ℚ) : List TWAPSlice :=
  let slices := (List.range o.numSlices).map (o.slice draws)
  let currentTotal := (slices.map (·.size)).sum
  let diff := o.totalSize - currentTotal
  slices.modifyLast fun last => { last with size := roundTo 2 (last.size + diff) }

/-- The slices have positive sizes that add up to the order. -/
structure Partitions (o : TWAPOrder) (slices : List TWAPSlice) : Prop where
  pos : ∀ slice ∈ slices, 0 < slice.size
  sum_eq : (slices.map (·.size)).sum = o.totalSize

/-- A size in whole cents that has at least one for each slice. -/
structure Divisible (o : TWAPOrder) : Prop where
  onGrid : OnGrid 2 o.totalSize
  numSlices_pos : 1 ≤ o.numSlices
  cents_le : (o.numSlices : ℚ) / 100 ≤ o.totalSize

/-- What `random.random()` may give. -/
def ValidDraws (draws : ℕ → ℚ) : Prop := ∀ i, 0 ≤ draws i ∧ draws i < 1

/-- The largest rounded size of a slice. With random sizes it is 1.2 times the base size, rounded to the
nearest cent, and down from a tie: no draw comes to 1. -/
def largestSlice (o : TWAPOrder) : ℚ :=
  if o.randomizeSize then ⌈o.baseSize * 120 - 1 / 2⌉ / 100 else roundTo 2 o.baseSize

/-- The sizes of all slices but the last. -/
def firstSizes (o : TWAPOrder) (draws : ℕ → ℚ) : List ℚ :=
  (List.range (o.numSlices - 1)).map (o.sliceSize draws)

lemma Divisible.le_baseSize (h : o.Divisible) : 1 / 100 ≤ o.baseSize := by
  have hslices : (0 : ℚ) < o.numSlices := by exact_mod_cast h.numSlices_pos
  rw [baseSize, le_div_iff₀ hslices]
  linarith [h.cents_le]

/-- A slice is never rounded to nothing. -/
lemma sliceSize_pos (h : o.Divisible) (hdraws : ValidDraws draws) (i : ℕ) :
    0 < o.sliceSize draws i := by
  have hbase := h.le_baseSize
  have hsize : 8 / 1000 ≤
      if o.randomizeSize then o.baseSize * (8 / 10 + draws i * (4 / 10)) else o.baseSize := by
    split_ifs
    · nlinarith [(hdraws i).1]
    · linarith
  have hcent : (0 : ℚ) < roundTo 2 (8 / 1000) := by decide +kernel
  exact hcent.trans_le (roundTo_mono hsize)

/-- The last slice is what the others leave of the order. -/
lemma buildSlices_eq (h : o.Divisible) :
    o.buildSlices draws = (List.range (o.numSlices - 1)).map (o.slice draws) ++
      [{ o.slice draws (o.numSlices - 1) with size := o.totalSize - (o.firstSizes draws).sum }] := by
  have hcount : o.numSlices = o.numSlices - 1 + 1 := (Nat.sub_add_cancel h.numSlices_pos).symm
  have hgrid : OnGrid 2 (o.totalSize - (o.firstSizes draws).sum) :=
    h.onGrid.sub (onGrid_sum (List.forall_mem_map.mpr fun i _ => onGrid_roundTo _))
  have hsizes : ((List.range (o.numSlices - 1)).map (o.slice draws)).map (·.size) =
      o.firstSizes draws := List.map_map
  have hrest : (o.slice draws (o.numSlices - 1)).size + (o.totalSize -
      ((o.firstSizes draws).sum + (o.slice draws (o.numSlices - 1)).size)) =
      o.totalSize - (o.firstSizes draws).sum := by ring
  rw [buildSlices, hcount, List.range_succ, List.map_append, List.map_singleton,
    List.modifyLast_concat, ← hcount]
  simp only [List.map_append, hsizes, List.map_singleton, List.sum_append, List.sum_singleton, hrest,
    hgrid.roundTo_eq]

/-- The slices partition the order just when the rounded sizes of all but the last do not come to all
of it. -/
lemma partitions_iff_sum_lt (h : o.Divisible) (hdraws : ValidDraws draws) :
    o.Partitions (o.buildSlices draws) ↔ (o.firstSizes draws).sum < o.totalSize := by
  have hsizes : ((List.range (o.numSlices - 1)).map (o.slice draws)).map (·.size) =
      o.firstSizes draws := List.map_map
  rw [buildSlices_eq h]
  constructor
  · intro hpartitions
    exact sub_pos.mp (hpartitions.pos _ (List.mem_append_right _ (List.mem_singleton_self _)))
  · intro hlt
    constructor
    case pos =>
      intro slice hslice
      rcases List.mem_append.mp hslice with hfirst | hlast
      · obtain ⟨i, -, rfl⟩ := List.mem_map.mp hfirst
        exact sliceSize_pos h hdraws i
      · obtain rfl := List.mem_singleton.mp hlast
        exact sub_pos.mpr hlt
    case sum_eq =>
      rw [List.map_append, hsizes]
      simp

/-! ### The largest slice -/

/-- The rounded size of a slice with a draw, in cents. -/
lemma sliceSize_of_random (hrandom : o.randomizeSize = true) (i : ℕ) :
    o.sliceSize draws i = roundHalfEven (o.baseSize * 120 - o.baseSize * 40 * (1 - draws i)) / 100 := by
  have hcents : o.baseSize * (8 / 10 + draws i * (4 / 10)) * 10 ^ 2 =
      o.baseSize * 120 - o.baseSize * 40 * (1 - draws i) := by ring
  rw [sliceSize, if_pos hrandom, roundTo, hcents]
  norm_num

lemma sliceSize_le_largestSlice (h : o.Divisible) (hdraws : ValidDraws draws) (i : ℕ) :
    o.sliceSize draws i ≤ o.largestSlice := by
  by_cases hrandom : o.randomizeSize = true
  · have hbase := h.le_baseSize
    have hbelow : 0 < o.baseSize * 40 * (1 - draws i) :=
      mul_pos (by linarith) (sub_pos.mpr (hdraws i).2)
    have hround : roundHalfEven (o.baseSize * 120 - o.baseSize * 40 * (1 - draws i)) ≤
        ⌈o.baseSize * 120 - 1 / 2⌉ := by
      apply roundHalfEven_le_of_lt
      linarith [Int.le_ceil (o.baseSize * 120 - 1 / 2)]
    rw [sliceSize_of_random hrandom, largestSlice, if_pos hrandom]
    exact div_le_div_of_nonneg_right (by exact_mod_cast hround) (by norm_num)
  · rw [sliceSize, if_neg hrandom, largestSlice, if_neg hrandom]

/-- With a draw that is close to 1, every slice is as large as it can be. -/
lemma exists_sliceSize_eq_largestSlice (h : o.Divisible) :
    ∃ draws, ValidDraws draws ∧ ∀ i, o.sliceSize draws i = o.largestSlice := by
  by_cases hrandom : o.randomizeSize = true
  · have hbase : 0 < o.baseSize := by linarith [h.le_baseSize]
    -- the draw that goes half of the way from the last tie to 1.2 times the base size
    set way := o.baseSize * 120 - (⌈o.baseSize * 120 - 1 / 2⌉ - 1 / 2) with hway
    have hpos : 0 < way := by linarith [Int.ceil_lt_add_one (o.baseSize * 120 - 1 / 2)]
    have hdraw : max 0 (1 - way / (o.baseSize * 80)) < 1 :=
      max_lt one_pos (sub_lt_self 1 (div_pos hpos (by linarith)))
    have hvalid : ValidDraws fun _ => max 0 (1 - way / (o.baseSize * 80)) :=
      fun _ => ⟨le_max_left _ _, hdraw⟩
    refine ⟨_, hvalid, fun i => ?_⟩
    apply le_antisymm (sliceSize_le_largestSlice h hvalid i)
    have hhalf : o.baseSize * 40 * (1 - max 0 (1 - way / (o.baseSize * 80))) ≤ way / 2 := by
      have hle : 1 - max 0 (1 - way / (o.baseSize * 80)) ≤ way / (o.baseSize * 80) := by
        linarith [le_max_right 0 (1 - way / (o.baseSize * 80))]
      have hscaled := mul_le_mul_of_nonneg_left hle (by linarith : 0 ≤ o.baseSize * 40)
      have hcancel : o.baseSize * 40 * (way / (o.baseSize * 80)) = way / 2 := by
        field_simp
        norm_num
      linarith
    have hround : ⌈o.baseSize * 120 - 1 / 2⌉ ≤ roundHalfEven
        (o.baseSize * 120 - o.baseSize * 40 * (1 - max 0 (1 - way / (o.baseSize * 80)))) := by
      apply le_roundHalfEven_of_lt
      linarith
    rw [sliceSize_of_random hrandom, largestSlice, if_pos hrandom]
    exact div_le_div_of_nonneg_right (by exact_mod_cast hround) (by norm_num)
  · refine ⟨fun _ => 0, fun _ => ⟨le_rfl, one_pos⟩, fun i => ?_⟩
    rw [sliceSize, if_neg hrandom, largestSlice, if_neg hrandom]

/-- With all draws the slices partition the order just when the largest slices, all but the last, do not
come to all of it. -/
lemma forall_partitions_iff (h : o.Divisible) :
    (∀ draws, ValidDraws draws → o.Partitions (o.buildSlices draws)) ↔
      (o.numSlices - 1) * o.largestSlice < o.totalSize := by
  have hcount : ((o.numSlices - 1 : ℕ) : ℚ) = o.numSlices - 1 := by
    rw [Nat.cast_sub h.numSlices_pos, Nat.cast_one]
  rw [← hcount]
  constructor
  · intro hall
    obtain ⟨draws, hdraws, hlargest⟩ := exists_sliceSize_eq_largestSlice h
    have hlt := (partitions_iff_sum_lt h hdraws).mp (hall draws hdraws)
    have hsum : (o.firstSizes draws).sum = (o.numSlices - 1 : ℕ) * o.largestSlice := by
      simp [firstSizes, funext hlargest]
    rwa [hsum] at hlt
  · intro hlt draws hdraws
    rw [partitions_iff_sum_lt h hdraws]
    have hbound := List.sum_le_card_nsmul (o.firstSizes draws) o.largestSlice
      (List.forall_mem_map.mpr fun i _ => sliceSize_le_largestSlice h hdraws i)
    rw [firstSizes, List.length_map, List.length_range, nsmul_eq_mul] at hbound
    exact hbound.trans_lt hlt

/-- 1.60 in a hundred slices: two cents each are more than that. -/
def hundredSlices : TWAPOrder where
  orderId := "twap-1"
  tokenId := "0xabc"
  side := "BUY"
  totalSize := 16 / 10
  priceLimit := 55 / 100
  numSlices := 100

lemma divisible_hundredSlices : hundredSlices.Divisible := by
  refine ⟨⟨160, ?_⟩, ?_, ?_⟩ <;> norm_num [hundredSlices]

end TWAPOrder
end PolyCortex
