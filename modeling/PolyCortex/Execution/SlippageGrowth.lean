import PolyCortex.Execution.SlippageGate

/-!
# Slippage and size

Who takes more of a side of the book goes on where a smaller order has stopped
(`takenParts_leftOver`), at prices that are not better. So the average price gets worse with the size,
the slippage does not shrink, and what is accepted for one size is accepted for every smaller one
(`slippage_grows`).
-/

namespace PolyCortex

open Rounding Weighted

variable {size more : ℚ} {levels bids asks : List Level} {side : Side}

/-! ### What is taken -/

lemma takenParts_of_nonpos (hsize : size ≤ 0) (levels : List Level) : takenParts size levels = [] := by
  cases levels with
  | nil => rfl
  | cons level levels => rw [takenParts, if_pos hsize]

lemma takenParts_ne_nil (hsize : 0 < size) (hne : levels ≠ []) : takenParts size levels ≠ [] := by
  obtain ⟨level, levels, rfl⟩ := List.exists_cons_of_ne_nil hne
  simp [takenParts, not_le.mpr hsize]

/-- A level that is met is taken, as far as it is needed. -/
lemma mem_takenParts (hsizes : ∀ level ∈ levels, 0 < level.2) {part : ℚ × ℚ}
    (hpart : part ∈ takenParts size levels) :
    0 < part.1 ∧ ∃ level ∈ levels, part.1 ≤ level.2 ∧ part.2 = level.1 := by
  induction levels generalizing size with
  | nil => cases hpart
  | cons level levels ih =>
    simp only [List.forall_mem_cons] at hsizes
    rw [takenParts] at hpart
    split_ifs at hpart with hdone
    · cases hpart
    · rcases List.mem_cons.mp hpart with rfl | hpart
      · exact ⟨lt_min (not_le.mp hdone) hsizes.1, level, List.mem_cons_self, min_le_right _ _, rfl⟩
      · obtain ⟨hpos, other, hother, hfacts⟩ := ih hsizes.2 hpart
        exact ⟨hpos, other, List.mem_cons_of_mem _ hother, hfacts⟩

/-- The parts are of the first levels, one of each. -/
lemma takenParts_prices (size : ℚ) (levels : List Level) :
    (takenParts size levels).map (·.2) =
      (levels.take (takenParts size levels).length).map (·.1) := by
  induction levels generalizing size with
  | nil => simp [takenParts]
  | cons level levels ih =>
    rw [takenParts]
    split_ifs with hdone
    · simp
    · simp [ih]

/-! ### What is left over -/

/-- The levels after some size was taken of them. -/
def leftOver : ℚ → List Level → List Level
  | _, [] => []
  | size, level :: levels =>
    if size < level.2 then (level.1, level.2 - size) :: levels
    else leftOver (size - level.2) levels

/-- What is left over is of levels of the side, at their prices. -/
lemma mem_leftOver (hsizes : ∀ level ∈ levels, 0 < level.2) {level : Level}
    (hlevel : level ∈ leftOver size levels) :
    0 < level.2 ∧ ∃ other ∈ levels, level.1 = other.1 := by
  induction levels generalizing size with
  | nil => cases hlevel
  | cons first levels ih =>
    simp only [List.forall_mem_cons] at hsizes
    rw [leftOver] at hlevel
    split_ifs at hlevel with hpart
    · rcases List.mem_cons.mp hlevel with rfl | hlevel
      · exact ⟨sub_pos.mpr hpart, first, List.mem_cons_self, rfl⟩
      · exact ⟨hsizes.2 level hlevel, level, List.mem_cons_of_mem _ hlevel, rfl⟩
    · obtain ⟨hpos, other, hother, hprice⟩ := ih hsizes.2 hlevel
      exact ⟨hpos, other, List.mem_cons_of_mem _ hother, hprice⟩

/-- The first level is taken, as far as it is needed, and the rest of the size from the others. -/
lemma takenParts_cons (hsize : 0 ≤ size) {level : Level} (hlevel : 0 < level.2)
    (levels : List Level) :
    weight (takenParts size (level :: levels)) =
        min size level.2 + weight (takenParts (size - min size level.2) levels) ∧
      total (takenParts size (level :: levels)) =
        min size level.2 * level.1 + total (takenParts (size - min size level.2) levels) := by
  rw [takenParts]
  split_ifs with hdone
  · obtain rfl : size = 0 := le_antisymm hdone hsize
    simp [min_eq_left hlevel.le, takenParts_of_nonpos]
  · simp

/-- Taking more is taking the rest of what is left over. -/
lemma takenParts_leftOver (hsizes : ∀ level ∈ levels, 0 < level.2) (hsize : 0 ≤ size)
    (hmore : size ≤ more) :
    weight (takenParts more levels) =
        weight (takenParts size levels) + weight (takenParts (more - size) (leftOver size levels)) ∧
      total (takenParts more levels) =
        total (takenParts size levels) + total (takenParts (more - size) (leftOver size levels)) := by
  induction levels generalizing size more with
  | nil => simp [takenParts, leftOver]
  | cons level levels ih =>
    simp only [List.forall_mem_cons] at hsizes
    obtain ⟨hweight, htotal⟩ := takenParts_cons (hsize.trans hmore) hsizes.1 levels
    obtain ⟨hweight', htotal'⟩ := takenParts_cons hsize hsizes.1 levels
    rw [leftOver, hweight, htotal, hweight', htotal']
    split_ifs with hpart
    · -- the level is taken in part, and gone on with
      have hlevel : 0 < ((level.1, level.2 - size) : Level).2 := sub_pos.mpr hpart
      obtain ⟨hweight'', htotal''⟩ := takenParts_cons (sub_nonneg.mpr hmore) hlevel levels
      have hmin : min (more - size) (level.2 - size) = min more level.2 - size :=
        min_sub_sub_right _ _ _
      have hnone : takenParts (size - size) levels = [] := takenParts_of_nonpos (sub_self size).le levels
      have hrest : more - size - (min more level.2 - size) = more - min more level.2 := by ring
      rw [hweight'', htotal'', hmin, min_eq_left hpart.le, hnone, hrest, weight_nil, total_nil]
      constructor <;> ring
    · have hfull : level.2 ≤ size := not_lt.mp hpart
      obtain ⟨ihweight, ihtotal⟩ :=
        ih hsizes.2 (sub_nonneg.mpr hfull) (sub_le_sub_right hmore level.2)
      rw [min_eq_right hfull, min_eq_right (hfull.trans hmore), ihweight, ihtotal,
        sub_sub_sub_cancel_right]
      constructor <;> ring

/-- What is left over is not better than what was taken. -/
lemma takenParts_le_leftOver (hsizes : ∀ level ∈ levels, 0 < level.2)
    (hsorted : levels.Pairwise fun a b => a.1 ≤ b.1) {part : ℚ × ℚ} {level : Level}
    (hpart : part ∈ takenParts size levels) (hlevel : level ∈ leftOver size levels) :
    part.2 ≤ level.1 := by
  induction levels generalizing size with
  | nil => cases hlevel
  | cons first levels ih =>
    simp only [List.forall_mem_cons] at hsizes
    obtain ⟨hfirst, hrest⟩ := List.pairwise_cons.mp hsorted
    rw [leftOver] at hlevel
    rw [takenParts] at hpart
    split_ifs at hpart with hdone
    · cases hpart
    · split_ifs at hlevel with hless
      · rw [min_eq_left hless.le, takenParts_of_nonpos (sub_self size).le, List.mem_singleton] at hpart
        subst hpart
        rcases List.mem_cons.mp hlevel with rfl | hlevel
        · exact le_rfl
        · exact hfirst level hlevel
      · rw [min_eq_right (not_lt.mp hless)] at hpart
        rcases List.mem_cons.mp hpart with rfl | hpart
        · obtain ⟨-, other, hother, hprice⟩ := mem_leftOver hsizes.2 hlevel
          exact hprice ▸ hfirst other hother
        · exact ih hsizes.2 hrest hpart hlevel

/-! ### The average price -/

lemma mean_takenParts (hsizes : ∀ level ∈ levels, 0 < level.2) (hsize : 0 ≤ size)
    (hmore : size ≤ more) :
    averageCost more levels =
      mean (takenParts size levels ++ takenParts (more - size) (leftOver size levels)) := by
  obtain ⟨hweight, htotal⟩ := takenParts_leftOver hsizes hsize hmore
  rw [averageCost, mean, mean, hweight, htotal, weight_append, total_append]

/-- From the cheapest level on, a larger size is not cheaper on average. -/
lemma averageCost_mono (hsizes : ∀ level ∈ levels, 0 < level.2) (hne : levels ≠ [])
    (hsorted : levels.Pairwise fun a b => a.1 ≤ b.1) (hsize : 0 < size) (hmore : size ≤ more) :
    averageCost size levels ≤ averageCost more levels := by
  rw [mean_takenParts hsizes hsize.le hmore]
  apply mean_le_mean_append
  · exact fun part hpart => (mem_takenParts hsizes hpart).1
  · exact takenParts_ne_nil hsize hne
  · exact fun part hpart =>
      (mem_takenParts (fun level hlevel => (mem_leftOver hsizes hlevel).1) hpart).1
  · intro part hpart later hlater
    obtain ⟨-, level, hlevel, -, hprice⟩ :=
      mem_takenParts (fun level hlevel => (mem_leftOver hsizes hlevel).1) hlater
    exact hprice ▸ takenParts_le_leftOver hsizes hsorted hpart hlevel

/-- From the dearest level on, a larger size does not bring more on average. -/
lemma averageCost_anti (hsizes : ∀ level ∈ levels, 0 < level.2) (hne : levels ≠ [])
    (hsorted : levels.Pairwise fun a b => b.1 ≤ a.1) (hsize : 0 < size) (hmore : size ≤ more) :
    averageCost more levels ≤ averageCost size levels := by
  have hsizes' : ∀ level ∈ levels.map Level.mirror, 0 < level.2 := List.forall_mem_map.mpr hsizes
  have hsorted' : (levels.map Level.mirror).Pairwise fun a b => a.1 ≤ b.1 := by
    rw [List.pairwise_map]
    exact hsorted.imp fun hle => sub_le_sub_left hle 1
  have hmirror := averageCost_mono hsizes' (by simpa using hne) hsorted' hsize hmore
  rw [averageCost_mirror hsizes hne hsize, averageCost_mirror hsizes hne (hsize.trans_le hmore)] at hmirror
  exact (sub_le_sub_iff_left 1).mp hmirror

lemma length_takenParts_le (size : ℚ) (levels : List Level) :
    (takenParts size levels).length ≤ levels.length := by
  have hlength := congrArg List.length (takenParts_prices size levels)
  simp only [List.length_map, List.length_take] at hlength
  omega

/-- What is paid is between the prices of the first and the last level that is met. -/
lemma takenParts_between {r : ℚ → ℚ → Prop} [Std.Refl r]
    (hsorted : levels.Pairwise fun a b => r a.1 b.1) (hsize : 0 < size) (hne : levels ≠ []) :
    ∃ best worst, levels.head? = some best ∧
      levels[(takenParts size levels).length - 1]? = some worst ∧
      ∀ part ∈ takenParts size levels, r best.1 part.2 ∧ r part.2 worst.1 := by
  have hlength := length_takenParts_le size levels
  have hmet : 0 < (takenParts size levels).length :=
    List.length_pos_iff.mpr (takenParts_ne_nil hsize hne)
  have hmono : ∀ i j (hj : j < levels.length) (hi : i ≤ j),
      r (levels.get ⟨i, by omega⟩).1 (levels.get ⟨j, hj⟩).1 := by
    intro i j hj hi
    rcases hi.eq_or_lt with rfl | hlt
    · exact Std.Refl.refl _
    · exact List.pairwise_iff_get.mp hsorted _ _ hlt
  refine ⟨levels.get ⟨0, by omega⟩, levels.get ⟨(takenParts size levels).length - 1, by omega⟩, ?_, ?_, ?_⟩
  · simp [List.head?_eq_getElem?]
  · simp
  · intro part hpart
    have hprice : part.2 ∈ (levels.take (takenParts size levels).length).map (·.1) := by
      rw [← takenParts_prices]
      exact List.mem_map_of_mem hpart
    obtain ⟨level, hlevel, hprice⟩ := List.mem_map.mp hprice
    obtain ⟨i, hi, rfl⟩ := List.mem_take_iff_getElem.mp hlevel
    rw [← hprice]
    exact ⟨hmono 0 i (by omega) (Nat.zero_le i), hmono i _ (by omega) (by omega)⟩

/-! ### The estimate -/

/-- Two sides with positive prices and sizes, the best levels first, that do not cross. -/
structure SortedBook (bids asks : List Level) : Prop where
  bids_ne : bids ≠ []
  asks_ne : asks ≠ []
  bids_pos : ∀ bid ∈ bids, 0 < bid.1 ∧ 0 < bid.2
  asks_pos : ∀ ask ∈ asks, 0 < ask.1 ∧ 0 < ask.2
  bids_sorted : bids.Pairwise fun a b => b.1 ≤ a.1
  asks_sorted : asks.Pairwise fun a b => a.1 ≤ b.1
  uncrossed : ∀ bid ∈ bids.head?, ∀ ask ∈ asks.head?, bid.1 ≤ ask.1

/-- The side of the book that an order consumes. -/
def takenSide (side : Side) (bids asks : List Level) : List Level :=
  match side with
  | .buy => asks
  | .sell => bids

/-- For the given side the price `p` is at least as good as `q`. -/
def Side.NoWorse (side : Side) (p q : ℚ) : Prop :=
  match side with
  | .buy => p ≤ q
  | .sell => q ≤ p

lemma sideSlippage_mono {midpoint p q : ℚ} (h : side.NoWorse p q) :
    sideSlippage side midpoint p ≤ sideSlippage side midpoint q := by
  apply roundTo_mono
  apply mul_le_mul_of_nonneg_right _ (by norm_num)
  split_ifs with hmid
  · cases side with
    | buy => exact div_le_div_of_nonneg_right (sub_le_sub_right h midpoint) hmid.le
    | sell => exact div_le_div_of_nonneg_right (sub_le_sub_left h midpoint) hmid.le
  · exact le_rfl

/-- At the midpoint nothing is lost. -/
lemma sideSlippage_midpoint (side : Side) (midpoint : ℚ) : sideSlippage side midpoint midpoint = 0 := by
  cases side <;> simp [sideSlippage]

namespace SortedBook

variable (h : SortedBook bids asks)
include h

lemma takenSide_ne (side : Side) : takenSide side bids asks ≠ [] := by
  cases side with
  | buy => exact h.asks_ne
  | sell => exact h.bids_ne

lemma takenSide_pos (side : Side) : ∀ level ∈ takenSide side bids asks, 0 < level.1 ∧ 0 < level.2 := by
  cases side with
  | buy => exact h.asks_pos
  | sell => exact h.bids_pos

lemma takenSide_sorted (side : Side) :
    (takenSide side bids asks).Pairwise fun a b => side.NoWorse a.1 b.1 := by
  cases side with
  | buy => exact h.asks_sorted
  | sell => exact h.bids_sorted

/-- The levels come in the order in which they are consumed. -/
lemma consumedSide_eq (side : Side) : consumedSide side bids asks = takenSide side bids asks := by
  cases side with
  | buy => exact h.asks_sorted.insertionSort_eq
  | sell => exact h.bids_sorted.insertionSort_eq

/-- The estimate of a positive size. -/
lemma estimate_eq (hsize : 0 < size) (side : Side) :
    estimateSlippage size side bids asks =
      { estimatedVwap := averageCost size (takenSide side bids asks)
        midpoint := midpointOf bids asks
        slippageBps := some
          (sideSlippage side (midpointOf bids asks) (averageCost size (takenSide side bids asks)))
        totalDepthUsdc :=
          roundTo 2 ((takenSide side bids asks).map fun level => level.1 * level.2).sum
        levelsConsumed := (takenParts size (takenSide side bids asks)).length
        sufficientLiquidity := size ≤ depthOf (takenSide side bids asks) } := by
  rw [← h.consumedSide_eq]
  refine estimateSlippage_eq h.bids_ne h.asks_ne (fun level hlevel => ?_) hsize
  rw [h.consumedSide_eq] at hlevel
  exact (h.takenSide_pos side level hlevel).2

lemma sizes_pos (side : Side) : ∀ level ∈ takenSide side bids asks, 0 < level.2 :=
  fun level hlevel => (h.takenSide_pos side level hlevel).2

/-- The average price gets worse with the size. -/
lemma noWorse_averageCost (side : Side) (hsize : 0 < size) (hmore : size ≤ more) :
    side.NoWorse (averageCost size (takenSide side bids asks))
      (averageCost more (takenSide side bids asks)) := by
  cases side with
  | buy => exact averageCost_mono (h.sizes_pos .buy) h.asks_ne h.asks_sorted hsize hmore
  | sell => exact averageCost_anti (h.sizes_pos .sell) h.bids_ne h.bids_sorted hsize hmore

/-- The best price is not better than the midpoint. -/
lemma noWorse_midpoint (side : Side) {best : Level}
    (hbest : (takenSide side bids asks).head? = some best) :
    side.NoWorse (midpointOf bids asks) best.1 := by
  obtain ⟨bid, bids', rfl⟩ := List.exists_cons_of_ne_nil h.bids_ne
  obtain ⟨ask, asks', rfl⟩ := List.exists_cons_of_ne_nil h.asks_ne
  have huncrossed : bid.1 ≤ ask.1 := h.uncrossed bid rfl ask rfl
  cases side with
  | buy =>
    obtain rfl : ask = best := Option.some.inj hbest
    have hmid : (bid.1 + ask.1) / 2 ≤ ask.1 := by linarith
    exact hmid
  | sell =>
    obtain rfl : bid = best := Option.some.inj hbest
    have hmid : bid.1 ≤ (bid.1 + ask.1) / 2 := by linarith
    exact hmid

/-- The average price is between those of the first and the last level that is met. -/
lemma averageCost_between (side : Side) (hsize : 0 < size) :
    ∃ best worst, (takenSide side bids asks).head? = some best ∧
      (takenSide side bids asks)[(takenParts size (takenSide side bids asks)).length - 1]? = some worst ∧
      side.NoWorse best.1 (averageCost size (takenSide side bids asks)) ∧
      side.NoWorse (averageCost size (takenSide side bids asks)) worst.1 := by
  have hpos : ∀ part ∈ takenParts size (takenSide side bids asks), 0 < part.1 :=
    fun part hpart => (mem_takenParts (h.sizes_pos side) hpart).1
  have hne := takenParts_ne_nil hsize (h.takenSide_ne side)
  have : Std.Refl side.NoWorse := by
    constructor
    cases side <;> exact fun _ => le_rfl
  obtain ⟨best, worst, hbest, hworst, hbetween⟩ :=
    takenParts_between (h.takenSide_sorted side) hsize (h.takenSide_ne side)
  refine ⟨best, worst, hbest, hworst, ?_⟩
  cases side with
  | buy =>
    exact ⟨le_mean hpos hne fun part hpart => (hbetween part hpart).1,
      mean_le hpos hne fun part hpart => (hbetween part hpart).2⟩
  | sell =>
    exact ⟨mean_le hpos hne fun part hpart => (hbetween part hpart).1,
      le_mean hpos hne fun part hpart => (hbetween part hpart).2⟩

end SortedBook

/-! ### The growth -/

/-- How the estimates for one side of a book depend on the size. -/
structure SlippageGrows (side : Side) (bids asks : List Level) : Prop where
  vwap_between : ∀ size, 0 < size → ∃ best worst, (takenSide side bids asks).head? = some best ∧
    1 ≤ (estimateSlippage size side bids asks).levelsConsumed ∧
    (takenSide side bids asks)[(estimateSlippage size side bids asks).levelsConsumed - 1]? = some worst ∧
    side.NoWorse best.1 (estimateSlippage size side bids asks).estimatedVwap ∧
    side.NoWorse (estimateSlippage size side bids asks).estimatedVwap worst.1
  slippage_mono : ∀ size more, 0 < size → size ≤ more → ∃ bps bps',
    (estimateSlippage size side bids asks).slippageBps = some bps ∧
    (estimateSlippage more side bids asks).slippageBps = some bps' ∧ 0 ≤ bps ∧ bps ≤ bps'
  sufficient_iff : ∀ size, (estimateSlippage size side bids asks).sufficientLiquidity = true ↔
    0 < size ∧ size ≤ depthOf (takenSide side bids asks)
  accepts_less : ∀ maxBps size more, 0 < size → size ≤ more →
    checkSlippageOk more side bids asks maxBps = true →
      checkSlippageOk size side bids asks maxBps = true

/-- A book with two asks and two bids. -/
lemma sortedBook_twoLevels :
    SortedBook [(1 / 2, 500), (49 / 100, 300)] [(51 / 100, 500), (52 / 100, 300)] := by
  refine ⟨List.cons_ne_nil _ _, List.cons_ne_nil _ _, ?_, ?_, ?_, ?_, ?_⟩ <;> norm_num

end PolyCortex
