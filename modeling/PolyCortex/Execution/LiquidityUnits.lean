import PolyCortex.Execution.SlippageGrowth

/-!
# The unit of a level

`estimate_slippage` walks over the levels as if their sizes were USDC and adds up the depth as if they
were tokens. Whichever they are, the average price and the depth fit the order size only when the best
price alone has enough (`countsIn_iff`); for sizes in tokens, also when the tokens that are walked over
cost as many USDC as there are of them.
-/

namespace PolyCortex

open Rounding Weighted

/-- What the size of a level counts. -/
inductive SizeUnit where
  | tokens
  | usdc
  deriving DecidableEq, Repr

/-- The levels with their sizes in tokens. -/
def inTokens : SizeUnit → List Level → List Level
  | .tokens, levels => levels
  | .usdc, levels => levels.map fun level => (level.1, level.2 / level.1)

/-- The purchases that spend some USDC on levels with sizes in tokens. -/
def purchases : ℚ → List Level → List (ℚ × ℚ)
  | _, [] => []
  | usdc, level :: levels =>
    if usdc ≤ 0 then []
    else
      let bought := min (usdc / level.1) level.2
      (bought, level.1) :: purchases (usdc - bought * level.1) levels

/-- With sizes in `unit`, an estimate of sufficient liquidity is of a depth that is at least the order
size, to two digits, and of the average price of spending the order size. -/
def CountsIn (unit : SizeUnit) (size : ℚ) (side : Side) (bids asks : List Level) : Prop :=
  let estimate := estimateSlippage size side bids asks
  let bought := purchases size (inTokens unit (consumedSide side bids asks))
  estimate.sufficientLiquidity = true →
    (∃ depth, estimate.totalDepthUsdc = roundTo 2 depth ∧ size ≤ depth) ∧
      total bought = size ∧ estimate.estimatedVwap = total bought / weight bought

/-- The price of the first level. -/
def bestPrice (levels : List Level) : ℚ := (levels.head?.map (·.1)).getD 0

/-- The sizes at one price. -/
def depthAt (price : ℚ) (levels : List Level) : ℚ := depthOf (levels.filter fun level => level.1 = price)

/-- The sizes times their prices. -/
def valueOf (levels : List Level) : ℚ := (levels.map fun level => level.1 * level.2).sum

/-- The cost of buying some tokens. -/
def costOf (tokens : ℚ) (levels : List Level) : ℚ := total (takenParts tokens levels)

/-- When the estimate for the levels, best first, fits the order size. -/
def Fits (unit : SizeUnit) (size : ℚ) (levels : List Level) : Prop :=
  match unit with
  | .tokens =>
    size ≤ min 1 (bestPrice levels) * depthAt (bestPrice levels) levels ∨ costOf size levels = size
  | .usdc =>
    size ≤ depthAt (bestPrice levels) levels ∧
      ∃ depth, roundTo 2 (valueOf levels) = roundTo 2 depth ∧ size ≤ depth

variable {size more price : ℚ} {levels bids asks : List Level} {side : Side}

/-! ### The best price -/

lemma depthAt_cons (price : ℚ) (level : Level) (levels : List Level) :
    depthAt price (level :: levels) =
      (if level.1 = price then level.2 else 0) + depthAt price levels := by
  rw [depthAt, List.filter_cons]
  split_ifs with h h' h'
  · rw [depthOf_cons, depthAt]
  · simp_all
  · simp_all
  · rw [zero_add, depthAt]

/-- What is taken at a price is not more than there is. -/
lemma weight_takenParts_le (hsizes : ∀ level ∈ levels, 0 < level.2)
    (hall : ∀ part ∈ takenParts size levels, part.2 = price) :
    weight (takenParts size levels) ≤ depthAt price levels := by
  induction levels generalizing size with
  | nil => simp [takenParts, depthAt, depthOf]
  | cons level levels ih =>
    simp only [List.forall_mem_cons] at hsizes
    have hrest : 0 ≤ depthAt price levels :=
      depthOf_nonneg fun other hother => hsizes.2 other (List.mem_of_mem_filter hother)
    rw [takenParts] at hall ⊢
    rw [depthAt_cons]
    split_ifs at hall ⊢ with hdone hprice hprice
    · rw [weight_nil]
      exact add_nonneg hsizes.1.le hrest
    · simpa using hrest
    · rw [weight_cons]
      exact add_le_add (min_le_right _ _)
        (ih hsizes.2 fun part hpart => hall part (List.mem_cons_of_mem _ hpart))
    · exact absurd (hall _ List.mem_cons_self) hprice

/-- The levels at the price come first, and have the size: nothing else is taken. -/
lemma takenParts_eq_price (hsizes : ∀ level ∈ levels, 0 < level.2)
    (hfirst : levels.Pairwise fun a b => b.1 = price → a.1 = price)
    (hsize : size ≤ depthAt price levels) : ∀ part ∈ takenParts size levels, part.2 = price := by
  induction levels generalizing size with
  | nil => simp [takenParts]
  | cons level levels ih =>
    simp only [List.forall_mem_cons] at hsizes
    obtain ⟨hlevel, hpairs⟩ := List.pairwise_cons.mp hfirst
    have hrest : 0 ≤ depthAt price levels :=
      depthOf_nonneg fun other hother => hsizes.2 other (List.mem_of_mem_filter hother)
    rw [depthAt_cons] at hsize
    rw [takenParts]
    split_ifs with hdone
    · simp
    · by_cases hprice : level.1 = price
      · rw [if_pos hprice] at hsize
        refine List.forall_mem_cons.mpr ⟨hprice, ih hsizes.2 hpairs ?_⟩
        rcases le_total size level.2 with hle | hle
        · rw [min_eq_left hle, sub_self]
          exact hrest
        · rw [min_eq_right hle]
          linarith
      · -- the first level is at another price, so all are
        have hnone : levels.filter (fun other => other.1 = price) = [] := by
          refine List.filter_eq_nil_iff.mpr fun other hother heq => ?_
          exact hprice (hlevel other hother (of_decide_eq_true heq))
        rw [if_neg hprice, depthAt, hnone, zero_add] at hsize
        exact absurd hsize hdone

/-- Levels for an order of the side, best first. -/
def BestFirst (side : Side) (levels : List Level) : Prop :=
  levels.Pairwise fun a b => side.NoWorse a.1 b.1

lemma bestFirst_consumedSide (side : Side) (bids asks : List Level) :
    BestFirst side (consumedSide side bids asks) := by
  cases side with
  | buy => exact List.pairwise_insertionSort (fun a b : Level => a.1 ≤ b.1) asks
  | sell => exact List.pairwise_insertionSort (fun a b : Level => b.1 ≤ a.1) bids

namespace BestFirst

variable (h : BestFirst side levels)
include h

lemma bestPrice_first : levels.Pairwise fun a b => b.1 = bestPrice levels → a.1 = bestPrice levels := by
  cases levels with
  | nil => exact .nil
  | cons best levels =>
    obtain ⟨hbest, hrest⟩ := List.pairwise_cons.mp h
    refine List.pairwise_cons.mpr ⟨fun _ _ _ => rfl, ?_⟩
    refine hrest.imp_of_mem fun ha hb hab heq => ?_
    have hb' := hbest _ ha
    have heq' : _ = best.1 := heq
    rw [heq'] at hab
    cases side with
    | buy => exact le_antisymm hab hb'
    | sell => exact le_antisymm hb' hab

lemma noWorse_bestPrice {level : Level} (hlevel : level ∈ levels) :
    side.NoWorse (bestPrice levels) level.1 := by
  cases levels with
  | nil => cases hlevel
  | cons best levels =>
    rcases List.mem_cons.mp hlevel with rfl | hlevel
    · cases side <;> exact le_rfl
    · exact (List.pairwise_cons.mp h).1 level hlevel

/-- The average is the best price just as far as the best price has enough. -/
lemma averageCost_eq_bestPrice_iff (hsizes : ∀ level ∈ levels, 0 < level.2) (hsize : 0 < size)
    (hdepth : size ≤ depthOf levels) :
    averageCost size levels = bestPrice levels ↔ size ≤ depthAt (bestPrice levels) levels := by
  have hweight : weight (takenParts size levels) = size := by
    rw [weight_takenParts hsizes hsize.le, min_eq_left hdepth]
  have hne : levels ≠ [] := by
    rintro rfl
    exact absurd hdepth (not_le.mpr hsize)
  have hpos : ∀ part ∈ takenParts size levels, 0 < part.1 := fun part hpart =>
    (mem_takenParts hsizes hpart).1
  have hbest : ∀ part ∈ takenParts size levels, side.NoWorse (bestPrice levels) part.2 := by
    intro part hpart
    obtain ⟨-, level, hlevel, -, hprice⟩ := mem_takenParts hsizes hpart
    exact hprice ▸ h.noWorse_bestPrice hlevel
  constructor
  · intro heq
    have htotal : total (takenParts size levels) =
        bestPrice levels * weight (takenParts size levels) := by
      rw [← heq, averageCost, mean_mul_weight (hweight.trans_ne hsize.ne')]
    rw [← hweight]
    apply weight_takenParts_le hsizes
    cases side with
    | buy => exact eq_of_total_eq hpos hbest htotal
    | sell => exact eq_of_total_eq' hpos hbest htotal
  · intro hle
    exact mean_eq_of_forall_eq hpos (takenParts_ne_nil hsize hne)
      (takenParts_eq_price hsizes h.bestPrice_first hle)

end BestFirst

/-! ### Two sizes of one average price -/

lemma ne_nil_of_depthOf (hsize : 0 < size) (hdepth : size ≤ depthOf levels) : levels ≠ [] := by
  rintro rfl
  exact absurd hdepth (not_le.mpr hsize)

/-- From the cheapest level on, only the best price keeps the average of a larger size. -/
lemma averageCost_eq_bestPrice_of_buy (h : BestFirst .buy levels)
    (hsizes : ∀ level ∈ levels, 0 < level.2) (hsize : 0 < size) (hmore : size < more)
    (hdepth : more ≤ depthOf levels) (heq : averageCost size levels = averageCost more levels) :
    averageCost more levels = bestPrice levels := by
  have hne := ne_nil_of_depthOf (hsize.trans hmore) hdepth
  have hleft : ∀ level ∈ leftOver size levels, 0 < level.2 := fun level hlevel =>
    (mem_leftOver hsizes hlevel).1
  have hweight := (takenParts_leftOver hsizes hsize.le hmore.le).1
  rw [weight_takenParts hsizes hsize.le, weight_takenParts hsizes (hsize.trans hmore).le,
    min_eq_left hdepth, min_eq_left (hmore.le.trans hdepth)] at hweight
  have hlater : takenParts (more - size) (leftOver size levels) ≠ [] := by
    intro hnil
    rw [hnil, weight_nil] at hweight
    linarith
  have hpos : ∀ part ∈ takenParts (more - size) (leftOver size levels), 0 < part.1 :=
    fun part hpart => (mem_takenParts hleft hpart).1
  have hall : ∀ part ∈ takenParts size levels, part.2 = averageCost size levels := by
    refine eq_mean_of_mean_append_eq (fun part hpart => (mem_takenParts hsizes hpart).1)
      (takenParts_ne_nil hsize hne) hpos hlater ?_ ?_
    · intro part hpart later hlater
      obtain ⟨-, level, hlevel, -, hprice⟩ := mem_takenParts hleft hlater
      exact hprice ▸ takenParts_le_leftOver hsizes h hpart hlevel
    · rw [← mean_takenParts hsizes hsize.le hmore.le]
      exact heq
  obtain ⟨best, rest, rfl⟩ := List.exists_cons_of_ne_nil hne
  rw [takenParts, if_neg (not_le.mpr hsize)] at hall
  rw [← heq]
  exact (hall _ List.mem_cons_self).symm

lemma bestFirst_mirror (h : BestFirst .sell levels) : BestFirst .buy (levels.map Level.mirror) := by
  rw [BestFirst, List.pairwise_map]
  exact h.imp fun hle => sub_le_sub_left hle 1

lemma bestPrice_mirror (hne : levels ≠ []) :
    bestPrice (levels.map Level.mirror) = 1 - bestPrice levels := by
  obtain ⟨best, levels, rfl⟩ := List.exists_cons_of_ne_nil hne
  rfl

/-- Two sizes have one average price just as far as the best price has enough. -/
lemma BestFirst.averageCost_eq_iff (h : BestFirst side levels)
    (hsizes : ∀ level ∈ levels, 0 < level.2) (hsize : 0 < size) (hmore : size < more)
    (hdepth : more ≤ depthOf levels) :
    averageCost size levels = averageCost more levels ↔
      more ≤ depthAt (bestPrice levels) levels := by
  have hmore' : 0 < more := hsize.trans hmore
  have hne := ne_nil_of_depthOf hmore' hdepth
  rw [← h.averageCost_eq_bestPrice_iff hsizes hmore' hdepth]
  constructor
  · intro heq
    cases side with
    | buy => exact averageCost_eq_bestPrice_of_buy h hsizes hsize hmore hdepth heq
    | sell =>
      have hmirror := averageCost_eq_bestPrice_of_buy (bestFirst_mirror h)
        (List.forall_mem_map.mpr hsizes) hsize hmore (by rwa [depthOf_mirror])
        (by rw [averageCost_mirror hsizes hne hsize, averageCost_mirror hsizes hne hmore', heq])
      rw [averageCost_mirror hsizes hne hmore', bestPrice_mirror hne] at hmirror
      exact sub_right_injective hmirror
  · intro hbest
    rw [hbest, h.averageCost_eq_bestPrice_iff hsizes hsize (hmore.le.trans hdepth)]
    rw [h.averageCost_eq_bestPrice_iff hsizes hmore' hdepth] at hbest
    exact hmore.le.trans hbest

/-! ### Spending an amount -/

lemma purchases_of_nonpos {usdc : ℚ} (h : usdc ≤ 0) (levels : List Level) : purchases usdc levels = [] := by
  cases levels with
  | nil => rfl
  | cons level levels => rw [purchases, if_pos h]

/-- What is bought comes from the first levels on, like what an order of that many tokens takes. -/
lemma purchases_eq_takenParts (hlevels : ∀ level ∈ levels, 0 < level.1 ∧ 0 < level.2) (usdc : ℚ) :
    0 ≤ weight (purchases usdc levels) ∧
      purchases usdc levels = takenParts (weight (purchases usdc levels)) levels := by
  induction levels generalizing usdc with
  | nil => simp [purchases, takenParts]
  | cons level levels ih =>
    simp only [List.forall_mem_cons] at hlevels
    obtain ⟨⟨hprice, hlevel⟩, hrest⟩ := hlevels
    rw [purchases]
    split_ifs with hdone
    · simp [takenParts]
    · have hbought : 0 < min (usdc / level.1) level.2 :=
        lt_min (div_pos (not_le.mp hdone) hprice) hlevel
      obtain ⟨hnonneg, heq⟩ := ih hrest (usdc - min (usdc / level.1) level.2 * level.1)
      simp only [weight_cons]
      refine ⟨add_nonneg hbought.le hnonneg, ?_⟩
      rw [takenParts, if_neg (not_le.mpr (add_pos_of_pos_of_nonneg hbought hnonneg))]
      rcases le_total (usdc / level.1) level.2 with hle | hle
      · -- the amount is spent at this level
        have hspent : usdc - usdc / level.1 * level.1 = 0 := by
          rw [div_mul_cancel₀ _ hprice.ne', sub_self]
        rw [min_eq_left hle, hspent, purchases_of_nonpos le_rfl, weight_nil, add_zero, min_eq_left hle,
          sub_self, takenParts_of_nonpos le_rfl]
      · rw [min_eq_right hle] at hnonneg heq ⊢
        rw [min_eq_right (le_add_of_nonneg_right hnonneg), add_sub_cancel_left, ← heq]

lemma takenParts_pos (hlevels : ∀ level ∈ levels, 0 < level.1 ∧ 0 < level.2) {part : ℚ × ℚ}
    (hpart : part ∈ takenParts size levels) : 0 < part.1 ∧ 0 < part.2 := by
  obtain ⟨hpos, level, hlevel, -, hprice⟩ :=
    mem_takenParts (fun level hlevel => (hlevels level hlevel).2) hpart
  exact ⟨hpos, hprice ▸ (hlevels level hlevel).1⟩

lemma costOf_nonneg (hlevels : ∀ level ∈ levels, 0 < level.1 ∧ 0 < level.2) (size : ℚ) :
    0 ≤ costOf size levels := by
  have hpos : ∀ part ∈ takenParts size levels, 0 < part.1 ∧ 0 < part.2 := fun part hpart =>
    takenParts_pos hlevels hpart
  have hle := le_total (fun part hpart => (hpos part hpart).1) fun part hpart => (hpos part hpart).2.le
  rwa [zero_mul] at hle

/-- Nothing costs more than the whole side. -/
lemma costOf_le_valueOf (hlevels : ∀ level ∈ levels, 0 < level.1 ∧ 0 < level.2) (size : ℚ) :
    costOf size levels ≤ valueOf levels := by
  induction levels generalizing size with
  | nil => exact le_rfl
  | cons level levels ih =>
    simp only [List.forall_mem_cons] at hlevels
    have hrest := ih hlevels.2 (size - min size level.2)
    have hvalue : valueOf (level :: levels) = level.1 * level.2 + valueOf levels := by
      rw [valueOf, List.map_cons, List.sum_cons, valueOf]
    rw [hvalue, costOf, takenParts]
    split_ifs with hdone
    · rw [total_nil]
      exact add_nonneg (mul_pos hlevels.1.1 hlevels.1.2).le ((costOf_nonneg hlevels.2 _).trans hrest)
    · rw [total_cons, mul_comm]
      exact add_le_add (mul_le_mul_of_nonneg_left (min_le_right _ _) hlevels.1.1.le) hrest

/-- Spending what some tokens cost buys them. -/
lemma purchases_costOf (hlevels : ∀ level ∈ levels, 0 < level.1 ∧ 0 < level.2) (hsize : 0 ≤ size) :
    purchases (costOf size levels) levels = takenParts size levels := by
  induction levels generalizing size with
  | nil => rfl
  | cons level levels ih =>
    simp only [List.forall_mem_cons] at hlevels
    obtain ⟨⟨hprice, hlevel⟩, hrest⟩ := hlevels
    by_cases hdone : size ≤ 0
    · rw [costOf, takenParts_of_nonpos hdone, total_nil, purchases_of_nonpos le_rfl]
    · have htaken : 0 < min size level.2 := lt_min (not_le.mp hdone) hlevel
      have hnonneg : 0 ≤ costOf (size - min size level.2) levels := costOf_nonneg hrest _
      have hcost : costOf size (level :: levels) =
          min size level.2 * level.1 + costOf (size - min size level.2) levels := by
        rw [costOf, takenParts, if_neg hdone, total_cons, costOf]
      have hpos : 0 < costOf size (level :: levels) := by
        rw [hcost]
        exact add_pos_of_pos_of_nonneg (mul_pos htaken hprice) hnonneg
      have hbought : min (costOf size (level :: levels) / level.1) level.2 = min size level.2 := by
        rw [hcost, add_div, mul_div_cancel_right₀ _ hprice.ne']
        rcases le_total size level.2 with hle | hle
        · rw [min_eq_left hle, sub_self, costOf, takenParts_of_nonpos le_rfl, total_nil, zero_div,
            add_zero, min_eq_left hle]
        · rw [min_eq_right hle, min_eq_right]
          rw [min_eq_right hle] at hnonneg
          exact le_add_of_nonneg_right (div_nonneg hnonneg hprice.le)
      rw [purchases, if_neg (not_le.mpr hpos), takenParts, if_neg hdone]
      simp only [hbought]
      rw [← ih hrest (sub_nonneg.mpr (min_le_left size level.2)), hcost, add_sub_cancel_left]

/-- With sizes in USDC the purchases are what is taken, as tokens. -/
lemma purchases_inTokens (hlevels : ∀ level ∈ levels, 0 < level.1 ∧ 0 < level.2) (size : ℚ) :
    purchases size (inTokens .usdc levels) =
      (takenParts size levels).map fun part => (part.1 / part.2, part.2) := by
  induction levels generalizing size with
  | nil => rfl
  | cons level levels ih =>
    simp only [List.forall_mem_cons] at hlevels
    have hprice := hlevels.1.1
    have hmin : min (size / level.1) (level.2 / level.1) = min size level.2 / level.1 :=
      min_div_div_right hprice.le _ _
    rw [inTokens, List.map_cons, purchases, takenParts]
    split_ifs with hdone
    · rfl
    · simp only [hmin, div_mul_cancel₀ _ hprice.ne', List.map_cons]
      rw [← ih hlevels.2, inTokens]

/-! ### Both units -/

lemma depthAt_le_depthOf (hsizes : ∀ level ∈ levels, 0 < level.2) (price : ℚ) :
    depthAt price levels ≤ depthOf levels := by
  induction levels with
  | nil => exact le_rfl
  | cons level levels ih =>
    simp only [List.forall_mem_cons] at hsizes
    rw [depthAt_cons, depthOf_cons]
    split_ifs
    · exact add_le_add le_rfl (ih hsizes.2)
    · exact add_le_add hsizes.1.le (ih hsizes.2)

section Fits

variable (h : BestFirst side levels) (hlevels : ∀ level ∈ levels, 0 < level.1 ∧ 0 < level.2)
include h hlevels

/-- As far as the best price has enough, it is all that is paid. -/
lemma BestFirst.costOf_eq (hsize : 0 ≤ size) (hle : size ≤ depthAt (bestPrice levels) levels) :
    costOf size levels = size * bestPrice levels := by
  have hsizes : ∀ level ∈ levels, 0 < level.2 := fun level hlevel => (hlevels level hlevel).2
  have hweight : weight (takenParts size levels) = size := by
    rw [weight_takenParts hsizes hsize, min_eq_left (hle.trans (depthAt_le_depthOf hsizes _))]
  rw [costOf, total_eq_of_forall_eq (takenParts_eq_price hsizes h.bestPrice_first hle), hweight,
    mul_comm]

lemma BestFirst.bestPrice_pos (hne : levels ≠ []) : 0 < bestPrice levels := by
  obtain ⟨best, levels, rfl⟩ := List.exists_cons_of_ne_nil hne
  exact (hlevels best List.mem_cons_self).1

/-- An amount that the best price has enough tokens for is spent at that price. -/
lemma BestFirst.purchases_at_bestPrice (hsize : 0 < size) (hne : levels ≠ [])
    (henough : size / bestPrice levels ≤ depthAt (bestPrice levels) levels) :
    purchases size levels = takenParts (size / bestPrice levels) levels ∧
      total (purchases size levels) = size ∧
      weight (purchases size levels) = size / bestPrice levels := by
  have hsizes : ∀ level ∈ levels, 0 < level.2 := fun level hlevel => (hlevels level hlevel).2
  have hbest := h.bestPrice_pos hlevels hne
  have hnonneg : 0 ≤ size / bestPrice levels := (div_pos hsize hbest).le
  have hcost : costOf (size / bestPrice levels) levels = size := by
    rw [h.costOf_eq hlevels hnonneg henough, div_mul_cancel₀ _ hbest.ne']
  have hbought := purchases_costOf hlevels hnonneg
  rw [hcost] at hbought
  refine ⟨hbought, ?_, ?_⟩
  · rw [hbought]
    exact hcost
  · rw [hbought, weight_takenParts hsizes hnonneg,
      min_eq_left (henough.trans (depthAt_le_depthOf hsizes _))]

/-- As many tokens as the order size, and the tokens that the order size buys, have one average price only
if they are as many, or if all are bought at the best price. -/
lemma BestFirst.fits_of_averageCost_eq {tokens : ℚ} (hsize : 0 < size) (hdepth : size ≤ depthOf levels)
    (hpos : 0 < tokens) (henough : tokens ≤ depthOf levels) (hcost : costOf tokens levels = size)
    (haverage : averageCost tokens levels = size / tokens)
    (heq : averageCost size levels = averageCost tokens levels) : Fits .tokens size levels := by
  have hsizes : ∀ level ∈ levels, 0 < level.2 := fun level hlevel => (hlevels level hlevel).2
  have hbest := h.bestPrice_pos hlevels (ne_nil_of_depthOf hsize hdepth)
  rcases lt_trichotomy size tokens with hlt | rfl | hlt
  · have hle := (h.averageCost_eq_iff hsizes hsize hlt henough).mp heq
    rw [(h.averageCost_eq_bestPrice_iff hsizes hpos henough).mpr hle] at haverage
    have htokens : size / bestPrice levels = tokens := by rw [haverage, div_div_cancel₀ hsize.ne']
    have hone : bestPrice levels ≤ 1 := by
      rw [haverage, div_le_one hpos]
      exact hlt.le
    refine Or.inl ?_
    rw [min_eq_right hone, ← div_le_iff₀' hbest, htokens]
    exact hle
  · exact Or.inr hcost
  · have hle := (h.averageCost_eq_iff hsizes hpos hlt hdepth).mp heq.symm
    rw [← heq, (h.averageCost_eq_bestPrice_iff hsizes hsize hdepth).mpr hle] at haverage
    have hone : 1 ≤ bestPrice levels := by
      rw [haverage, one_le_div hpos]
      exact hlt.le
    refine Or.inl ?_
    rw [min_eq_left hone, one_mul]
    exact hle

/-- With sizes in tokens. -/
lemma BestFirst.fits_tokens_iff (hsize : 0 < size) (hdepth : size ≤ depthOf levels) :
    ((∃ depth, roundTo 2 (valueOf levels) = roundTo 2 depth ∧ size ≤ depth) ∧
      total (purchases size levels) = size ∧
      averageCost size levels = total (purchases size levels) / weight (purchases size levels)) ↔
      Fits .tokens size levels := by
  have hsizes : ∀ level ∈ levels, 0 < level.2 := fun level hlevel => (hlevels level hlevel).2
  have hne := ne_nil_of_depthOf hsize hdepth
  constructor
  · rintro ⟨-, hspent, hvwap⟩
    obtain ⟨hnonneg, hbought⟩ := purchases_eq_takenParts hlevels size
    set tokens := weight (purchases size levels) with htokens
    have hcost : costOf tokens levels = size := by
      rw [costOf, ← hbought]
      exact hspent
    have hpos : 0 < tokens := by
      refine hnonneg.lt_of_ne fun hzero => ?_
      rw [← hzero, costOf, takenParts_of_nonpos le_rfl, total_nil] at hcost
      exact hsize.ne hcost
    have henough : tokens ≤ depthOf levels := by
      rw [hbought, weight_takenParts hsizes hnonneg] at htokens
      exact htokens ▸ min_le_right _ _
    have haverage : averageCost tokens levels = size / tokens := by
      rw [averageCost, mean, ← hbought, hspent]
    rw [hspent, ← haverage] at hvwap
    exact h.fits_of_averageCost_eq hlevels hsize hdepth hpos henough hcost haverage hvwap
  · rintro (hle | hcost)
    · have hbest := h.bestPrice_pos hlevels hne
      have hnonneg : 0 ≤ depthAt (bestPrice levels) levels :=
        depthOf_nonneg fun level hlevel => hsizes level (List.mem_of_mem_filter hlevel)
      have henough : size / bestPrice levels ≤ depthAt (bestPrice levels) levels := by
        rw [div_le_iff₀' hbest]
        exact hle.trans (mul_le_mul_of_nonneg_right (min_le_right _ _) hnonneg)
      have hlow : size ≤ depthAt (bestPrice levels) levels :=
        hle.trans (mul_le_of_le_one_left hnonneg (min_le_left _ _))
      obtain ⟨hbought, htotal, hweight⟩ := h.purchases_at_bestPrice hlevels hsize hne henough
      have hvalue : size ≤ valueOf levels := by
        rw [hbought] at htotal
        exact htotal.symm.trans_le (costOf_le_valueOf hlevels _)
      rw [htotal, hweight, div_div_cancel₀ hsize.ne']
      exact ⟨⟨_, rfl, hvalue⟩, rfl, (h.averageCost_eq_bestPrice_iff hsizes hsize hdepth).mpr hlow⟩
    · have hbought := purchases_costOf hlevels hsize.le
      rw [hcost] at hbought
      rw [hbought]
      exact ⟨⟨_, rfl, hcost.symm.trans_le (costOf_le_valueOf hlevels size)⟩, hcost, rfl⟩

/-- With sizes in USDC. -/
lemma BestFirst.fits_usdc_iff (hsize : 0 < size) (hdepth : size ≤ depthOf levels) :
    ((∃ depth, roundTo 2 (valueOf levels) = roundTo 2 depth ∧ size ≤ depth) ∧
      total (purchases size (inTokens .usdc levels)) = size ∧
      averageCost size levels = total (purchases size (inTokens .usdc levels)) /
        weight (purchases size (inTokens .usdc levels))) ↔
      Fits .usdc size levels := by
  have hsizes : ∀ level ∈ levels, 0 < level.2 := fun level hlevel => (hlevels level hlevel).2
  have hne := ne_nil_of_depthOf hsize hdepth
  have hweight : weight (takenParts size levels) = size := by
    rw [weight_takenParts hsizes hsize.le, min_eq_left hdepth]
  have htotal : total (purchases size (inTokens .usdc levels)) = size := by
    rw [purchases_inTokens hlevels, total_map_shares fun part hpart => (takenParts_pos hlevels hpart).2.ne',
      hweight]
  have hshares : weight (purchases size (inTokens .usdc levels)) = shares (takenParts size levels) := by
    rw [purchases_inTokens hlevels, weight_map_shares]
  have hpos : ∀ part ∈ takenParts size levels, 0 < part.1 ∧ 0 < part.2 := fun part hpart =>
    takenParts_pos hlevels hpart
  have hharmonic : averageCost size levels = size / shares (takenParts size levels) ↔
      size ≤ depthAt (bestPrice levels) levels := by
    constructor
    · intro heq
      rw [← h.averageCost_eq_bestPrice_iff hsizes hsize hdepth]
      have hall := eq_mean_of_harmonic (fun part hpart => (hpos part hpart).1)
        (fun part hpart => (hpos part hpart).2) (takenParts_ne_nil hsize hne)
        (by rw [hweight]; exact heq)
      obtain ⟨best, rest, rfl⟩ := List.exists_cons_of_ne_nil hne
      have hfirst : (min size best.2, best.1) ∈ takenParts size (best :: rest) := by
        rw [takenParts, if_neg (not_le.mpr hsize)]
        exact List.mem_cons_self
      exact (hall _ hfirst).symm
    · intro hle
      rw [(h.averageCost_eq_bestPrice_iff hsizes hsize hdepth).mpr hle,
        shares_eq_of_forall_eq (takenParts_eq_price hsizes h.bestPrice_first hle), hweight,
        div_div_cancel₀ hsize.ne']
  rw [htotal, hshares, hharmonic, Fits]
  constructor
  · rintro ⟨hdeep, -, hle⟩
    exact ⟨hle, hdeep⟩
  · rintro ⟨hle, hdeep⟩
    exact ⟨hdeep, rfl, hle⟩

end Fits

/-! ### The estimate -/

/-- For a book with positive prices and sizes, and whatever the sizes count: the estimates of
sufficient liquidity are right about depth and price just for the order sizes that fit the levels. -/
theorem countsIn_iff (unit : SizeUnit) (hbids : ∀ bid ∈ bids, 0 < bid.1 ∧ 0 < bid.2)
    (hasks : ∀ ask ∈ asks, 0 < ask.1 ∧ 0 < ask.2) :
    CountsIn unit size side bids asks ↔
      (bids ≠ [] → asks ≠ [] → 0 < size → size ≤ depthOf (takenSide side bids asks) →
        Fits unit size (consumedSide side bids asks)) := by
  have hperm : (consumedSide side bids asks).Perm (takenSide side bids asks) := by
    cases side <;> exact List.perm_insertionSort _ _
  have hlevels : ∀ level ∈ consumedSide side bids asks, 0 < level.1 ∧ 0 < level.2 := by
    intro level hlevel
    have hmem := hperm.mem_iff.mp hlevel
    cases side with
    | buy => exact hasks level hmem
    | sell => exact hbids level hmem
  have hfirst := bestFirst_consumedSide side bids asks
  have hfits : ∀ (hsize : 0 < size) (hdepth : size ≤ depthOf (consumedSide side bids asks)),
      ((∃ depth, roundTo 2 (valueOf (consumedSide side bids asks)) = roundTo 2 depth ∧ size ≤ depth) ∧
        total (purchases size (inTokens unit (consumedSide side bids asks))) = size ∧
        averageCost size (consumedSide side bids asks) =
          total (purchases size (inTokens unit (consumedSide side bids asks))) /
            weight (purchases size (inTokens unit (consumedSide side bids asks)))) ↔
        Fits unit size (consumedSide side bids asks) := by
    intro hsize hdepth
    cases unit with
    | tokens => exact hfirst.fits_tokens_iff hlevels hsize hdepth
    | usdc => exact hfirst.fits_usdc_iff hlevels hsize hdepth
  rw [← depthOf_perm hperm]
  by_cases htwo : bids ≠ [] ∧ asks ≠ [] ∧ 0 < size
  · obtain ⟨hne, hne', hsize⟩ := htwo
    have hestimate := estimateSlippage_eq hne hne' (fun level hlevel => (hlevels level hlevel).2) hsize
    simp only [CountsIn, hestimate, decide_eq_true_eq, hne, hne', hsize, true_imp_iff, ne_eq,
      not_false_eq_true]
    exact forall_congr' fun hdepth => hfits hsize hdepth
  · have hnot : (estimateSlippage size side bids asks).sufficientLiquidity = false := by
      by_cases hsize : 0 < size
      · have hempty : bids = [] ∨ asks = [] := by tauto
        rcases hempty with rfl | rfl
        · rfl
        · cases bids <;> rfl
      · exact estimateSlippage_of_nonpos (not_lt.mp hsize) side bids asks
    simp only [CountsIn, hnot, Bool.false_eq_true, false_imp_iff, true_iff]
    exact fun hne hne' hsize => absurd ⟨hne, hne', hsize⟩ htwo

/-- For 80 USDC the estimate finds 100 enough that are worth 50, and that sell for 50 cents. -/
theorem not_countsIn_halfPrice :
    ¬CountsIn .tokens 80 .buy [(49 / 100, 100)] [(1 / 2, 100)] ∧
      ¬CountsIn .usdc 80 .buy [(49 / 100, 100)] [(1 / 2, 100)] := by
  have hliquid : (estimateSlippage 80 .buy [(49 / 100, 100)] [(1 / 2, 100)]).sufficientLiquidity =
      true := by decide +kernel
  have hshallow : ¬∃ depth, (estimateSlippage 80 .buy [(49 / 100, 100)] [(1 / 2, 100)]).totalDepthUsdc =
      roundTo 2 depth ∧ 80 ≤ depth := by
    rintro ⟨depth, hdepth, hle⟩
    have hmono : roundTo 2 80 ≤ roundTo 2 depth := roundTo_mono hle
    rw [← hdepth] at hmono
    exact absurd hmono (by decide +kernel)
  exact ⟨fun hcounts => hshallow (hcounts hliquid).1, fun hcounts => hshallow (hcounts hliquid).1⟩

/-- 40 USDC fit the same book in either unit. -/
theorem countsIn_iff_halfPrice :
    CountsIn .tokens 40 .buy [(49 / 100, 100)] [(1 / 2, 100)] ↔
      ([((49 : ℚ) / 100, (100 : ℚ))] ≠ [] → [((1 : ℚ) / 2, (100 : ℚ))] ≠ [] → (0 : ℚ) < 40 →
        40 ≤ depthOf (takenSide .buy [(49 / 100, 100)] [(1 / 2, 100)]) →
        Fits .tokens 40 (consumedSide .buy [(49 / 100, 100)] [(1 / 2, 100)])) :=
  countsIn_iff .tokens (by norm_num) (by norm_num)

end PolyCortex
