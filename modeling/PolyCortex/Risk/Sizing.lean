import Mathlib.Algebra.Order.BigOperators.Group.List
import Mathlib.Data.List.Perm.Subperm
import PolyCortex.Risk.Sizer

/-!
# Caps and monotonicity of sizes

In terms of the contract that is bought, a bet is its price and the probability that it pays; the
direction does not matter any more (`betOf_eq`). A size that is not zero is within every cap
(`calculatePosition_capped`), a worse opportunity never gets more (`calculatePosition_mono`).
-/

namespace PolyCortex

open Rounding

/-! ### The contract that is bought -/

/-- The clamp has its middle at a half. -/
lemma clampPrice_compl (price : ℚ) : clampPrice (1 - price) = 1 - clampPrice price := by
  unfold clampPrice
  rcases le_total price (1 / 100) with hlow | hlow
  · rw [min_eq_right (by linarith), min_eq_left (by linarith), max_eq_right (by norm_num),
      max_eq_left hlow]
    norm_num
  · rcases le_total price (99 / 100) with hhigh | hhigh
    · rw [min_eq_left (by linarith), min_eq_left hhigh, max_eq_right (by linarith), max_eq_right hlow]
    · rw [min_eq_left (by linarith), min_eq_right hhigh, max_eq_left (by linarith),
        max_eq_right (by norm_num)]
      norm_num

namespace EdgeResult

/-- The probability that the contract pays. -/
def sideProb (edge : EdgeResult) : ℚ :=
  if edge.direction = .yes then edge.estimatedProb else 1 - edge.estimatedProb

/-- The price of the contract, clamped. -/
def sidePrice (edge : EdgeResult) : ℚ := clampPrice (contractPrice edge.direction edge.marketPrice)

lemma le_sidePrice (edge : EdgeResult) : 1 / 100 ≤ edge.sidePrice := le_max_left _ _

lemma sidePrice_pos (edge : EdgeResult) : 0 < edge.sidePrice :=
  lt_of_lt_of_le (by norm_num) edge.le_sidePrice

lemma sidePrice_lt_one (edge : EdgeResult) : edge.sidePrice < 1 := by
  rw [sidePrice, clampPrice, max_lt_iff, min_lt_iff]
  exact ⟨by norm_num, Or.inr (by norm_num)⟩

/-- The same opportunity, seen from the other side of the market. -/
def mirror (edge : EdgeResult) : EdgeResult :=
  { edge with
    direction := if edge.direction = .yes then .no else .yes
    estimatedProb := 1 - edge.estimatedProb
    marketPrice := 1 - edge.marketPrice }

@[simp] lemma sideProb_mirror (edge : EdgeResult) : edge.mirror.sideProb = edge.sideProb := by
  by_cases hyes : edge.direction = .yes <;> simp [sideProb, mirror, hyes]

@[simp] lemma sidePrice_mirror (edge : EdgeResult) : edge.mirror.sidePrice = edge.sidePrice := by
  by_cases hyes : edge.direction = .yes <;> simp [sidePrice, mirror, contractPrice, hyes]

end EdgeResult

namespace PositionSizer

variable {sizer : PositionSizer} {edge edge' : EdgeResult} {positions positions' : List HeldPosition}
  {c p q d d' : ℚ}

/-- The odds and the probability of a bet, from the price and the probability of the contract. -/
lemma betOf_eq (edge : EdgeResult) :
    betOf edge = ((1 - edge.sidePrice) / edge.sidePrice, edge.sideProb) := by
  by_cases hyes : edge.direction = .yes
  · simp [betOf, EdgeResult.sidePrice, EdgeResult.sideProb, contractPrice, hyes]
  · simp [betOf, EdgeResult.sidePrice, EdgeResult.sideProb, contractPrice, hyes, clampPrice_compl]

/-! ### Kelly -/

lemma kelly_eq (hc : 0 < c) (p : ℚ) :
    kelly ((1 - c) / c) p = (p - c) / (c * ((1 - c) / c + 1 / 10 ^ 8)) := by
  have hnum : (1 - c) / c * p - (1 - p) = (p - c) / c := by
    field_simp
    ring
  rw [kelly, hnum, div_div]

lemma odds_pos (hc : 0 < c) (hc' : c < 1) : 0 < c * ((1 - c) / c + 1 / 10 ^ 8) := by
  have : 0 < (1 - c) / c := div_pos (sub_pos.mpr hc') hc
  positivity

/-- A bet has a positive expectation when the probability exceeds the price. -/
lemma kelly_pos_iff (hc : 0 < c) (hc' : c < 1) : 0 < kelly ((1 - c) / c) p ↔ c < p := by
  rw [kelly_eq hc, div_pos_iff_of_pos_right (odds_pos hc hc'), sub_pos]

lemma kelly_mono (hc : 0 < c) (hc' : c < 1) (h : p ≤ q) :
    kelly ((1 - c) / c) p ≤ kelly ((1 - c) / c) q := by
  rw [kelly_eq hc, kelly_eq hc]
  exact div_le_div_of_nonneg_right (by linarith) (odds_pos hc hc').le

/-- The probability at the lower end of the uncertainty band, when bands apply. -/
def loweredProb (sizer : PositionSizer) (edge : EdgeResult) : ℚ :=
  if sizer.useUncertaintyBands ∧ 0 < edge.uncertainty then
    edge.sideProb - sizer.uncertaintyZScore * edge.uncertainty
  else edge.sideProb

/-- The floor of the band is below every price: the size of a bet follows the lowered probability. -/
lemma kellyToBet_pos_iff :
    0 < sizer.kellyToBet edge ↔
      edge.sidePrice < edge.sideProb ∧ edge.sidePrice < sizer.loweredProb edge := by
  have hkelly : ∀ p, 0 < kelly ((1 - edge.sidePrice) / edge.sidePrice) p ↔ edge.sidePrice < p :=
    fun p => kelly_pos_iff edge.sidePrice_pos edge.sidePrice_lt_one
  rw [kellyToBet, betOf_eq]
  dsimp only
  by_cases hprob : edge.sidePrice < edge.sideProb
  · rw [if_neg (not_le.mpr ((hkelly _).mpr hprob)), loweredProb]
    split_ifs with hband
    · rw [hkelly, lt_max_iff, or_iff_right (not_lt.mpr edge.le_sidePrice)]
      exact (and_iff_right hprob).symm
    · rw [hkelly, and_self]
  · rw [if_pos (not_lt.mp (mt (hkelly _).mp hprob)), hkelly]
    exact ⟨fun h => absurd h hprob, fun h => h.1⟩

/-! ### Caps -/

/-- What a position may not exceed: its part of the bankroll, the room in the portfolio and in the
category, and the loss of a single position, when it is limited. -/
def positionCap (sizer : PositionSizer) (edge : EdgeResult) (positions : List HeldPosition) : ℚ :=
  let inCategory := positions.filter (·.category = edge.category)
  let room := min (sizer.bankroll * sizer.maxPositionPct)
    (min (max 0 (sizer.bankroll * sizer.maxPortfolioPct - exposure positions))
      (max 0 (sizer.bankroll * sizer.maxCategoryExposurePct - exposure inCategory)))
  match sizer.maxSingleLossUsdc with
  | some cap => min room cap
  | none => room

/-- The position before the drawdown is looked at. -/
def cappedPosition (sizer : PositionSizer) (edge : EdgeResult) (positions : List HeldPosition) : ℚ :=
  min (sizer.positionFraction edge * sizer.bankroll) (sizer.positionCap edge positions)

/-- There is a bet to make, and room for it. -/
structure Admits (sizer : PositionSizer) (edge : EdgeResult) (positions : List HeldPosition) : Prop where
  confident : sizer.minConfidence ≤ edge.confidence
  price_lt_prob : edge.sidePrice < edge.sideProb
  price_lt_lowered : edge.sidePrice < sizer.loweredProb edge
  few : (positions.length : ℤ) < sizer.maxPositions
  few_inCategory :
    ((positions.filter (·.category = edge.category)).length : ℤ) < sizer.maxPerCategory

/-- The minimum, and the rounding to cents. -/
def finish (sizer : PositionSizer) (position : ℚ) : ℚ :=
  if position < sizer.minPosition then 0 else roundTo 2 position

lemma calculatePosition_of_admits (h : sizer.Admits edge positions) (d : ℚ) :
    sizer.calculatePosition edge positions d =
      sizer.finish (sizer.cappedPosition edge positions * d) := by
  have hkelly := not_le.mpr (kellyToBet_pos_iff.mpr ⟨h.price_lt_prob, h.price_lt_lowered⟩)
  have hcap : ∀ position cap : ℚ, (if cap < position then cap else position) = min position cap := by
    intro position cap
    split_ifs with hlt
    · exact (min_eq_right hlt.le).symm
    · exact (min_eq_left (not_lt.mp hlt)).symm
  rw [calculatePosition]
  dsimp only
  rw [if_neg (not_lt.mpr h.confident), if_neg hkelly, if_neg (not_le.mpr h.few),
    if_neg (not_le.mpr h.few_inCategory), finish, cappedPosition, positionCap]
  cases sizer.maxSingleLossUsdc with
  | none => simp only [min_assoc, max_comm]
  | some cap => simp only [hcap, min_assoc, max_comm]

lemma calculatePosition_of_not_admits (h : ¬ sizer.Admits edge positions) (d : ℚ) :
    sizer.calculatePosition edge positions d = 0 := by
  rw [calculatePosition]
  dsimp only
  split_ifs with hconfidence hkelly hfew hcategory hmin
  all_goals first | rfl | exfalso
  obtain ⟨hprob, hlowered⟩ := kellyToBet_pos_iff.mp (not_le.mp hkelly)
  exact h ⟨not_lt.mp hconfidence, hprob, hlowered, not_le.mp hfew, not_le.mp hcategory⟩

lemma finish_nonneg (hmin : 0 ≤ sizer.minPosition) (position : ℚ) : 0 ≤ sizer.finish position := by
  rw [finish]
  split_ifs with hlt
  · exact le_rfl
  · exact roundTo_nonneg (hmin.trans (not_lt.mp hlt))

lemma finish_mono (hmin : 0 ≤ sizer.minPosition) (h : p ≤ q) : sizer.finish p ≤ sizer.finish q := by
  by_cases hlt : p < sizer.minPosition
  · rw [finish, if_pos hlt]
    exact finish_nonneg hmin q
  · rw [finish, finish, if_neg hlt, if_neg (not_lt.mpr ((not_lt.mp hlt).trans h))]
    exact roundTo_mono h

/-- A size is zero, or at least 5 and up to the rounding within every cap, scaled by the drawdown; and
nothing gets a size without a bet to make and room for it. -/
theorem calculatePosition_capped (hmin : sizer.minPosition = 5) (hd : 0 ≤ d) :
    (sizer.calculatePosition edge positions d = 0 ∨
      5 ≤ sizer.calculatePosition edge positions d ∧
        sizer.calculatePosition edge positions d ≤
          d * sizer.positionCap edge positions + 5 / 1000) ∧
      (0 < sizer.calculatePosition edge positions d → sizer.Admits edge positions) := by
  by_cases hadmits : sizer.Admits edge positions
  · refine ⟨?_, fun _ => hadmits⟩
    have hsize : sizer.calculatePosition edge positions d =
        sizer.finish (sizer.cappedPosition edge positions * d) :=
      calculatePosition_of_admits hadmits d
    have hcap : sizer.cappedPosition edge positions * d ≤ d * sizer.positionCap edge positions := by
      rw [mul_comm]
      exact mul_le_mul_of_nonneg_left (min_le_right _ _) hd
    rw [hsize, finish, hmin]
    split_ifs with hlt
    · exact Or.inl rfl
    · have hfive : OnGrid 2 5 := ⟨500, by norm_num⟩
      have hround := roundTo_le_add (n := 2) (sizer.cappedPosition edge positions * d)
      have hhalf : (1 : ℚ) / 2 / 10 ^ 2 = 5 / 1000 := by norm_num
      rw [hhalf] at hround
      exact Or.inr ⟨hfive.le_roundTo (not_lt.mp hlt), by linarith⟩
  · have hzero := calculatePosition_of_not_admits hadmits d
    exact ⟨Or.inl hzero, fun hpos => absurd hzero hpos.ne'⟩

/-- A YES contract at 0.4 that is thought to be worth 0.7, with a position of 3 next to it. -/
def goodEdge : EdgeResult where
  marketId := "m"
  category := some "sports"
  direction := .yes
  edge := 3 / 10
  confidence := 1
  estimatedProb := 7 / 10
  marketPrice := 4 / 10

def largeSizer : PositionSizer where
  bankroll := 1000

theorem calculatePosition_capped_goodEdge :
    (0 < largeSizer.calculatePosition goodEdge [⟨3, some "sports"⟩] 1 ∧
      largeSizer.calculatePosition goodEdge [⟨3, some "sports"⟩] 1 ≤ 20 + 5 / 1000) := by
  have hmin : largeSizer.minPosition = 5 := rfl
  obtain ⟨hcaps, -⟩ := @calculatePosition_capped largeSizer goodEdge [⟨3, some "sports"⟩] 1 hmin
    zero_le_one
  have hcap : largeSizer.positionCap goodEdge [⟨3, some "sports"⟩] = 20 := by decide +kernel
  have hpos : 0 < largeSizer.calculatePosition goodEdge [⟨3, some "sports"⟩] 1 := by decide +kernel
  rw [hcap, one_mul] at hcaps
  exact ⟨hpos, (hcaps.resolve_left hpos.ne').2⟩

/-! ### Monotonicity -/

/-- The configuration has no negative values. -/
structure Nonneg (sizer : PositionSizer) : Prop where
  bankroll : 0 ≤ sizer.bankroll
  kellyFraction : 0 ≤ sizer.kellyFraction
  maxPositionPct : 0 ≤ sizer.maxPositionPct
  maxSingleLossUsdc : ∀ cap ∈ sizer.maxSingleLossUsdc, 0 ≤ cap
  minConfidence : 0 ≤ sizer.minConfidence
  uncertaintyZScore : 0 ≤ sizer.uncertaintyZScore
  minPosition : 0 ≤ sizer.minPosition

/-- The opportunity `edge` is no better than `edge'`: for the same contract it is less probable, less
certain or wider. -/
structure NoBetter (edge edge' : EdgeResult) : Prop where
  sidePrice : edge'.sidePrice = edge.sidePrice
  category : edge'.category = edge.category
  regime : edge'.regime = edge.regime
  sideProb : edge.sideProb ≤ edge'.sideProb
  confidence : edge.confidence ≤ edge'.confidence
  uncertainty : edge'.uncertainty ≤ edge.uncertainty
  spread : edge'.spread ≤ edge.spread

lemma NoBetter.loweredProb (h : NoBetter edge edge') (hz : 0 ≤ sizer.uncertaintyZScore) :
    sizer.loweredProb edge ≤ sizer.loweredProb edge' := by
  have hband := mul_le_mul_of_nonneg_left h.uncertainty hz
  have hprob := h.sideProb
  rw [PositionSizer.loweredProb, PositionSizer.loweredProb]
  split_ifs with hlower hlower' hlower'
  · linarith
  · have := mul_nonneg hz hlower.2.le
    linarith
  · exact absurd ⟨hlower'.1, hlower'.2.trans_le h.uncertainty⟩ hlower
  · exact hprob

/-- Where there is a bet, the Kelly fraction is that of the lowered probability. -/
lemma kellyToBet_of_admits (h : sizer.Admits edge positions) :
    sizer.kellyToBet edge =
      kelly ((1 - edge.sidePrice) / edge.sidePrice) (sizer.loweredProb edge) := by
  have hkelly := (kelly_pos_iff edge.sidePrice_pos edge.sidePrice_lt_one).mpr h.price_lt_prob
  have hfloor := edge.le_sidePrice.trans h.price_lt_lowered.le
  rw [kellyToBet, betOf_eq]
  dsimp only
  rw [if_neg (not_le.mpr hkelly), PositionSizer.loweredProb]
  rw [PositionSizer.loweredProb] at hfloor
  split_ifs with hband
  · rw [if_pos hband] at hfloor
    rw [max_eq_right hfloor]
  · rfl

/-- The scaling for the spread. -/
def spreadFactor (spread : ℚ) : ℚ :=
  if 5 / 100 < spread then max (5 / 10) (1 - (spread - 5 / 100) * 5) else 1

lemma spreadFactor_nonneg (spread : ℚ) : 0 ≤ spreadFactor spread := by
  rw [spreadFactor]
  split_ifs
  · exact le_max_of_le_left (by norm_num)
  · exact zero_le_one

lemma spreadFactor_anti (h : p ≤ q) : spreadFactor q ≤ spreadFactor p := by
  rw [spreadFactor, spreadFactor]
  split_ifs with hq hp hp
  · exact max_le_max le_rfl (by linarith)
  · exact max_le (by norm_num) (by linarith)
  · exact absurd (hp.trans_le h) hq
  · exact le_rfl

lemma regime_multiplier_nonneg (regime : Regime) : 0 ≤ regime.multiplier := by
  cases regime <;> norm_num [Regime.multiplier]

lemma positionFraction_nonneg (hsizer : sizer.Nonneg) (h : sizer.Admits edge positions) :
    0 ≤ sizer.positionFraction edge := by
  have hkelly := (kellyToBet_pos_iff.mpr ⟨h.price_lt_prob, h.price_lt_lowered⟩).le
  have hconfidence := hsizer.minConfidence.trans h.confident
  have hfraction := hsizer.kellyFraction
  have hspread := spreadFactor_nonneg edge.spread
  have hregime := regime_multiplier_nonneg edge.regime
  rw [positionFraction]
  rw [spreadFactor] at hspread
  positivity

lemma positionFraction_mono (hsizer : sizer.Nonneg) (h : NoBetter edge edge')
    (hadmits : sizer.Admits edge positions) (hadmits' : sizer.Admits edge' positions') :
    sizer.positionFraction edge ≤ sizer.positionFraction edge' := by
  have hkelly : sizer.kellyToBet edge ≤ sizer.kellyToBet edge' := by
    rw [kellyToBet_of_admits hadmits, kellyToBet_of_admits hadmits', h.sidePrice]
    exact kelly_mono edge.sidePrice_pos edge.sidePrice_lt_one (h.loweredProb hsizer.uncertaintyZScore)
  have hkelly_nonneg := (kellyToBet_pos_iff.mpr ⟨hadmits.price_lt_prob, hadmits.price_lt_lowered⟩).le
  have hconfidence := hsizer.minConfidence.trans hadmits.confident
  have hstake : sizer.kellyToBet edge * sizer.kellyFraction ≤
      sizer.kellyToBet edge' * sizer.kellyFraction :=
    mul_le_mul_of_nonneg_right hkelly hsizer.kellyFraction
  have hstake_nonneg := mul_nonneg hkelly_nonneg hsizer.kellyFraction
  have hconfident := mul_le_mul hstake h.confidence hconfidence (hstake_nonneg.trans hstake)
  have hconfident_nonneg := mul_nonneg hstake_nonneg hconfidence
  have hspread := mul_le_mul hconfident (spreadFactor_anti h.spread) (spreadFactor_nonneg _)
    (hconfident_nonneg.trans hconfident)
  rw [positionFraction, positionFraction, h.regime]
  exact mul_le_mul_of_nonneg_right hspread (regime_multiplier_nonneg _)

/-- More positions have no less exposure. -/
lemma exposure_le (h : positions.Subperm positions')
    (hsizes : ∀ position ∈ positions', 0 ≤ position.size) :
    exposure positions ≤ exposure positions' := by
  obtain ⟨some, hperm, hsub⟩ := h
  rw [exposure, exposure, ← (hperm.map (·.size)).sum_eq]
  apply (hsub.map _).sum_le_sum
  intro size hsize
  obtain ⟨position, hposition, rfl⟩ := List.mem_map.mp hsize
  exact hsizes position hposition

lemma positionCap_anti (hcategory : edge'.category = edge.category)
    (h : positions'.Subperm positions) (hsizes : ∀ position ∈ positions, 0 ≤ position.size) :
    sizer.positionCap edge positions ≤ sizer.positionCap edge' positions' := by
  have hexposure := exposure_le h hsizes
  have hcategories := exposure_le (h.filter (·.category = edge.category))
    fun position hposition => hsizes position (List.mem_filter.mp hposition).1
  have hroom : min (sizer.bankroll * sizer.maxPositionPct)
      (min (max 0 (sizer.bankroll * sizer.maxPortfolioPct - exposure positions))
        (max 0 (sizer.bankroll * sizer.maxCategoryExposurePct -
          exposure (positions.filter (·.category = edge.category))))) ≤
      min (sizer.bankroll * sizer.maxPositionPct)
        (min (max 0 (sizer.bankroll * sizer.maxPortfolioPct - exposure positions'))
          (max 0 (sizer.bankroll * sizer.maxCategoryExposurePct -
            exposure (positions'.filter (·.category = edge.category))))) := by
    refine min_le_min le_rfl (min_le_min (max_le_max le_rfl ?_) (max_le_max le_rfl ?_))
    · exact sub_le_sub_left hexposure _
    · exact sub_le_sub_left hcategories _
  rw [positionCap, positionCap, hcategory]
  cases sizer.maxSingleLossUsdc with
  | none => exact hroom
  | some cap => exact min_le_min hroom le_rfl

lemma positionCap_nonneg (hsizer : sizer.Nonneg) : 0 ≤ sizer.positionCap edge positions := by
  have hroom := le_min (mul_nonneg hsizer.bankroll hsizer.maxPositionPct)
    (le_min (le_max_left 0 (sizer.bankroll * sizer.maxPortfolioPct - exposure positions))
      (le_max_left 0 (sizer.bankroll * sizer.maxCategoryExposurePct -
        exposure (positions.filter (·.category = edge.category)))))
  have hcap := hsizer.maxSingleLossUsdc
  rw [positionCap]
  cases hloss : sizer.maxSingleLossUsdc with
  | none => exact hroom
  | some cap => exact le_min hroom (hcap cap hloss)

/-- What admits the worse opportunity next to more positions admits the better one. -/
lemma Admits.mono (h : sizer.Admits edge positions) (hz : 0 ≤ sizer.uncertaintyZScore)
    (hbetter : NoBetter edge edge') (hpositions : positions'.Subperm positions) :
    sizer.Admits edge' positions' where
  confident := h.confident.trans hbetter.confidence
  price_lt_prob := hbetter.sidePrice ▸ h.price_lt_prob.trans_le hbetter.sideProb
  price_lt_lowered := hbetter.sidePrice ▸ h.price_lt_lowered.trans_le (hbetter.loweredProb hz)
  few := lt_of_le_of_lt (by exact_mod_cast hpositions.length_le) h.few
  few_inCategory := by
    rw [hbetter.category]
    exact lt_of_le_of_lt (by exact_mod_cast (hpositions.filter _).length_le) h.few_inCategory

lemma calculatePosition_nonneg (hmin : 0 ≤ sizer.minPosition) (d : ℚ) :
    0 ≤ sizer.calculatePosition edge positions d := by
  by_cases hadmits : sizer.Admits edge positions
  · rw [calculatePosition_of_admits hadmits]
    exact finish_nonneg hmin _
  · rw [calculatePosition_of_not_admits hadmits]

lemma finish_of_nonpos (hmin : 0 ≤ sizer.minPosition) (hp : p ≤ 0) : sizer.finish p = 0 := by
  rw [finish]
  split_ifs with hlt
  · rfl
  · rw [le_antisymm hp (hmin.trans (not_lt.mp hlt)), roundTo_zero]

/-- A position that is not negative gets no smaller when it and the multiplier grow. -/
lemma finish_scale_mono (hmin : 0 ≤ sizer.minPosition) (hp : 0 ≤ p) (hpq : p ≤ q) (hd : d ≤ d') :
    sizer.finish (p * d) ≤ sizer.finish (q * d') := by
  rcases le_or_gt 0 d' with hd' | hd'
  · apply finish_mono hmin
    calc p * d ≤ p * d' := mul_le_mul_of_nonneg_left hd hp
      _ ≤ q * d' := mul_le_mul_of_nonneg_right hpq hd'
  · rw [finish_of_nonpos hmin (mul_nonpos_of_nonneg_of_nonpos hp (hd.trans hd'.le))]
    exact finish_nonneg hmin _

/-- A size does not grow with the uncertainty, the spread and the positions there are, it does not
shrink with the probability of the contract, the confidence and the multiplier, and it is the same from
both sides of the market. -/
theorem calculatePosition_mono (hsizer : sizer.Nonneg) (hbetter : NoBetter edge edge')
    (hpositions : positions'.Subperm positions) (hsizes : ∀ position ∈ positions, 0 ≤ position.size)
    (hd : d ≤ d') :
    sizer.calculatePosition edge positions d ≤ sizer.calculatePosition edge' positions' d' ∧
      sizer.calculatePosition edge.mirror positions d = sizer.calculatePosition edge positions d := by
  constructor
  · by_cases hadmits : sizer.Admits edge positions
    · have hadmits' := hadmits.mono hsizer.uncertaintyZScore hbetter hpositions
      rw [calculatePosition_of_admits hadmits, calculatePosition_of_admits hadmits']
      have hfraction := mul_le_mul_of_nonneg_right
        (positionFraction_mono hsizer hbetter hadmits hadmits') hsizer.bankroll
      have hcap : sizer.positionCap edge positions ≤ sizer.positionCap edge' positions' :=
        positionCap_anti hbetter.category hpositions hsizes
      have hfraction_nonneg := mul_nonneg (positionFraction_nonneg hsizer hadmits) hsizer.bankroll
      exact finish_scale_mono hsizer.minPosition (le_min hfraction_nonneg (positionCap_nonneg hsizer))
        (min_le_min hfraction hcap) hd
    · rw [calculatePosition_of_not_admits hadmits]
      exact calculatePosition_nonneg hsizer.minPosition d'
  · have hkelly : sizer.kellyToBet edge.mirror = sizer.kellyToBet edge := by
      rw [kellyToBet, kellyToBet, betOf_eq, betOf_eq, EdgeResult.sidePrice_mirror,
        EdgeResult.sideProb_mirror]
      rfl
    have hfraction : sizer.positionFraction edge.mirror = sizer.positionFraction edge := by
      rw [positionFraction, positionFraction, hkelly]
      rfl
    rw [calculatePosition, calculatePosition, hkelly, hfraction]
    rfl

/-- The opportunity of `goodEdge`, less certain and next to two positions. -/
theorem calculatePosition_mono_goodEdge :
    largeSizer.calculatePosition { goodEdge with uncertainty := 1 / 10, confidence := 1 / 2 }
        [⟨3, some "sports"⟩, ⟨4, none⟩] (1 / 2) ≤
      largeSizer.calculatePosition goodEdge [⟨4, none⟩] 1 := by
  have hnonneg : largeSizer.Nonneg := by
    constructor
    case maxSingleLossUsdc => exact fun cap hcap => by cases hcap
    all_goals norm_num [largeSizer]
  have hbetter : NoBetter { goodEdge with uncertainty := 1 / 10, confidence := 1 / 2 } goodEdge := by
    constructor <;> simp [goodEdge, EdgeResult.sidePrice, EdgeResult.sideProb]
    norm_num
  have hpositions : [⟨4, none⟩].Subperm [⟨3, some "sports"⟩, (⟨4, none⟩ : HeldPosition)] :=
    (List.sublist_cons_self _ _).subperm
  exact (calculatePosition_mono hnonneg hbetter hpositions (by decide +kernel) (by norm_num)).1

end PositionSizer
end PolyCortex
