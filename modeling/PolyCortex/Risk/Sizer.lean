import PolyCortex.Execution.Order

/-!
# Position sizes

`UnifiedPositionSizer.calculate_position`: fractional Kelly, scaled by confidence, spread and regime,
and cut off by the limits of a position, the portfolio, the category and the drawdown.
-/

namespace PolyCortex

open Rounding

inductive Regime where
  | stable
  | trending
  | volatile
  | other (text : String)
  deriving DecidableEq, Repr

/-- `REGIME_MULTIPLIERS`. -/
def Regime.multiplier : Regime → ℚ
  | .stable => 1
  | .trending => 8 / 10
  | .volatile => 5 / 10
  | .other _ => 5 / 10

/-- What the sizer reads of an edge result. -/
structure EdgeResult where
  marketId : MarketId
  category : Option String := none
  direction : Direction
  edge : ℚ
  confidence : ℚ
  estimatedProb : ℚ
  marketPrice : ℚ
  regime : Regime := .stable
  /-- `signal_breakdown["spread"]`. -/
  spread : ℚ := 0
  uncertainty : ℚ := 0
  deriving DecidableEq, Repr

/-- What the sizer reads of an open position. -/
structure HeldPosition where
  size : ℚ
  category : Option String
  deriving DecidableEq, Repr

structure PositionSizer where
  bankroll : ℚ := 100
  kellyFraction : ℚ := 25 / 100
  maxPositionPct : ℚ := 2 / 100
  maxPortfolioPct : ℚ := 20 / 100
  maxCategoryExposurePct : ℚ := maxPortfolioPct
  maxPositions : ℤ := 10
  maxPerCategory : ℤ := 3
  minConfidence : ℚ := 0
  useUncertaintyBands : Bool := true
  uncertaintyZScore : ℚ := 15 / 10
  minPosition : ℚ := 5
  maxSingleLossUsdc : Option ℚ := none
  deriving DecidableEq, Repr

namespace PositionSizer

def updateBankroll (newBankroll : ℚ) (sizer : PositionSizer) : PositionSizer :=
  { sizer with bankroll := newBankroll }

@[simp] lemma updateBankroll_maxPositions (newBankroll : ℚ) (sizer : PositionSizer) :
    (sizer.updateBankroll newBankroll).maxPositions = sizer.maxPositions := rfl

@[simp] lemma updateBankroll_maxPerCategory (newBankroll : ℚ) (sizer : PositionSizer) :
    (sizer.updateBankroll newBankroll).maxPerCategory = sizer.maxPerCategory := rfl

/-- The Kelly fraction of a bet at odds `b` that is won with probability `p`. -/
def kelly (b p : ℚ) : ℚ := (b * p - (1 - p)) / (b + 1 / 10 ^ 8)

/-- Odds and probability of the side that is bought. -/
def betOf (edge : EdgeResult) : ℚ × ℚ :=
  let price := clampPrice edge.marketPrice
  if edge.direction = .yes then ((1 - price) / price, edge.estimatedProb)
  else (price / (1 - price), 1 - edge.estimatedProb)

/-- The Kelly fraction to bet, at the lower end of the uncertainty band; zero or less is no bet. -/
def kellyToBet (sizer : PositionSizer) (edge : EdgeResult) : ℚ :=
  let (b, p) := betOf edge
  if kelly b p ≤ 0 then kelly b p
  else if sizer.useUncertaintyBands ∧ 0 < edge.uncertainty then
    kelly b (max (1 / 100) (p - sizer.uncertaintyZScore * edge.uncertainty))
  else kelly b p

/-- The part of the bankroll to bet. -/
def positionFraction (sizer : PositionSizer) (edge : EdgeResult) : ℚ :=
  sizer.kellyToBet edge * sizer.kellyFraction * edge.confidence *
    (if 5 / 100 < edge.spread then max (5 / 10) (1 - (edge.spread - 5 / 100) * 5) else 1) *
    edge.regime.multiplier

/-- The exposure of some positions. -/
def exposure (positions : List HeldPosition) : ℚ := (positions.map (·.size)).sum

/-- `calculate_position`. -/
def calculatePosition (sizer : PositionSizer) (edge : EdgeResult) (positions : List HeldPosition)
    (drawdownMultiplier : ℚ) : ℚ :=
  let inCategory := positions.filter (·.category = edge.category)
  if edge.confidence < sizer.minConfidence then 0
  else if sizer.kellyToBet edge ≤ 0 then 0
  else if sizer.maxPositions ≤ positions.length then 0
  else if sizer.maxPerCategory ≤ inCategory.length then 0
  else
    let position := sizer.positionFraction edge * sizer.bankroll
    let position := min position (sizer.bankroll * sizer.maxPositionPct)
    let position := min position (max (sizer.bankroll * sizer.maxPortfolioPct - exposure positions) 0)
    let position := min position
      (max (sizer.bankroll * sizer.maxCategoryExposurePct - exposure inCategory) 0)
    let position :=
      match sizer.maxSingleLossUsdc with
      | some cap => if cap < position then cap else position
      | none => position
    let position := position * drawdownMultiplier
    if position < sizer.minPosition then 0 else roundTo 2 position

/-- A position gets a size only if there is room for it. -/
lemma room_of_calculatePosition_pos {sizer : PositionSizer} {edge : EdgeResult}
    {positions : List HeldPosition} {multiplier : ℚ}
    (h : 0 < sizer.calculatePosition edge positions multiplier) :
    (positions.length : ℤ) < sizer.maxPositions ∧
      ((positions.filter (·.category = edge.category)).length : ℤ) < sizer.maxPerCategory := by
  constructor
  · by_contra hfull
    simp [calculatePosition, not_lt.mp hfull] at h
  · by_contra hfull
    simp [calculatePosition, not_lt.mp hfull] at h

end PositionSizer
end PolyCortex
