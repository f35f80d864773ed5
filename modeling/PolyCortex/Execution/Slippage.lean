import PolyCortex.Execution.Order
import Mathlib.Data.List.Sort

/-!
# Slippage estimate

`estimate_slippage` walks the side of the book an order would consume and compares the average
price with the midpoint. An infinite slippage is `none`.
-/

namespace PolyCortex

open Rounding

/-- A level of the book: price and size. -/
abbrev Level := ℚ × ℚ

structure SlippageEstimate where
  estimatedVwap : ℚ
  midpoint : ℚ
  slippageBps : Option ℚ
  totalDepthUsdc : ℚ
  levelsConsumed : ℕ
  sufficientLiquidity : Bool
  deriving DecidableEq, Repr

/-- What the walk over the levels accumulates. -/
structure BookWalk where
  remaining : ℚ
  totalCost : ℚ := 0
  totalFilled : ℚ := 0
  levelsConsumed : ℕ := 0

/-- Consume levels in order until nothing remains to fill. -/
def walkBook : List Level → BookWalk → BookWalk
  | [], walk => walk
  | (price, size) :: levels, walk =>
    if walk.remaining ≤ 0 then walk
    else
      let fillAmount := min walk.remaining size
      walkBook levels
        { remaining := walk.remaining - fillAmount
          totalCost := walk.totalCost + fillAmount * price
          totalFilled := walk.totalFilled + fillAmount
          levelsConsumed := walk.levelsConsumed + 1 }

/-- The side an order consumes, best price first; levels of one price keep their order. -/
def consumedSide (side : Side) (bids asks : List Level) : List Level :=
  match side with
  | .buy => asks.insertionSort fun a b => a.1 ≤ b.1
  | .sell => bids.insertionSort fun a b => b.1 ≤ a.1

def estimateSlippage (orderSizeUsdc : ℚ) (side : Side) (bids asks : List Level) :
    SlippageEstimate :=
  match bids, asks with
  | (bestBid, _) :: _, (bestAsk, _) :: _ =>
    let midpoint := (bestBid + bestAsk) / 2
    let levels := consumedSide side bids asks
    let walk := walkBook levels { remaining := orderSizeUsdc }
    let totalDepthUsdc := (levels.map fun level => level.1 * level.2).sum
    if walk.totalFilled ≤ 0 then
      { estimatedVwap := 0, midpoint, slippageBps := none, totalDepthUsdc,
        levelsConsumed := 0, sufficientLiquidity := false }
    else
      let vwap := walk.totalCost / walk.totalFilled
      let slippage :=
        if 0 < midpoint then
          match side with
          | .buy => (vwap - midpoint) / midpoint
          | .sell => (midpoint - vwap) / midpoint
        else 0
      { estimatedVwap := vwap
        midpoint
        slippageBps := some (roundTo 2 (slippage * 10000))
        totalDepthUsdc := roundTo 2 totalDepthUsdc
        levelsConsumed := walk.levelsConsumed
        sufficientLiquidity := walk.remaining ≤ 0 }
  | _, _ =>
    { estimatedVwap := 0, midpoint := 0, slippageBps := none, totalDepthUsdc := 0,
      levelsConsumed := 0, sufficientLiquidity := false }

def checkSlippageOk (orderSizeUsdc : ℚ) (side : Side) (bids asks : List Level)
    (maxSlippageBps : ℚ) : Bool :=
  let estimate := estimateSlippage orderSizeUsdc side bids asks
  estimate.sufficientLiquidity && estimate.slippageBps.any (· ≤ maxSlippageBps)

end PolyCortex
