import PolyCortex.Tracking.Tracker

/-!
# Phantom positions

The part of `PositionReconciler` that changes something: trades that the ledger has as open although
the executor knows nothing of them are closed at their entry price, when the settings say so.
-/

namespace PolyCortex

/-- The markets in which the executor has an order that is neither cancelled nor expired. -/
def executorMarketIds (s : Executor) : List MarketId :=
  (s.orders.values.filter fun o => o.status ≠ .cancelled ∧ o.status ≠ .expired).map (·.marketId)

/-- An open trade without an order, in a market without orders. -/
def isPhantom (s : Executor) (trade : Trade) : Bool :=
  trade.isOpen && !(trade.localOrderId.any fun id => (s.orders.get? id).isSome) &&
    !(trade.marketId ∈ executorMarketIds s)

/-- `_check_phantom_positions`: the issues it reports, by their trades. -/
def phantomTrades (s : Executor) (t : Tracker) : List TradeId :=
  t.trades.zipIdx.filterMap fun (trade, tradeId) =>
    if isPhantom s trade then some tradeId else none

/-- Close a phantom at its entry price. -/
def closePhantom (now : Time) (t : Tracker) (tradeId : TradeId) : Tracker :=
  match t.getTrade tradeId with
  | some trade =>
    (t.closePosition tradeId (trade.entryPrice.getD 0) .closed "phantom_reconciliation" now).2
  | none => t

/-- `reconcile`. -/
def reconcilePositions (autoClosePhantoms : Bool) (now : Time) (s : Executor) (t : Tracker) :
    Tracker :=
  if autoClosePhantoms then (phantomTrades s t).foldl (closePhantom now) t else t

end PolyCortex
