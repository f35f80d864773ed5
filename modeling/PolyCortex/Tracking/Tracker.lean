import PolyCortex.Execution.Executor
import PolyCortex.Risk.Sizer

/-!
# The trades ledger

`PerformanceTracker`, on the columns of the `trades` table that its operations compute with: trades
are recorded when an order was placed, follow the orders, and are closed with a PnL. Each operation is
one commit. Nothing deletes a row, so the rows are a list with the row id `n` at the place `n`.
-/

namespace PolyCortex

abbrev TradeId := ℕ

/-- The status of a trade; `opened` is `open`. -/
inductive TradeStatus where
  | opened
  | closed
  | resolved
  deriving DecidableEq, Repr

/-- A row of the `trades` table. -/
structure Trade where
  marketId : MarketId
  direction : Direction
  entryPrice : Option ℚ
  sizeUsdc : ℚ
  timestamp : Time
  status : TradeStatus := .opened
  category : Option String := none
  isPaper : Bool
  localOrderId : Option OrderId := none
  entryOrderStatus : Option OrderStatus := none
  filledSizeUsdc : Option ℚ := none
  remainingSizeUsdc : Option ℚ := none
  averageFillPrice : Option ℚ := none
  takeProfitPrice : Option ℚ := none
  stopLossPrice : Option ℚ := none
  bracketOrderIds : List OrderId := []
  bracketState : EventStatus := .bracket .inactive
  lastFillAt : Option Time := none
  feeUsdc : ℚ := 0
  gasCostUsdc : ℚ := 0
  exitPrice : Option ℚ := none
  pnl : Option ℚ := none
  realizedRoi : Option ℚ := none
  closedAt : Option Time := none
  exitReason : Option String := none
  deriving DecidableEq, Repr

namespace Trade

/-- `_effective_size_usdc`: what is filled, or else what was asked for. -/
def effectiveSizeUsdc (t : Trade) : ℚ :=
  match t.filledSizeUsdc with
  | some filled => if 0 < filled then filled else t.sizeUsdc
  | none => t.sizeUsdc

/-- `row["filled_size_usdc"] or row["size_usdc"]`. -/
def pnlSizeUsdc (t : Trade) : ℚ := pyOr? t.filledSizeUsdc t.sizeUsdc

/-- `_entry_yes_price`. -/
def entryYesPrice (t : Trade) : ℚ :=
  match t.averageFillPrice with
  | none => t.entryPrice.getD 0
  | some average => if t.direction = .no then max 0 (min 1 (1 - average)) else average

/-- `_exit_yes_price`. -/
def exitYesPrice (exitPrice : ℚ) (t : Trade) : ℚ :=
  if t.direction = .no then max 0 (min 1 (1 - exitPrice)) else exitPrice

/-- `_net_pnl`. -/
def netPnl (pnl : ℚ) (t : Trade) : ℚ := pnl - t.feeUsdc - t.gasCostUsdc

/-- The PnL of a trade at a price of the YES side, before fees. -/
def grossPnl (yesPrice : ℚ) (t : Trade) : ℚ :=
  if t.direction = .yes then
    if t.entryYesPrice = 0 then 0
    else (yesPrice - t.entryYesPrice) * t.pnlSizeUsdc / t.entryYesPrice
  else
    if 1 - t.entryYesPrice = 0 then 0
    else (t.entryYesPrice - yesPrice) * t.pnlSizeUsdc / (1 - t.entryYesPrice)

/-- What `close_position` books for an exit at a contract price. -/
def closingPnl (exitPrice : ℚ) (t : Trade) : ℚ := t.netPnl (t.grossPnl (t.exitYesPrice exitPrice))

/-- The row after `close_position`. -/
def close (exitPrice : ℚ) (status : TradeStatus) (exitReason : String) (closedAt : Time) (t : Trade) :
    Trade :=
  { t with
    status
    exitPrice := some (t.exitYesPrice exitPrice)
    pnl := some (t.closingPnl exitPrice)
    closedAt := some closedAt
    exitReason := some exitReason
    realizedRoi :=
      some (if t.pnlSizeUsdc = 0 then 0 else t.closingPnl exitPrice / t.pnlSizeUsdc)
    bracketState := .bracket .closed
    entryOrderStatus := some (t.entryOrderStatus.getD .filled) }

/-- The row after `sync_entry_order`. -/
def syncEntry (order : Order) (t : Trade) : Trade :=
  { t with
    entryOrderStatus := some order.status
    filledSizeUsdc := some order.filledSizeUsdc
    remainingSizeUsdc := some order.remainingSizeUsdc
    averageFillPrice := order.averageFillPrice
    takeProfitPrice := order.takeProfitPrice
    stopLossPrice := order.stopLossPrice
    bracketOrderIds := order.bracketOrderIds
    bracketState := .bracket order.bracketState
    lastFillAt := order.lastFillAt }

/-- The row after `sync_bracket_state`. -/
def syncBracket (order : Order) (t : Trade) : Trade :=
  { t with
    bracketState := .order order.status
    lastFillAt := order.lastFillAt.or t.lastFillAt }

/-- The row after `record_fee`. -/
def chargeFee (feeUsdc gasCostUsdc : ℚ) (t : Trade) : Trade :=
  { t with feeUsdc := t.feeUsdc + feeUsdc, gasCostUsdc := t.gasCostUsdc + gasCostUsdc }

/-- The row after `update_position`. -/
def mark (currentPrice : ℚ) (t : Trade) : Trade :=
  { t with pnl := some (t.netPnl (t.grossPnl currentPrice)) }

def isOpen (t : Trade) : Bool := t.status = .opened

/-- The PnL that counts: of a trade that is closed or resolved. -/
def realizedPnl (t : Trade) : ℚ := if t.isOpen then 0 else t.pnl.getD 0

def held (t : Trade) : HeldPosition := ⟨t.sizeUsdc, t.category⟩

/-- `row.get("category") or "unknown"`. -/
def categoryLabel (t : Trade) : String :=
  match t.category with
  | some category => if category = "" then "unknown" else category
  | none => "unknown"

end Trade

/-- The ledger, with the rows by their ids. -/
structure Tracker where
  trades : List Trade := []
  deriving DecidableEq, Repr

namespace Tracker

/-- Update the row of a trade. -/
def modifyTrade (tradeId : TradeId) (f : Trade → Trade) (t : Tracker) : Tracker :=
  ⟨t.trades.modify tradeId f⟩

/-- `_insert_trade`, for an order that was placed. -/
def insertTrade (edge : EdgeResult) (size : ℚ) (order : Order) (now : Time) (t : Tracker) : Tracker :=
  ⟨t.trades ++
    [{ marketId := edge.marketId
       direction := edge.direction
       entryPrice := some edge.marketPrice
       sizeUsdc := size
       timestamp := now
       category := edge.category
       isPaper := order.isPaper
       localOrderId := some order.orderId
       entryOrderStatus := some order.status
       filledSizeUsdc := some order.filledSizeUsdc
       remainingSizeUsdc := some order.remainingSizeUsdc
       averageFillPrice := order.averageFillPrice
       takeProfitPrice := order.takeProfitPrice
       stopLossPrice := order.stopLossPrice
       bracketOrderIds := order.bracketOrderIds
       bracketState := .bracket order.bracketState
       lastFillAt := order.lastFillAt }]⟩

/-- `get_trade_id_for_order`: the first row of the order. -/
def getTradeIdForOrder (orderId : OrderId) (t : Tracker) : Option TradeId :=
  t.trades.findIdx? (·.localOrderId = some orderId)

def getTrade (tradeId : TradeId) (t : Tracker) : Option Trade := t.trades[tradeId]?

/-- `sync_entry_order`. -/
def syncEntryOrder (order : Order) (t : Tracker) : Tracker :=
  match t.getTradeIdForOrder order.orderId with
  | some tradeId => t.modifyTrade tradeId (·.syncEntry order)
  | none => t

/-- `sync_bracket_state`: every row of the parent follows. -/
def syncBracketState (order : Order) (t : Tracker) : Tracker :=
  match order.parentOrderId with
  | some parentId =>
    ⟨t.trades.map fun trade =>
      if trade.localOrderId = some parentId then trade.syncBracket order else trade⟩
  | none => t

/-- `record_fee`. -/
def recordFee (tradeId : TradeId) (feeUsdc gasCostUsdc : ℚ) (t : Tracker) : Tracker :=
  t.modifyTrade tradeId (·.chargeFee feeUsdc gasCostUsdc)

/-- `update_position`. -/
def updatePosition (tradeId : TradeId) (currentPrice : ℚ) (t : Tracker) : Tracker :=
  t.modifyTrade tradeId (·.mark currentPrice)

/-- `close_position`; the PnL it returns is 0 for a trade that does not exist. -/
def closePosition (tradeId : TradeId) (exitPrice : ℚ) (status : TradeStatus) (exitReason : String)
    (closedAt : Time) (t : Tracker) : ℚ × Tracker :=
  match t.getTrade tradeId with
  | some trade =>
    (trade.closingPnl exitPrice,
      t.modifyTrade tradeId (·.close exitPrice status exitReason closedAt))
  | none => (0, t)

/-- The exit price of `close_trade_for_order`. -/
def exitPriceOf (exitPrice : Option ℚ) (order : Order) : ℚ :=
  match exitPrice with
  | some price => if price < 0 then 0 else price
  | none => pyOr? order.averageFillPrice order.price

/-- `close_trade_for_order`. -/
def closeTradeForOrder (order : Order) (exitPrice : Option ℚ) (exitReason : String)
    (status : TradeStatus) (now : Time) (t : Tracker) : ℚ × Tracker :=
  match t.getTradeIdForOrder (order.parentOrderId.getD order.orderId) with
  | some tradeId =>
    (t.syncBracketState order).closePosition tradeId (exitPriceOf exitPrice order) status exitReason
      (order.lastFillAt.getD now)
  | none => (0, t)

/-- The trades that count as open, with their ids. -/
def openTrades (t : Tracker) : List (TradeId × Trade) :=
  t.trades.zipIdx.filterMap fun (trade, id) => if trade.isOpen then some (id, trade) else none

/-- `get_open_positions`; the order of the rows is left out, nothing depends on it. -/
def getOpenPositions (t : Tracker) : List Trade := t.trades.filter (·.isOpen)

/-- `get_metrics()["total_pnl"]`. -/
def totalPnl (t : Tracker) : ℚ := (t.trades.map (·.realizedPnl)).sum

/-- `get_metrics()["current_exposure"]`. -/
def currentExposure (t : Tracker) : ℚ := (t.getOpenPositions.map (·.effectiveSizeUsdc)).sum

/-- `get_metrics()["exposure_by_category"]`. -/
def exposureByCategory (category : String) (t : Tracker) : ℚ :=
  ((t.getOpenPositions.filter (·.categoryLabel = category)).map (·.effectiveSizeUsdc)).sum

/-- The capital in some positions, as `run_cycle` adds it up. -/
def openCapital (positions : List Trade) : ℚ := (positions.map (·.sizeUsdc)).sum

end Tracker
end PolyCortex
