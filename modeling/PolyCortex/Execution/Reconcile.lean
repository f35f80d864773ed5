import PolyCortex.Execution.Operations

/-!
# Reconciliation

`reconcile_orders` visits every order present at its start: entries are matched against the book
(paper) or against the exchange's status rows (live), armed bracket children are triggered by the
book. Only live entries await.
-/

namespace PolyCortex

open Coroutine (get modify modifyGet forEach)

/-- What the reconciliation reads from a market's book. -/
structure MarketData where
  midpoint : Option ℚ := none
  bestBid : Option ℚ := none
  bestAsk : Option ℚ := none

abbrev MarketBooks := MarketId → Option MarketData

/-! ### Paper entries -/

/-- The price at which a paper entry would fill, in contract terms. -/
def entryFillPrice (data : MarketData) (order : Order) : ℚ :=
  contractPrice order.direction (data.midpoint.getD order.price)

/-- A paper entry is marketable up to the tolerance above its limit. -/
def isMarketable (cfg : Config) (data : MarketData) (order : Order) : Bool :=
  entryFillPrice data order ≤ order.price + cfg.paperFillTolerance

/-- The part of a paper entry filled in one pass. -/
def paperFillSize (cfg : Config) (order : Order) : ℚ :=
  if cfg.paperAllowPartialFills ∧ 0 < order.remainingSizeUsdc then
    min order.remainingSizeUsdc (max (order.sizeUsdc * cfg.paperPartialFillRatio) 0)
  else order.remainingSizeUsdc

/-- The entry after a marketable pass. -/
def Order.paperFill (cfg : Config) (data : MarketData) (now : Time) (order : Order) : Order :=
  order.applyFill (paperFillSize cfg order) (entryFillPrice data order) now

def entryFillEvent (filled : Order) (message : String) (fillPrice fillSizeUsdc : ℚ) :
    OrderLifecycleEvent where
  eventType := if filled.status = .filled then .entryFilled else .entryPartiallyFilled
  orderId := filled.orderId
  marketId := filled.marketId
  status := .order filled.status
  message
  fillPrice := some fillPrice
  fillSizeUsdc
  orderSnapshot := filled.orderId

/-- A paper entry against the book of its market: a fill, and the bracket when the status moved. -/
def reconcilePaperEntry (cfg : Config) (data : MarketData) (now : Time) (orderId : OrderId)
    (order : Order) : Update (List OrderLifecycleEvent) := fun s =>
  if isMarketable cfg data order then
    let filled := order.paperFill cfg data now
    let s := s.modifyOrder orderId fun _ => filled
    let event := entryFillEvent filled ("Entry " ++ filled.status.text)
      (entryFillPrice data order) (paperFillSize cfg order)
    if filled.status ≠ order.status then
      let (events, s) := armDefaultBrackets cfg now orderId s
      (event :: events, s)
    else ([event], s)
  else ([], s)

/-- An entry that has fills but no children yet gets its bracket. -/
def armDeferred (cfg : Config) (now : Time) (orderId : OrderId) :
    Update (List OrderLifecycleEvent) := fun s =>
  match s.orders.get? orderId with
  | none => ([], s)
  | some order =>
    if (order.bracketState = .pendingFill ∨ order.bracketState = .armed) ∧
        0 < order.filledSizeUsdc ∧ order.bracketOrderIds = [] then
      armDefaultBrackets cfg now orderId s
    else ([], s)

/-! ### Bracket children -/

/-- The book price a child is evaluated at: the bid for a take-profit, the ask for a stop-loss. -/
def triggerEvalPrice (data : MarketData) (order : Order) : ℚ :=
  let fallback := data.midpoint.getD order.price
  match order.orderKind with
  | .takeProfit => data.bestBid.getD fallback
  | .stopLoss => data.bestAsk.getD fallback
  | .entry | .exit => fallback

/-- The same in contract terms. -/
def exitPrice (data : MarketData) (order : Order) : ℚ :=
  contractPrice order.direction (triggerEvalPrice data order)

def shouldTrigger (data : MarketData) (order : Order) : Bool :=
  match order.triggerCondition, order.triggerPrice with
  | some .gte, some triggerPrice => triggerPrice ≤ exitPrice data order
  | some .lte, some triggerPrice => exitPrice data order ≤ triggerPrice
  | _, _ => false

/-- The child after its trigger fired. -/
def Order.exitFill (data : MarketData) (now : Time) (order : Order) : Order :=
  order.applyFill (pyOr order.remainingSizeUsdc order.sizeUsdc) (exitPrice data order) now

/-- The armed orders of `order`'s OCO group, itself excepted. -/
def isOcoSibling (order candidate : Order) : Bool :=
  order.ocoGroupId.isSome && candidate.ocoGroupId = order.ocoGroupId &&
    candidate.orderId ≠ order.orderId && candidate.status = .armed

/-- One cancels the other. -/
def cancelSiblings (order : Order) : Update (List OrderLifecycleEvent) := fun s =>
  ((s.orders.values.filter (isOcoSibling order)).map fun candidate =>
      { eventType := .ocoCancelled
        orderId := candidate.orderId
        marketId := candidate.marketId
        status := .order .cancelled
        message := "Sibling bracket order cancelled"
        parentOrderId := candidate.parentOrderId
        siblingOrderId := some order.orderId
        orderSnapshot := candidate.orderId },
    s.mapOrders fun candidate =>
      if isOcoSibling order candidate then { candidate with status := .cancelled } else candidate)

def gttExpiredEvent (order : Order) : OrderLifecycleEvent where
  eventType := .gttExpired
  orderId := order.orderId
  marketId := order.marketId
  status := .order .expired
  message := "Trigger order expired"
  parentOrderId := order.parentOrderId
  orderSnapshot := order.orderId

def exitFilledEvent (order : Order) (fillPrice : ℚ) (siblings : List OrderLifecycleEvent) :
    OrderLifecycleEvent where
  eventType := .exitFilled
  orderId := order.orderId
  marketId := order.marketId
  status := .order order.status
  message := order.orderKind.text ++ " triggered"
  fillPrice := some fillPrice
  fillSizeUsdc := order.filledSizeUsdc
  parentOrderId := order.parentOrderId
  siblingOrderId := siblings.getLast?.map (·.orderId)
  orderSnapshot := order.orderId

/-- Set the bracket state of the parent of `order`, if there is one. -/
def setParentBracketState (order : Order) (bracketState : BracketState) (s : Executor) : Executor :=
  match order.parentOrderId with
  | some parentId => s.setBracketState parentId bracketState
  | none => s

/-- The child's trigger fires: it is filled, its parent's bracket closes, its sibling goes. -/
def triggerChild (data : MarketData) (now : Time) (orderId : OrderId) (order : Order) :
    Update (List OrderLifecycleEvent) := fun s =>
  let filled := order.exitFill data now
  let s := s.modifyOrder orderId fun _ => filled
  let s := setParentBracketState filled .closed s
  let (siblings, s) := cancelSiblings filled s
  (siblings ++ [exitFilledEvent filled (exitPrice data order) siblings], s)

/-- The child's lifetime is over. -/
def expireChild (orderId : OrderId) (order : Order) : Update (List OrderLifecycleEvent) := fun s =>
  ([gttExpiredEvent order],
    setParentBracketState order .expired (s.setStatus orderId .expired))

/-- A bracket child against the book of its market. -/
def reconcileChild (data : MarketData) (now : Time) (orderId : OrderId) (order : Order) :
    Update (List OrderLifecycleEvent) := fun s =>
  if order.status ≠ .armed then ([], s)
  else if order.isPastExpiry now then expireChild orderId order s
  else if shouldTrigger data order then triggerChild data now orderId order s
  else ([], s)

/-! ### Live entries -/

/-- `_fetch_live_exchange_status`, with the methods still to try. -/
def fetchLiveExchangeStatus (orderId : OrderId) (exchangeId : ExchangeId) :
    List StatusMethod → Program (Option StatusRow)
  | [] => pure none
  | method :: methods => do
    match ← request (.status orderId method exchangeId) with
    | .unsupported => fetchLiveExchangeStatus orderId exchangeId methods
    | .timeout | .failed => pure none
    | .response response =>
      match parseLiveStatusResponse response with
      | some row => pure (some row)
      | none => fetchLiveExchangeStatus orderId exchangeId methods

/-- The rows of all exchange orders that could be read. -/
def fetchStatusRows (orderId : OrderId) (exchangeIds : List ExchangeId) :
    Program (List StatusRow) :=
  forEach (fun exchangeId => do
    let row ← fetchLiveExchangeStatus orderId exchangeId [.getOrder, .getOrderStatus]
    pure row.toList) exchangeIds

def totalFilled (rows : List StatusRow) : ℚ := (rows.map (·.filledSizeUsdc)).sum

/-- The price given to the newly filled part: the last one reported. -/
def lastPrice (order : Order) (rows : List StatusRow) : ℚ :=
  (rows.reverse.findSome? (·.averageFillPrice)).getD order.activePrice

/-- What the rows report beyond what the entry has filled. -/
def deltaFilled (order : Order) (rows : List StatusRow) : ℚ :=
  max (totalFilled rows - order.filledSizeUsdc) 0

/-- The entry after the fills of the rows. -/
def Order.liveFill (rows : List StatusRow) (now : Time) (order : Order) : Order :=
  if 0 < deltaFilled order rows then
    order.applyFill (deltaFilled order rows) (lastPrice order rows) now
  else order

/-- The entry after the statuses of the rows, which count for entries without a fill. -/
def Order.liveStatus (rows : List StatusRow) (order : Order) : Order :=
  if order.status = .filled ∨ order.status = .partiallyFilled then order
  else if rows.any StatusRow.isCancelled then { order with status := .cancelled }
  else if rows.any StatusRow.isExpired then { order with status := .expired }
  else order

def liveFillEvents (order filled : Order) (rows : List StatusRow) :
    List OrderLifecycleEvent :=
  if 0 < deltaFilled order rows then
    [entryFillEvent filled "Live fill reconciliation" (lastPrice order rows)
      (deltaFilled order rows)]
  else []

def liveStatusEvents (filled : Order) (rows : List StatusRow) : List OrderLifecycleEvent :=
  if filled.status = .filled ∨ filled.status = .partiallyFilled then []
  else if rows.any StatusRow.isCancelled then
    [{ eventType := .entryCancelled, orderId := filled.orderId, marketId := filled.marketId,
       status := .order .cancelled, message := "Live order cancelled",
       orderSnapshot := filled.orderId }]
  else if rows.any StatusRow.isExpired then
    [{ eventType := .entryExpired, orderId := filled.orderId, marketId := filled.marketId,
       status := .order .expired, message := "Live order expired",
       orderSnapshot := filled.orderId }]
  else []

/-- What follows the last row: the fill, the status, the bracket. -/
def applyStatusRows (cfg : Config) (now : Time) (orderId : OrderId) (rows : List StatusRow) :
    Update (List OrderLifecycleEvent) := fun s =>
  match s.orders.get? orderId with
  | none => ([], s)
  | some order =>
    if rows = [] then ([], s)
    else
      let filled := order.liveFill rows now
      let s := s.modifyOrder orderId fun _ => filled.liveStatus rows
      let events := liveFillEvents order filled rows ++ liveStatusEvents filled rows
      if 0 < filled.filledSizeUsdc then
        let (armed, s) := armDefaultBrackets cfg now orderId s
        (events ++ armed, s)
      else (events, s)

/-- `_reconcile_live_entry`. -/
def reconcileLiveEntry (cfg : Config) (now : Time) (orderId : OrderId)
    (exchangeIds : List ExchangeId) : Program (List OrderLifecycleEvent) := do
  let rows ← fetchStatusRows orderId exchangeIds
  modifyGet (applyStatusRows cfg now orderId rows)

/-! ### The pass over all orders -/

/-- A non-final entry. Without a book a paper entry is left alone altogether. -/
def reconcileEntry (cfg : Config) (books : MarketBooks) (now : Time) (orderId : OrderId)
    (order : Order) : Program (List OrderLifecycleEvent) := do
  if ¬ order.isPaper ∧ cfg.liveReconcileEnabled ∧ cfg.clobConnected then
    let events ← reconcileLiveEntry cfg now orderId order.exchangeOrderIds
    let armed ← modifyGet (armDeferred cfg now orderId)
    pure (events ++ armed)
  else if order.isPaper ∧ (order.status = .placed ∨ order.status = .partiallyFilled) then
    match books order.marketId with
    | none => pure []
    | some data =>
      let events ← modifyGet (reconcilePaperEntry cfg data now orderId order)
      let armed ← modifyGet (armDeferred cfg now orderId)
      pure (events ++ armed)
  else modifyGet (armDeferred cfg now orderId)

/-- One round of the loop of `_reconcile_orders_unlocked`. -/
def reconcileOrder (cfg : Config) (books : MarketBooks) (now : Time) (orderId : OrderId) :
    Program (List OrderLifecycleEvent) := do
  match (← get).orders.get? orderId with
  | none => pure []
  | some order =>
    match order.orderKind with
    | .entry =>
      if order.status.isFinal then pure []
      else reconcileEntry cfg books now orderId order
    | .takeProfit | .stopLoss =>
      match books order.marketId with
      | none => pure []
      | some data => modifyGet (reconcileChild data now orderId order)
    | .exit => pure []

/-- `reconcile_orders`, over the orders present at its start. -/
def reconcileOrders (cfg : Config) (books : MarketBooks) (now : Time) :
    Program (List OrderLifecycleEvent) := do
  forEach (reconcileOrder cfg books now) (← get).orders.keys

end PolyCortex
