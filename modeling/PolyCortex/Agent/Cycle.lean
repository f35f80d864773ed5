import PolyCortex.Agent.Deployment
import PolyCortex.Coroutine.Zoom
import PolyCortex.Execution.Runs
import PolyCortex.Risk.Drawdown
import PolyCortex.Tracking.Reconciler

/-!
# The trading cycle

`run_cycle` as a coroutine over the state of the agent. What the scan and the models deliver is asked
for (`scan`, `analyze`); the operations of the executor run as they do in `Execution`, on its part of
the state. The database may fail while lifecycle events are booked.
-/

namespace PolyCortex

open Coroutine (Component World Oracle Outcome get modify modifyGet)

/-! ### The agent -/

/-- The settings, as `validate_config` lets them pass. -/
structure Settings where
  deployment : Deployment
  bankroll : ℚ := 100
  sizing : PositionSizer := {}
  drawdownReduce : ℚ := 8 / 100
  drawdownStop : ℚ := 15 / 100
  drawdownEmergency : ℚ := 20 / 100
  dailyLossLimitUsdc : Option ℚ := none
  opportunityTopN : ℤ := 10
  takerFeeRate : ℚ := 2 / 100
  autoClosePhantoms : Bool := false
  bankroll_pos : 0 < bankroll := by norm_num
  reduce_pos : 0 < drawdownReduce := by norm_num
  reduce_lt : drawdownReduce < drawdownStop := by norm_num
  stop_lt : drawdownStop < drawdownEmergency := by norm_num
  emergency_lt : drawdownEmergency < 1 := by norm_num

namespace Settings

def cfg (st : Settings) : Config := st.deployment.cfg

end Settings

structure AgentState where
  executor : Executor
  tracker : Tracker
  drawdown : DrawdownController
  sizer : PositionSizer
  bankroll : ℚ
  files : Files
  consecutiveFailures : ℕ := 0

/-- `TradingAgent.__init__` and `startup_checks`. -/
def AgentState.start (st : Settings) (now : Time) (executor : Executor) (tracker : Tracker)
    (files : Files) : AgentState :=
  let drawdown : DrawdownController :=
    { reduceAt := st.drawdownReduce
      stopAt := st.drawdownStop
      emergencyAt := st.drawdownEmergency
      peak := st.bankroll
      dailyLossLimitUsdc := st.dailyLossLimitUsdc
      dailyResetDate := utcDay now }
  let tier := (drawdown.getStatus st.bankroll).tier
  let drawdown :=
    if ¬ st.deployment.Halted files ∧ (tier = .stopped ∨ tier = .emergency) then
      drawdown.resetPeak st.bankroll
    else drawdown
  { executor
    tracker
    drawdown := drawdown.update st.bankroll
    sizer := st.sizing.updateBankroll st.bankroll
    bankroll := st.bankroll
    files }

/-! ### What the cycle is told -/

structure Market where
  conditionId : MarketId
  clobTokenIds : List TokenId

/-- What is kept of the order book of the first token of a market. -/
structure OrderBookSnapshot where
  midpoint : ℚ
  bestBid : ℚ
  bestAsk : ℚ
  bids : List Level
  asks : List Level

/-- The entry of `order_books` for a market. -/
structure BookData where
  midpoint : ℚ
  bestBid : ℚ
  bestAsk : ℚ
  bids : List Level
  asks : List Level
  tokenId : TokenId
  noTokenId : TokenId

inductive AgentRequest where
  /-- Steps 1 and 2: the markets that pass the filters, each with its book if that was read. -/
  | scan
  /-- Steps 3 to 7: the edges that are large enough. -/
  | analyze
  /-- A request of the executor. -/
  | exec (q : Request)

/-- No answer stands for an exception. -/
abbrev AgentReply : AgentRequest → Type
  | .scan => Option (List (Market × Option OrderBookSnapshot))
  | .analyze => Option (List EdgeResult)
  | .exec q => Reply q

abbrev AgentProgram := Coroutine AgentState AgentRequest AgentReply

/-- The executor as a part of the agent. -/
def executorPart : Component Executor AgentState Request AgentRequest Reply AgentReply where
  get a := a.executor
  set s a := { a with executor := s }
  embed := .exec
  answer _ r := r
  get_set _ _ := rfl
  set_set _ _ _ := rfl
  set_get _ := rfl

def scanMarkets : AgentProgram (Option (List (Market × Option OrderBookSnapshot))) :=
  Coroutine.ask AgentRequest.scan

def analyzeMarkets : AgentProgram (Option (List EdgeResult)) := Coroutine.ask AgentRequest.analyze

/-- Await an operation of the executor. -/
def onExecutor {α : Type} (p : Program α) : AgentProgram α := p.zoom executorPart

/-- Where the database fails while an event is booked. -/
inductive DbCall where
  | sync
  | lookup
  | recordFee
  | closeLookup
  | close
  deriving DecidableEq, Repr

/-- What a cycle reads without awaiting: the clock at its stages, whether the executor's ledger can be
written, and which database calls fail. -/
structure CycleInput where
  reconcileAt : Time
  bookingAt : Time
  sizingAt : Time
  placeAt : ℕ → Time
  settleAt : Time
  /-- The clock as text, in the kill switch file. -/
  timestamp : String := ""
  ledgerWritable : Bool := true
  /-- What fails at the `n`-th lifecycle event. -/
  failure : ℕ → Option DbCall := fun _ => none

/-! ### Collecting the books -/

/-- The book data of a market whose book was read. -/
def bookData (snapshot : OrderBookSnapshot) (yesToken : TokenId) (tokens : List TokenId) : BookData where
  midpoint := snapshot.midpoint
  bestBid := snapshot.bestBid
  bestAsk := snapshot.bestAsk
  bids := snapshot.bids
  asks := snapshot.asks
  tokenId := yesToken
  noTokenId := tokens.head?.getD ""

/-- Add a market to `order_books`. -/
def addBook (books : Dict MarketId BookData) (scanned : Market × Option OrderBookSnapshot) :
    Dict MarketId BookData :=
  match scanned.1.clobTokenIds, scanned.2 with
  | yesToken :: tokens, some snapshot =>
    books.set scanned.1.conditionId (bookData snapshot yesToken tokens)
  | _, _ => books

/-- `order_books`. -/
def orderBooks (scanned : List (Market × Option OrderBookSnapshot)) : Dict MarketId BookData :=
  scanned.foldl addBook .empty

/-- What the executor reads of the books. -/
def marketBooks (books : Dict MarketId BookData) : MarketBooks := fun marketId =>
  (books.get? marketId).map fun data =>
    { midpoint := some data.midpoint, bestBid := some data.bestBid, bestAsk := some data.bestAsk }

/-! ### Booking lifecycle events -/

/-- The fee on what an order has filled. -/
def takerFee (st : Settings) (order : Order) : ℚ :=
  |pyOr order.filledSizeUsdc order.sizeUsdc * st.takerFeeRate|

/-- Book the event of an entry; `false` when a database call raised. -/
def bookEntry (st : Settings) (failure : Option DbCall) (order : Order) (a : AgentState) :
    Bool × AgentState :=
  if failure = some .sync then (false, a)
  else
    let a := { a with tracker := a.tracker.syncEntryOrder order }
    if ¬ order.isPaper ∧ order.status = .filled then
      if failure = some .lookup then (false, a)
      else
        match a.tracker.getTradeIdForOrder order.orderId with
        | none => (true, a)
        | some tradeId =>
          if (a.tracker.getTrade tradeId).any (·.feeUsdc = 0) then
            if failure = some .recordFee then (false, a)
            else (true, { a with tracker := a.tracker.recordFee tradeId (takerFee st order) 0 })
          else (true, a)
    else (true, a)

/-- Charge the fee of an exit to the trade of its entry. -/
def chargeExitFee (st : Settings) (order : Order) (t : Tracker) : Tracker :=
  match t.getTradeIdForOrder (order.parentOrderId.getD order.orderId) with
  | some tradeId => t.recordFee tradeId (takerFee st order) 0
  | none => t

/-- Close the trade of an exit and record its PnL. A failure is rolled back and reported as no PnL. -/
def closeForExit (input : CycleInput) (failure : Option DbCall) (event : OrderLifecycleEvent)
    (order : Order) (a : AgentState) : AgentState :=
  if failure = some .close then a
  else
    let reason := if event.message = "" then order.orderKind.text else event.message
    let (pnl, tracker) :=
      a.tracker.closeTradeForOrder order event.fillPrice reason .closed input.bookingAt
    let a := { a with tracker }
    if pnl ≠ 0 then { a with drawdown := a.drawdown.recordTradePnl input.bookingAt pnl } else a

/-- Book the event of another order. -/
def bookExit (st : Settings) (input : CycleInput) (failure : Option DbCall)
    (event : OrderLifecycleEvent) (order : Order) (a : AgentState) : Bool × AgentState :=
  if failure = some .sync then (false, a)
  else
    let a := { a with tracker := a.tracker.syncBracketState order }
    if event.eventType = .exitFilled then
      if failure = some .lookup then (false, a)
      else
        let tradeId := a.tracker.getTradeIdForOrder (order.parentOrderId.getD order.orderId)
        if failure = some .recordFee ∧ tradeId.isSome then (false, a)
        else
          let a := { a with tracker := chargeExitFee st order a.tracker }
          if failure = some .closeLookup then (false, a)
          else (true, closeForExit input failure event order a)
    else (true, a)

/-- Book one event. The snapshot of an event is the order itself. -/
def bookEvent (st : Settings) (input : CycleInput) (failure : Option DbCall)
    (event : OrderLifecycleEvent) (a : AgentState) : Bool × AgentState :=
  match a.executor.orders.get? event.orderSnapshot with
  | none => (true, a)
  | some order =>
    if order.orderKind = .entry then bookEntry st failure order a
    else bookExit st input failure event order a

/-- Book events up to the first exception; `n` events were booked before. -/
def bookEvents (st : Settings) (input : CycleInput) :
    ℕ → List OrderLifecycleEvent → AgentState → Bool × AgentState
  | _, [], a => (true, a)
  | n, event :: events, a =>
    match bookEvent st input (input.failure n) event a with
    | (true, a) => bookEvents st input (n + 1) events a
    | (false, a) => (false, a)

/-- `_reconcile_order_lifecycle`. -/
def reconcileOrderLifecycle (st : Settings) (input : CycleInput) (books : Dict MarketId BookData) :
    AgentProgram Bool := do
  let events ← onExecutor (reconcileOrders st.cfg (marketBooks books) input.reconcileAt)
  modifyGet (bookEvents st input 0 events)

/-! ### Sizing and placing -/

/-- Show the bankroll to the drawdown controller, before it is asked. -/
def beginSizing (a : AgentState) : AgentState := { a with drawdown := a.drawdown.update a.bankroll }

/-- The emergency branch. -/
def emergencyExit (st : Settings) (input : CycleInput) : AgentProgram Unit := do
  let _ ← onExecutor (cancelAllOpenOrders st.cfg)
  modify fun a =>
    { a with
      files := st.deployment.halt input.timestamp "Emergency drawdown threshold breached" a.files }

/-- `xs[:n]`. -/
def sliceTo {α : Type} (n : ℤ) (xs : List α) : List α :=
  if 0 ≤ n then xs.take n.toNat else xs.take (xs.length - (-n).toNat)

/-- The opportunities that are considered, best first. -/
def topOpportunities (st : Settings) (edges : List EdgeResult) : List EdgeResult :=
  sliceTo (min 5 st.opportunityTopN)
    (edges.insertionSort fun e f => f.edge * f.confidence ≤ e.edge * e.confidence)

/-- The token that is bought. -/
def tokenFor (edge : EdgeResult) (data : Option BookData) : TokenId :=
  match data with
  | none => ""
  | some data =>
    if edge.direction = .no ∧ data.noTokenId ≠ "" then data.noTokenId else data.tokenId

/-- The slippage check of the cycle itself, in live mode. -/
def slippageAccepted (st : Settings) (size : ℚ) (data : Option BookData) : Bool :=
  match data with
  | none => true
  | some data =>
    st.cfg.dryRun || data.bids = [] || data.asks = [] ||
      checkSlippageOk size .buy data.bids data.asks st.cfg.maxSlippageBps

/-- What is handed to `place_order`. -/
def placeRequest (st : Settings) (edge : EdgeResult) (size : ℚ) (data : Option BookData) :
    PlaceRequest where
  marketId := edge.marketId
  direction := edge.direction
  sizeUsdc := size
  price := edge.marketPrice
  tokenId := tokenFor edge data
  bracketSpec := st.cfg.defaultBracketSpec
  marketBook := some ((data.map (·.bids)).getD [], (data.map (·.asks)).getD [])

/-- Record a trade for the order `orderId`, and what it costs. -/
def recordPlacement (st : Settings) (now : Time) (edge : EdgeResult) (size : ℚ) (orderId : OrderId)
    (a : AgentState) : AgentState :=
  match a.executor.orders.get? orderId with
  | none => a
  | some order =>
    let tracker := a.tracker.insertTrade edge size order now
    let tracker :=
      match tracker.getTradeIdForOrder orderId with
      | some tradeId =>
        if order.isPaper ∨ order.status = .filled then
          tracker.recordFee tradeId (size * st.takerFeeRate) 0
        else tracker
      | none => tracker
    if order.status = .filled then
      { a with
        tracker
        bankroll := max 0 (a.bankroll - size)
        sizer := a.sizer.updateBankroll (max 0 (a.bankroll - size)) }
    else { a with tracker }

/-- One opportunity, given the open positions; the positions that are open after it. -/
def placeOpportunity (st : Settings) (input : CycleInput) (books : Dict MarketId BookData)
    (multiplier : ℚ) (n : ℕ) (edge : EdgeResult) (positions : List Trade) :
    AgentProgram (List Trade) := do
  let a ← get
  let size := a.sizer.calculatePosition edge (positions.map (·.held)) multiplier
  let data := books.get? edge.marketId
  if size ≤ 0 then pure positions
  else if ¬ slippageAccepted st size data then pure positions
  else
    let env := st.deployment.ambient a.files (input.placeAt n) input.ledgerWritable
    match ← onExecutor (placeOrder st.cfg env (placeRequest st edge size data)) with
    | none => pure positions
    | some orderId => modifyGet fun a =>
      let a := recordPlacement st (input.placeAt n) edge size orderId a
      (a.tracker.getOpenPositions, a)

/-- The loop over the opportunities. -/
def placeOpportunities (st : Settings) (input : CycleInput) (books : Dict MarketId BookData)
    (multiplier : ℚ) : ℕ → List EdgeResult → List Trade → AgentProgram (List Trade)
  | _, [], positions => pure positions
  | n, edge :: edges, positions => do
    let positions ← placeOpportunity st input books multiplier n edge positions
    placeOpportunities st input books multiplier (n + 1) edges positions

/-! ### The end of the cycle -/

/-- The bankroll from the realized PnL and the capital in open positions. -/
def settleBankroll (st : Settings) (positions : List Trade) (a : AgentState) : AgentState :=
  let bankroll := max 0 (st.bankroll + a.tracker.totalPnl - Tracker.openCapital positions)
  { a with
    bankroll
    sizer := a.sizer.updateBankroll bankroll
    drawdown := a.drawdown.update bankroll }

/-- Tell the ledger of an order that has expired or was cancelled for its age. -/
def syncExpired (a : AgentState) (orderId : OrderId) : AgentState :=
  match a.executor.orders.get? orderId with
  | none => a
  | some order =>
    { a with
      tracker :=
        if order.orderKind = .entry then a.tracker.syncEntryOrder order
        else a.tracker.syncBracketState order }

/-- Cancel expired orders and reconcile the positions. -/
def tidyUp (st : Settings) (input : CycleInput) : AgentProgram Unit := do
  let expired ← onExecutor (cancelExpiredOrders st.cfg input.settleAt)
  modify fun a =>
    let a := expired.foldl syncExpired a
    { a with
      tracker := reconcilePositions st.autoClosePhantoms input.settleAt a.executor a.tracker
      consecutiveFailures := 0 }

/-- The `finally` block. -/
def concludeCycle (st : Settings) (input : CycleInput) (a : AgentState) : AgentState :=
  { a with
    files := st.deployment.concludeCycle input.timestamp a.consecutiveFailures a.files }

/-- What a cycle has come to: the state in which positions were sized, and the ledger the bankroll was
settled on. -/
structure CycleReport where
  sizing : Option AgentState := none
  settled : Option Tracker := none

/-- Steps 8 to 14. -/
def sizeAndExecute (st : Settings) (input : CycleInput) (books : Dict MarketId BookData)
    (edges : List EdgeResult) : AgentProgram CycleReport := do
  modify beginSizing
  let a ← get
  if a.drawdown.shouldCloseAll a.bankroll then
    emergencyExit st input
    pure { sizing := some a }
  else
    let positions ← placeOpportunities st input books (a.drawdown.getMultiplier a.bankroll) 0
      (topOpportunities st edges) a.tracker.getOpenPositions
    modify (settleBankroll st positions)
    let settled ← get
    tidyUp st input
    pure { sizing := some a, settled := some settled.tracker }

/-- An exception ends the cycle. -/
def failCycle : AgentProgram CycleReport := do
  modify fun a => { a with consecutiveFailures := a.consecutiveFailures + 1 }
  pure {}

/-- The `try` block of `run_cycle`. -/
def attemptCycle (st : Settings) (input : CycleInput) : AgentProgram CycleReport := do
  let a ← get
  if st.deployment.Halted a.files then pure {}
  else
    match ← scanMarkets with
    | none => failCycle
    | some scanned =>
      if ← reconcileOrderLifecycle st input (orderBooks scanned) then
        match ← analyzeMarkets with
        | none => failCycle
        | some edges => sizeAndExecute st input (orderBooks scanned) edges
      else failCycle

/-- `run_cycle`. -/
def runCycle (st : Settings) (input : CycleInput) : AgentProgram CycleReport := do
  let report ← attemptCycle st input
  modify (concludeCycle st input)
  pure report

/-! ### Runs of the agent -/

/-- What happens to a running agent. -/
inductive AgentMove where
  | cycle (input : CycleInput) (answers : Oracle AgentRequest AgentReply)
  /-- `run_forever` has paused after too many failures. -/
  | pause
  /-- The operator, or another process, writes or removes a file. -/
  | changeFile (location : Location) (file : Option File)

/-- The agent with the reports of the cycles it has been through. -/
structure AgentRun where
  state : AgentState
  reports : List CycleReport := []

def AgentRun.perform (st : Settings) (r : AgentRun) : AgentMove → AgentRun
  | .cycle input answers =>
    let outcome := (runCycle st input).run answers r.state
    ⟨outcome.state, r.reports ++ [outcome.result]⟩
  | .pause => { r with state := { r.state with consecutiveFailures := 0 } }
  | .changeFile location file =>
    { r with state := { r.state with files := r.state.files.set location file } }

def AgentRun.run (st : Settings) (r : AgentRun) (moves : List AgentMove) : AgentRun :=
  moves.foldl (AgentRun.perform st) r

end PolyCortex
