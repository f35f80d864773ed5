import PolyCortex.Coroutine.Contract
import PolyCortex.Execution.Executor

/-!
# The operations of the executor

The methods of `OrderExecutor` as coroutines: each is written once, with an `ask` at every await of
the source, and the synchronous parts of `Execution.Executor` in between. Run alone they give the
sequential behaviour; `Coroutine.Pool` interleaves them.
-/

namespace PolyCortex

open Coroutine (get modify modifyGet forEach)

abbrev Program := Coroutine Executor Request Reply

/-- Await the answer to a request. -/
def request (q : Request) : Program (Reply q) := Coroutine.ask q

/-! ### Placing an entry -/

/-- Number of chunks and size of each: large orders are split, into at most 15. -/
def splitIntoChunks (cfg : Config) (sizeUsdc : ℚ) : ℕ × ℚ :=
  if cfg.splitOrdersAbove < sizeUsdc then
    let chunks := min ⌈sizeUsdc / 20⌉.toNat 15
    (chunks, sizeUsdc / chunks)
  else (1, sizeUsdc)

/-- The limit price of an entry, in contract terms. -/
def limitPrice (direction : Direction) (price : ℚ) : ℚ :=
  clampPrice (if direction = .yes then price - 1 / 1000 else 1 - price - 1 / 1000)

/-- `_build_entry_order`. -/
def buildEntryOrder (cfg : Config) (env : Ambient) (req : PlaceRequest) (orderId : OrderId) :
    Order :=
  Order.postInit
    { orderId
      marketId := req.marketId
      tokenId := req.tokenId
      direction := req.direction
      side := .buy
      sizeUsdc := req.sizeUsdc
      price := limitPrice req.direction req.price
      status := .placed
      timestamp := env.now
      chunks := (splitIntoChunks cfg req.sizeUsdc).1
      isPaper := cfg.isPaper
      remainingSizeUsdc := req.sizeUsdc
      orderType := .limit
      orderKind := .entry }

/-- The constructor leaves a new entry as it is written. -/
lemma buildEntryOrder_eq (cfg : Config) (env : Ambient) (req : PlaceRequest) (orderId : OrderId) :
    buildEntryOrder cfg env req orderId =
      { orderId
        marketId := req.marketId
        tokenId := req.tokenId
        direction := req.direction
        side := .buy
        sizeUsdc := req.sizeUsdc
        price := limitPrice req.direction req.price
        status := .placed
        timestamp := env.now
        chunks := (splitIntoChunks cfg req.sizeUsdc).1
        isPaper := cfg.isPaper
        remainingSizeUsdc := req.sizeUsdc } :=
  Order.postInit_of_placed rfl rfl rfl

/-- The checks before an entry is created; the deduplication cache is cleaned on the way. -/
def preflight (cfg : Config) (env : Ambient) (req : PlaceRequest) : Update Bool := fun s =>
  if (validateOrder cfg env req).isSome then (false, s)
  else if ¬ passesSlippage cfg req then (false, s)
  else
    let (duplicate, s) := isDuplicate cfg env.now (req.marketId, req.direction, .entry) s
    (!duplicate, s)

/-- Create the entry and remember the placement. -/
def openEntry (cfg : Config) (env : Ambient) (req : PlaceRequest) : Update OrderId := fun s =>
  let orderId := s.nextId
  let s := s.insertOrder (buildEntryOrder cfg env req)
  (orderId, { s with recentPlacements :=
    s.recentPlacements.set (req.marketId, req.direction, .entry) env.now })

/-- The bracket of a placement: the one asked for, or else the default. -/
def PlaceRequest.bracket (cfg : Config) (req : PlaceRequest) : Option BracketSpec :=
  req.bracketSpec.or cfg.defaultBracketSpec

/-- A paper entry is filled on placement, when the settings say so, and its bracket armed. -/
def fillOnPlace (cfg : Config) (env : Ambient) (req : PlaceRequest) (orderId : OrderId)
    (s : Executor) : Executor :=
  if cfg.paperFillOnPlace then
    let s := s.modifyOrder orderId fun o =>
      o.applyFill req.sizeUsdc (limitPrice req.direction req.price) env.now
    match req.bracket cfg with
    | some spec => (armBracketOrders spec env.now orderId s).2
    | none => s
  else s

/-- Post the chunks one by one; the ids the exchange returns accumulate in `exchangeIds`. -/
def postChunks (orderId : OrderId) (tokenId : TokenId) (price chunkSize : ℚ) :
    ℕ → List ExchangeId → Program (Except CallError (List ExchangeId))
  | 0, exchangeIds => pure (.ok exchangeIds)
  | chunks + 1, exchangeIds => do
    match ← request (.createAndPostOrder orderId tokenId price chunkSize .buy) with
    | .error e => pure (.error e)
    | .ok response =>
      let exchangeIds := exchangeIds ++ response.exchangeId?.toList
      if chunks ≠ 0 then
        let _ ← request (.sleep orderId)
      postChunks orderId tokenId price chunkSize chunks exchangeIds

/-- `_assert_sufficient_balance`; a balance that cannot be read is no reason to stop. -/
def assertSufficientBalance (orderId : OrderId) (sizeUsdc : ℚ) : Program (Except CallError Unit) := do
  match ← request (.balance orderId) with
  | some balance => if balance < sizeUsdc then pure (.error .other) else pure (.ok ())
  | none => pure (.ok ())

/-- `_check_gas_price`; a gas price that cannot be read is no reason to stop. -/
def checkGasPrice (cfg : Config) (orderId : OrderId) : Program (Except CallError Unit) := do
  match ← request (.gasPrice orderId) with
  | some gwei => if cfg.maxGasGwei < gwei then pure (.error .other) else pure (.ok ())
  | none => pure (.ok ())

/-- The safety checks of real submissions and the chunk loop: what the `try` block awaits. -/
def submitChunks (cfg : Config) (req : PlaceRequest) (orderId : OrderId) :
    Program (Except CallError (List ExchangeId)) := do
  match ← assertSufficientBalance orderId req.sizeUsdc with
  | .error e => pure (.error e)
  | .ok () =>
    match ← checkGasPrice cfg orderId with
    | .error e => pure (.error e)
    | .ok () =>
      let (chunks, chunkSize) := splitIntoChunks cfg req.sizeUsdc
      postChunks orderId req.tokenId (limitPrice req.direction req.price) chunkSize chunks []

/-- All chunks are posted: the entry gets the exchange ids and waits for fills. -/
def acknowledgeEntry (cfg : Config) (req : PlaceRequest) (orderId : OrderId)
    (exchangeIds : List ExchangeId) (s : Executor) : Executor :=
  s.modifyOrder orderId fun o =>
    { o with
      exchangeOrderIds := exchangeIds
      bracketState := if (req.bracket cfg).isSome then .pendingFill else o.bracketState }

/-- The end of a submission. All error paths cancel the entry locally. -/
def concludeEntry (cfg : Config) (req : PlaceRequest) (orderId : OrderId) :
    Except CallError (List ExchangeId) → Program (Option OrderId)
  | .ok exchangeIds => do
    modify (acknowledgeEntry cfg req orderId exchangeIds)
    pure (some orderId)
  | .error _ => do
    modify (·.setStatus orderId .cancelled)
    pure none

/-- The live part of `_place_order_unlocked`. -/
def submitEntry (cfg : Config) (env : Ambient) (req : PlaceRequest) (orderId : OrderId) :
    Program (Option OrderId) := do
  let persisted ← modifyGet fun s => persistOrderIntent env s.nextId req s.takeId
  if ¬ persisted then
    modify (·.setStatus orderId .cancelled)
    pure none
  else submitChunks cfg req orderId >>= concludeEntry cfg req orderId

/-- `place_order`. -/
def placeOrder (cfg : Config) (env : Ambient) (req : PlaceRequest) : Program (Option OrderId) := do
  let accepted ← modifyGet (preflight cfg env req)
  if ¬ accepted then pure none
  else
    let orderId ← modifyGet (openEntry cfg env req)
    if cfg.isPaper then
      modify (fillOnPlace cfg env req orderId)
      pure (some orderId)
    else submitEntry cfg env req orderId

/-! ### Cancelling -/

/-- Cancel exchange orders one by one, up to the first failure. -/
def cancelOnExchange (orderId : OrderId) : List ExchangeId → Program Bool
  | [] => pure true
  | exchangeId :: exchangeIds => do
    match ← request (.cancel orderId exchangeId) with
    | .ok () => cancelOnExchange orderId exchangeIds
    | .error _ => pure false

/-- The local branch of `cancel_order`: an entry takes its open children with it. -/
def cancelLocally (orderId : OrderId) (order : Order) (s : Executor) : Executor :=
  let s := s.setStatus orderId .cancelled
  if order.orderKind = .entry then
    let s := s.setBracketState orderId .cancelled
    order.bracketOrderIds.foldl (fun s childId =>
      s.modifyOrder childId fun child =>
        if child.status.isFinal then child else { child with status := .cancelled }) s
  else s

/-- The end of a cancellation on the exchange. -/
def concludeCancel (orderId : OrderId) (confirmed : Bool) : Program Bool := do
  if confirmed then
    modify fun s => (s.setStatus orderId .cancelled).setBracketState orderId .cancelled
    pure true
  else pure false

/-- `cancel_order`. -/
def cancelOrder (cfg : Config) (orderId : OrderId) : Program Bool := do
  match (← get).orders.get? orderId with
  | none => pure false
  | some order =>
    if order.status.isFinal then pure true
    else if order.isPaper ∨ ¬ cfg.clobConnected ∨ order.orderKind ≠ .entry then
      modify (cancelLocally orderId order)
      pure true
    else cancelOnExchange orderId order.exchangeOrderIds >>= concludeCancel orderId

/-- One round of `cancel_all_open_orders`. -/
def cancelIfOpen (cfg : Config) (orderId : OrderId) : Program (List OrderId) := do
  match (← get).orders.get? orderId with
  | none => pure []
  | some order =>
    if order.status.isOpen then
      if ← cancelOrder cfg orderId then pure [orderId] else pure []
    else pure []

/-- `cancel_all_open_orders`, over the orders present at its start. -/
def cancelAllOpenOrders (cfg : Config) : Program ℕ := do
  let cancelled ← forEach (cancelIfOpen cfg) (← get).orders.keys
  pure cancelled.length

/-- An armed order past its expiry. -/
def Order.isPastExpiry (o : Order) (now : Time) : Bool := o.gttExpiryAt.any (· < now)

/-- One round of `cancel_expired_orders`. -/
def cancelIfExpired (cfg : Config) (now : Time) (orderId : OrderId) : Program (List OrderId) := do
  match (← get).orders.get? orderId with
  | none => pure []
  | some order =>
    if ¬ order.status.isOpen then pure []
    else if order.status = .armed then
      if order.isPastExpiry now then
        modify (·.setStatus orderId .expired)
        pure [orderId]
      else pure []
    else if minutes cfg.orderExpiryMinutes < now - order.timestamp then
      if ← cancelOrder cfg orderId then pure [orderId] else pure []
    else pure []

/-- `cancel_expired_orders`, over the orders present at its start. -/
def cancelExpiredOrders (cfg : Config) (now : Time) : Program (List OrderId) := do
  forEach (cancelIfExpired cfg now) (← get).orders.keys

/-! ### Closing a position -/

structure CloseRequest where
  marketId : MarketId
  tokenId : TokenId
  direction : Direction
  sizeUsdc : ℚ
  price : ℚ

/-- The SELL order of `close_position`. -/
def buildExitOrder (cfg : Config) (env : Ambient) (req : CloseRequest) (orderId : OrderId) :
    Order :=
  Order.postInit
    { orderId
      marketId := req.marketId
      tokenId := req.tokenId
      direction := req.direction
      side := .sell
      sizeUsdc := req.sizeUsdc
      price := clampPrice req.price
      status := .placed
      timestamp := env.now
      chunks := 1
      isPaper := cfg.isPaper
      remainingSizeUsdc := req.sizeUsdc
      orderType := .limit
      orderKind := .exit
      reduceOnly := true }

lemma buildExitOrder_eq (cfg : Config) (env : Ambient) (req : CloseRequest) (orderId : OrderId) :
    buildExitOrder cfg env req orderId =
      { orderId
        marketId := req.marketId
        tokenId := req.tokenId
        direction := req.direction
        side := .sell
        sizeUsdc := req.sizeUsdc
        price := clampPrice req.price
        status := .placed
        timestamp := env.now
        chunks := 1
        isPaper := cfg.isPaper
        remainingSizeUsdc := req.sizeUsdc
        orderKind := .exit
        reduceOnly := true } :=
  Order.postInit_of_placed rfl rfl rfl

/-- `close_position`. -/
def closePosition (cfg : Config) (env : Ambient) (req : CloseRequest) :
    Program (Option OrderId) := do
  if ¬ (0 < req.price ∧ req.price < 1) ∨ req.sizeUsdc ≤ 0 then pure none
  else
    let orderId ← modifyGet fun s => (s.nextId, s.insertOrder (buildExitOrder cfg env req))
    if cfg.isPaper then
      modify (·.modifyOrder orderId (·.applyFill req.sizeUsdc (clampPrice req.price) env.now))
      pure (some orderId)
    else
      match ← request (.createAndPostOrder orderId req.tokenId (clampPrice req.price)
          req.sizeUsdc .sell) with
      | .ok response =>
        match response.exchangeId? with
        | some exchangeId =>
          modify (·.modifyOrder orderId fun o => { o with exchangeOrderIds := [exchangeId] })
        | none => pure ()
        pure (some orderId)
      | .error _ =>
        modify (·.setStatus orderId .cancelled)
        pure none

end PolyCortex
