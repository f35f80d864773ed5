import PolyCortex.Data.Dict
import PolyCortex.Execution.Slippage
import PolyCortex.Execution.Exchange

/-!
# The executor between two awaits

The state of `OrderExecutor` and the parts of its methods that run without an await. Orders are
shared objects in the source and live in `Executor.orders` here: a method that holds an order
holds its id. Ids stand for the `uuid4` strings and are drawn from a counter.
-/

namespace PolyCortex

/-- The settings read in `__init__`, and whether a CLOB client was set up. -/
structure Config where
  dryRun : Bool := true
  splitOrdersAbove : ℚ := 50
  orderExpiryMinutes : ℤ := 60
  enableBracketOrders : Bool := true
  bracketTakeProfitPct : ℚ := 6 / 100
  bracketStopLossPct : ℚ := 35 / 1000
  gttTtlMinutes : ℤ := 24 * 60
  paperFillOnPlace : Bool := true
  paperAllowPartialFills : Bool := true
  paperPartialFillRatio : ℚ := 1 / 2
  paperFillTolerance : ℚ := 2 / 1000
  liveReconcileEnabled : Bool := true
  maxSingleOrderUsdc : ℚ := 500
  dedupWindowSeconds : ℤ := 300
  maxSlippageBps : ℚ := 50
  maxGasGwei : ℚ := 200
  clobConnected : Bool := false

namespace Config

/-- `self.dry_run or self.clob is None`: the value of `is_paper` for every order placed. -/
def isPaper (cfg : Config) : Bool := cfg.dryRun || !cfg.clobConnected

end Config

structure BracketSpec where
  takeProfitPct : ℚ
  stopLossPct : ℚ
  ttlMinutes : ℤ := 24 * 60
  deriving DecidableEq, Repr

/-- `_default_bracket_spec`. -/
def Config.defaultBracketSpec (cfg : Config) : Option BracketSpec :=
  if cfg.enableBracketOrders then
    some ⟨cfg.bracketTakeProfitPct, cfg.bracketStopLossPct, cfg.gttTtlMinutes⟩
  else none

/-- What an operation reads from outside without awaiting: the clock, the kill switch file (its
text when active) and whether the ledger database accepts writes. -/
structure Ambient where
  now : Time
  killSwitch : Option String := none
  ledgerWritable : Bool := true

/-- A row of the `submitted_orders` table. -/
structure SubmittedOrder where
  clientOrderId : ℕ
  marketId : MarketId
  side : Direction
  size : ℚ
  status : String := "pending"
  createdAt : Time
  deriving DecidableEq, Repr

abbrev PlacementKey := MarketId × Direction × OrderKind

/-- The mutable state. Ids at or above `nextId` have not been handed out. -/
@[ext]
structure Executor where
  orders : Dict OrderId Order
  recentPlacements : Dict PlacementKey Time
  submittedOrders : List SubmittedOrder
  nextId : ℕ
  fresh : ∀ id ∈ orders.keys, id < nextId

/-! ### Lifecycle events -/

inductive EventType where
  | entryFilled
  | entryPartiallyFilled
  | entryCancelled
  | entryExpired
  | bracketsArmed
  | gttCreated
  | gttExpired
  | ocoCancelled
  | exitFilled
  deriving DecidableEq, Repr

/-- The `status` of an event is an order's status or an entry's bracket state. -/
inductive EventStatus where
  | order (status : OrderStatus)
  | bracket (state : BracketState)
  deriving DecidableEq, Repr

/-- The snapshot of an event is the order object itself, so it is given by its id. -/
structure OrderLifecycleEvent where
  eventType : EventType
  orderId : OrderId
  marketId : MarketId
  status : EventStatus
  message : String := ""
  fillPrice : Option ℚ := none
  fillSizeUsdc : ℚ := 0
  parentOrderId : Option OrderId := none
  siblingOrderId : Option OrderId := none
  orderSnapshot : OrderId
  deriving DecidableEq, Repr

/-- What a synchronous part returns, with the new state. -/
abbrev Update (α : Type) := Executor → α × Executor

namespace Executor

def init : Executor where
  orders := .empty
  recentPlacements := .empty
  submittedOrders := []
  nextId := 0
  fresh := by simp

/-- Store a new order under the next id. -/
def insertOrder (s : Executor) (mk : OrderId → Order) : Executor where
  orders := s.orders.set s.nextId (mk s.nextId)
  recentPlacements := s.recentPlacements
  submittedOrders := s.submittedOrders
  nextId := s.nextId + 1
  fresh := by
    intro id hid
    simp only [Dict.set] at hid
    split_ifs at hid with h
    · exact (s.fresh id hid).trans (Nat.lt_succ_self _)
    · rcases List.mem_append.mp hid with hid | hid
      · exact (s.fresh id hid).trans (Nat.lt_succ_self _)
      · rw [List.mem_singleton.mp hid]
        exact Nat.lt_succ_self _

/-- Assign fields of the order `id`. -/
def modifyOrder (s : Executor) (id : OrderId) (f : Order → Order) : Executor where
  orders := s.orders.modify id f
  recentPlacements := s.recentPlacements
  submittedOrders := s.submittedOrders
  nextId := s.nextId
  fresh := by simpa using s.fresh

/-- Assign fields of all orders. -/
def mapOrders (s : Executor) (f : Order → Order) : Executor where
  orders := s.orders.mapValues fun _ => f
  recentPlacements := s.recentPlacements
  submittedOrders := s.submittedOrders
  nextId := s.nextId
  fresh := by simpa using s.fresh

/-- Draw an id that names no order: an OCO group or a client order id. -/
def takeId (s : Executor) : Executor where
  orders := s.orders
  recentPlacements := s.recentPlacements
  submittedOrders := s.submittedOrders
  nextId := s.nextId + 1
  fresh := fun id hid => (s.fresh id hid).trans (Nat.lt_succ_self _)

def setStatus (s : Executor) (id : OrderId) (status : OrderStatus) : Executor :=
  s.modifyOrder id fun o => { o with status }

def setBracketState (s : Executor) (id : OrderId) (bracketState : BracketState) : Executor :=
  s.modifyOrder id fun o => { o with bracketState }

/-! Lookups after each update. -/

lemma get?_nextId (s : Executor) : s.orders.get? s.nextId = none := by
  by_contra h
  have hkey : s.nextId ∈ s.orders.keys :=
    (s.orders.mem_keys _).mpr (Option.isSome_iff_ne_none.mpr h)
  exact lt_irrefl _ (s.fresh _ hkey)

lemma lt_nextId {s : Executor} {id : OrderId} {o : Order} (h : s.orders.get? id = some o) :
    id < s.nextId :=
  s.fresh id (Dict.mem_keys_of_get? h)

lemma get?_insertOrder (s : Executor) (mk : OrderId → Order) (id : OrderId) :
    (s.insertOrder mk).orders.get? id =
      if id = s.nextId then some (mk s.nextId) else s.orders.get? id :=
  s.orders.get?_set id s.nextId (mk s.nextId)

@[simp] lemma get?_insertOrder_self (s : Executor) (mk : OrderId → Order) :
    (s.insertOrder mk).orders.get? s.nextId = some (mk s.nextId) := by
  simp [get?_insertOrder]

lemma get?_insertOrder_of_some {s : Executor} {id : OrderId} {o : Order}
    (h : s.orders.get? id = some o) (mk : OrderId → Order) :
    (s.insertOrder mk).orders.get? id = some o := by
  rw [get?_insertOrder, if_neg (lt_nextId h).ne, h]

@[simp] lemma nextId_insertOrder (s : Executor) (mk : OrderId → Order) :
    (s.insertOrder mk).nextId = s.nextId + 1 := rfl

lemma get?_modifyOrder (s : Executor) (id j : OrderId) (f : Order → Order) :
    (s.modifyOrder id f).orders.get? j =
      if j = id then (s.orders.get? id).map f else s.orders.get? j :=
  s.orders.get?_modify j id f

@[simp] lemma get?_modifyOrder_self (s : Executor) (id : OrderId) (f : Order → Order) :
    (s.modifyOrder id f).orders.get? id = (s.orders.get? id).map f :=
  s.orders.get?_modify_self id f

lemma get?_modifyOrder_of_ne (s : Executor) {id j : OrderId} (h : j ≠ id) (f : Order → Order) :
    (s.modifyOrder id f).orders.get? j = s.orders.get? j :=
  s.orders.get?_modify_of_ne h f

/-- What holds of an order and what it becomes when it is modified, and of an order and itself. -/
lemma exists_modifyOrder {s : Executor} {id j : OrderId} {o : Order} {f : Order → Order}
    {R : Order → Order → Prop} (hget : s.orders.get? id = some o) (hrefl : R o o)
    (hf : s.orders.get? j = some o → R o (f o)) :
    ∃ o', (s.modifyOrder j f).orders.get? id = some o' ∧ R o o' := by
  rw [get?_modifyOrder]
  split_ifs with hj
  · subst hj
    exact ⟨f o, by rw [hget, Option.map_some], hf hget⟩
  · exact ⟨o, hget, hrefl⟩

lemma modifyOrder_congr {s : Executor} {id : OrderId} {f g : Order → Order}
    (h : ∀ o, s.orders.get? id = some o → f o = g o) : s.modifyOrder id f = s.modifyOrder id g :=
  Executor.ext (Dict.modify_congr h) rfl rfl rfl

lemma modifyOrder_modifyOrder (s : Executor) (id : OrderId) (f g : Order → Order) :
    (s.modifyOrder id f).modifyOrder id g = s.modifyOrder id fun o => g (f o) :=
  Executor.ext (s.orders.modify_modify id f g) rfl rfl rfl

@[simp] lemma nextId_modifyOrder (s : Executor) (id : OrderId) (f : Order → Order) :
    (s.modifyOrder id f).nextId = s.nextId := rfl

@[simp] lemma get?_mapOrders (s : Executor) (f : Order → Order) (id : OrderId) :
    (s.mapOrders f).orders.get? id = (s.orders.get? id).map f := rfl

@[simp] lemma nextId_mapOrders (s : Executor) (f : Order → Order) :
    (s.mapOrders f).nextId = s.nextId := rfl

@[simp] lemma orders_takeId (s : Executor) : s.takeId.orders = s.orders := rfl

@[simp] lemma nextId_takeId (s : Executor) : s.takeId.nextId = s.nextId + 1 := rfl

end Executor

/-! ### Validation and deduplication -/

structure PlaceRequest where
  marketId : MarketId
  direction : Direction
  sizeUsdc : ℚ
  price : ℚ
  tokenId : TokenId := ""
  bracketSpec : Option BracketSpec := none
  /-- Bids and asks of the book passed along, if any. -/
  marketBook : Option (List Level × List Level) := none

inductive Rejection where
  | killSwitchActive (reason : String)
  | priceOutsideRange (price : ℚ)
  | sizeBelowMinimum (size : ℚ)
  | sizeExceedsMax (size : ℚ)
  | invalidDirection (text : String)
  | emptyTokenId
  | emptyMarketId
  deriving DecidableEq, Repr

/-- `_validate_order`. -/
def validateOrder (cfg : Config) (env : Ambient) (req : PlaceRequest) : Option Rejection :=
  match env.killSwitch with
  | some reason => some (.killSwitchActive reason)
  | none =>
    if ¬ (1 / 100 ≤ req.price ∧ req.price ≤ 99 / 100) then some (.priceOutsideRange req.price)
    else if req.sizeUsdc < 1 / 2 then some (.sizeBelowMinimum req.sizeUsdc)
    else if cfg.maxSingleOrderUsdc < req.sizeUsdc then some (.sizeExceedsMax req.sizeUsdc)
    else
      match req.direction with
      | .other text => some (.invalidDirection text)
      | .yes | .no =>
        if req.tokenId = "" ∧ ¬ cfg.dryRun then some .emptyTokenId
        else if req.marketId = "" then some .emptyMarketId
        else none

/-- The slippage gate of live placements: only a two-sided book is checked. -/
def passesSlippage (cfg : Config) (req : PlaceRequest) : Bool :=
  match req.marketBook with
  | some (bids, asks) =>
    if ¬ cfg.dryRun ∧ bids ≠ [] ∧ asks ≠ [] then
      checkSlippageOk req.sizeUsdc .buy bids asks cfg.maxSlippageBps
    else true
  | none => true

/-- `_cleanup_recent_placements`. -/
def cleanupRecentPlacements (cfg : Config) (now : Time) (s : Executor) : Executor :=
  let cutoff := now - seconds cfg.dedupWindowSeconds
  let kept := s.recentPlacements.filter fun _ timestamp => ¬ timestamp < cutoff
  if 10000 < kept.keys.length then
    let oldest := (kept.keys.insertionSort fun j k =>
      (kept.get? j).getD 0 ≤ (kept.get? k).getD 0).take 5000
    { s with recentPlacements := kept.filter fun key _ => key ∉ oldest }
  else { s with recentPlacements := kept }

/-- `_is_duplicate`, with the cleanup it starts with. -/
def isDuplicate (cfg : Config) (now : Time) (key : PlacementKey) : Update Bool := fun s =>
  let s := cleanupRecentPlacements cfg now s
  ((s.recentPlacements.get? key).isSome, s)

/-- `_persist_order_intent`: an unwritable database does not block trading. -/
def persistOrderIntent (env : Ambient) (clientOrderId : ℕ) (req : PlaceRequest) : Update Bool :=
  fun s =>
    if ¬ env.ledgerWritable then (true, s)
    else if s.submittedOrders.any (·.clientOrderId = clientOrderId) then (false, s)
    else
      (true, { s with submittedOrders := s.submittedOrders ++
        [{ clientOrderId, marketId := req.marketId, side := req.direction, size := req.sizeUsdc,
           createdAt := env.now }] })

/-! ### Brackets -/

/-- `_build_bracket_levels`: take-profit and stop-loss prices around an entry price. -/
def buildBracketLevels (entryPrice : ℚ) (spec : BracketSpec) : ℚ × ℚ :=
  (clampPrice (entryPrice * (1 + spec.takeProfitPct)),
    clampPrice (entryPrice * (1 - spec.stopLossPct)))

/-- `_sync_child_sizes`. -/
def syncChildSizes (parent : Order) (s : Executor) : Executor :=
  parent.bracketOrderIds.foldl (fun s childId =>
    s.modifyOrder childId fun child =>
      if child.status = .armed then
        { child with sizeUsdc := parent.activeSize, remainingSizeUsdc := parent.activeSize }
      else child) s

/-- A child of a bracket, armed and sized to what its parent has filled. -/
def bracketChild (parent : Order) (spec : BracketSpec) (now : Time) (ocoGroupId : ℕ)
    (orderKind : OrderKind) (trigger : TriggerCondition) (price : ℚ) (orderId : OrderId) : Order :=
  Order.postInit
    { orderId
      marketId := parent.marketId
      tokenId := parent.tokenId
      direction := parent.direction
      side := .sell
      sizeUsdc := parent.activeSize
      price
      status := .armed
      timestamp := now
      chunks := 1
      isPaper := parent.isPaper
      remainingSizeUsdc := parent.activeSize
      orderType := .gtt
      orderKind
      reduceOnly := true
      parentOrderId := some parent.orderId
      ocoGroupId := some ocoGroupId
      triggerPrice := some price
      triggerCondition := some trigger
      gttExpiryAt := some (now + minutes spec.ttlMinutes) }

/-- The take-profit child triggers at or above its price. -/
def takeProfitOrder (parent : Order) (spec : BracketSpec) (now : Time) (ocoGroupId : ℕ) :
    OrderId → Order :=
  bracketChild parent spec now ocoGroupId .takeProfit .gte
    (buildBracketLevels parent.activePrice spec).1

/-- The stop-loss child triggers at or below its price. -/
def stopLossOrder (parent : Order) (spec : BracketSpec) (now : Time) (ocoGroupId : ℕ) :
    OrderId → Order :=
  bracketChild parent spec now ocoGroupId .stopLoss .lte
    (buildBracketLevels parent.activePrice spec).2

def bracketsArmedEvent (parent : Order) (message : String) : OrderLifecycleEvent where
  eventType := .bracketsArmed
  orderId := parent.orderId
  marketId := parent.marketId
  status := .bracket .armed
  message
  parentOrderId := some parent.orderId
  orderSnapshot := parent.orderId

def gttCreatedEvent (parent : Order) (childId : OrderId) (message : String) :
    OrderLifecycleEvent where
  eventType := .gttCreated
  orderId := childId
  marketId := parent.marketId
  status := .order .armed
  message
  parentOrderId := some parent.orderId
  orderSnapshot := childId

/-- The first arming: two new children in one OCO group, with consecutive ids. -/
def createBrackets (spec : BracketSpec) (now : Time) (parentId : OrderId) (parent : Order) :
    Update (List OrderLifecycleEvent) := fun s =>
  let ocoGroupId := s.nextId
  let takeProfitId := s.nextId + 1
  let stopLossId := s.nextId + 2
  let s := s.takeId.insertOrder (takeProfitOrder parent spec now ocoGroupId)
  let s := s.insertOrder (stopLossOrder parent spec now ocoGroupId)
  let s := s.modifyOrder parentId fun o =>
    { o with bracketOrderIds := [takeProfitId, stopLossId], bracketState := .armed }
  ([bracketsArmedEvent parent "Bracket orders armed",
    gttCreatedEvent parent takeProfitId "Take-profit armed",
    gttCreatedEvent parent stopLossId "Stop-loss armed"], s)

/-- A later arming: the existing children are resized to the parent. -/
def refreshBrackets (parentId : OrderId) (parent : Order) : Update (List OrderLifecycleEvent) :=
  fun s =>
    ([bracketsArmedEvent parent "Bracket orders refreshed"],
      syncChildSizes parent (s.setBracketState parentId .armed))

/-- `_arm_bracket_orders` for the order `parentId`. -/
def armBracketOrders (spec : BracketSpec) (now : Time) (parentId : OrderId) :
    Update (List OrderLifecycleEvent) := fun s =>
  match s.orders.get? parentId with
  | none => ([], s)
  | some parent =>
    if parent.orderKind ≠ .entry then ([], s)
    else
      let levels := buildBracketLevels parent.activePrice spec
      let s := s.modifyOrder parentId fun o =>
        { o with takeProfitPrice := some levels.1, stopLossPrice := some levels.2 }
      if parent.bracketOrderIds ≠ [] then refreshBrackets parentId parent s
      else createBrackets spec now parentId parent s

/-- `_arm_bracket_orders` with the default spec, when brackets are enabled. -/
def armDefaultBrackets (cfg : Config) (now : Time) (parentId : OrderId) :
    Update (List OrderLifecycleEvent) := fun s =>
  match cfg.defaultBracketSpec with
  | none => ([], s)
  | some spec => armBracketOrders spec now parentId s

end PolyCortex
