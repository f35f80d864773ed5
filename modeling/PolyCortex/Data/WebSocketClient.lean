import PolyCortex.Data.Dict
import PolyCortex.Data.Levels

/-!
# The stream of order books

`WebSocketClient`: which tokens are subscribed, and the book of each token that the last message about it
has brought. A message is handled between two awaits, and so is what `subscribe` and `unsubscribe` do
under the lock: nobody holds the lock across an await. An exception that a message raises ends the
connection. What is sent to the server is left out; it is not told about an end of a subscription.

`json.loads` and `float` of a text are parameters. The time of a snapshot is the number of the message.
-/

namespace PolyCortex

namespace WebSocketClient

/-- A single price/size level on one side of an order book; `_parse_levels` lets no other through. -/
structure OrderBookLevel where
  price : ℚ
  size : PyFloat
  price_pos : 0 < price
  price_le : price ≤ 1
  size_pos : 0 < size

/-- What a snapshot is stored under: a text, or a number, whichever type it has. -/
inductive TokenKey where
  | str (s : String)
  | number (x : PyFloat)
  | null
  deriving DecidableEq

/-- Point-in-time snapshot of an order book for a single token. -/
structure OrderBookSnapshot where
  tokenId : TokenKey
  bids : List OrderBookLevel
  asks : List OrderBookLevel
  received : ℕ

namespace OrderBookSnapshot

/-- Highest bid price, or `0` if the book is empty. -/
def bestBid (snapshot : OrderBookSnapshot) : ℚ := (snapshot.bids.head?.map (·.price)).getD 0

/-- Lowest ask price, or `1` if the book is empty. -/
def bestAsk (snapshot : OrderBookSnapshot) : ℚ := (snapshot.asks.head?.map (·.price)).getD 1

/-- Mid-price between best bid and best ask. -/
def midpoint (snapshot : OrderBookSnapshot) : ℚ := (snapshot.bestBid + snapshot.bestAsk) / 2

/-- Absolute spread between best ask and best bid. -/
def spread (snapshot : OrderBookSnapshot) : ℚ := snapshot.bestAsk - snapshot.bestBid

end OrderBookSnapshot

/-! ### The event bus -/

/-- The payload of an `ORDERBOOK_UPDATED` event. -/
structure BookUpdate where
  tokenId : TokenKey
  midpoint : ℚ
  spread : ℚ
  bestBid : ℚ
  bestAsk : ℚ
  bidLevels : ℕ
  askLevels : ℕ

structure EventBus where
  maxQueueSize : ℕ := 10000
  queue : List BookUpdate := []
  errorCount : ℕ := 0

/-- Publish an event to the bus. Non-blocking (queued). -/
def EventBus.publish (event : BookUpdate) (bus : EventBus) : EventBus :=
  -- `asyncio.Queue` takes a size of 0 for no limit
  if bus.maxQueueSize = 0 ∨ bus.queue.length < bus.maxQueueSize then
    { bus with queue := bus.queue ++ [event] }
  else { bus with errorCount := bus.errorCount + 1 }

end WebSocketClient

open WebSocketClient in
structure WebSocketClient where
  subscribedTokens : Finset String := ∅
  snapshots : Dict TokenKey OrderBookSnapshot := .empty
  messagesReceived : ℕ := 0
  eventBus : Option EventBus := none
  connected : Bool := false

namespace WebSocketClient

/-! ### Subscriptions -/

def subscribe (tokenId : String) (ws : WebSocketClient) : WebSocketClient :=
  { ws with subscribedTokens := insert tokenId ws.subscribedTokens }

def unsubscribe (tokenId : String) (ws : WebSocketClient) : WebSocketClient :=
  { ws with
    subscribedTokens := ws.subscribedTokens.erase tokenId
    snapshots := ws.snapshots.filter fun key _ => key ≠ .str tokenId }

def getSnapshot (tokenId : String) (ws : WebSocketClient) : Option OrderBookSnapshot :=
  ws.snapshots.get? (.str tokenId)

/-! ### Messages -/

/-- `0 < price <= 1.0 and size > 0`. -/
def level? (price size : PyFloat) : Option OrderBookLevel :=
  match price with
  | .finite q => if h : 0 < q ∧ q ≤ 1 ∧ 0 < size then some ⟨q, size, h.1, h.2.1, h.2.2⟩ else none
  | _ => none

/-- `hash(value)` fails for arrays and objects. -/
def tokenKey : PersistedValue → Except ReadError TokenKey
  | .str s => .ok (.str s)
  | .int z => .ok (.number (.finite z))
  | .bool b => .ok (.number (.finite (if b then 1 else 0)))
  | .float x => .ok (.number x)
  | .null => .ok .null
  | .arr _ | .obj _ => .error (.raised .typeError)

section Handling

variable (py : PyConversions) (loads : String → Except PyError PersistedValue)

/-- `_parse_levels`. -/
def parseLevels (rawLevels : PersistedValue) : Except ReadError (List OrderBookLevel) := do
  let levels ← PolyCortex.parseLevels py level? rawLevels
  -- Sort bids descending, asks ascending
  pure (levels.mergeSort fun a b => decide (b.price ≤ a.price))

/-- The book in a message; `none` when it has no token id or no levels. -/
def readBook (received : ℕ) (data : PersistedValue) : Except ReadError (Option OrderBookSnapshot) := do
  let assetId ← data.get "asset_id" .null
  let market ← data.get "market" .null
  let tokenId ← data.get "token_id" .null
  let tokenId := (assetId.or market).or tokenId
  if tokenId.truthy then
    let rawBids ← data.get "bids" .null
    let rawAsks ← data.get "asks" .null
    let bids ← parseLevels py (rawBids.or (.arr []))
    let asks ← parseLevels py (rawAsks.or (.arr []))
    if bids.isEmpty && asks.isEmpty then
      pure none
    else
      let key ← tokenKey tokenId
      pure (some { tokenId := key, bids, asks, received })
  else pure none

/-- Store locally, and publish to the event bus if available. -/
def store (snapshot : OrderBookSnapshot) (ws : WebSocketClient) : WebSocketClient :=
  { ws with
    snapshots := ws.snapshots.set snapshot.tokenId snapshot
    eventBus := ws.eventBus.map (·.publish
      { tokenId := snapshot.tokenId
        midpoint := snapshot.midpoint
        spread := snapshot.spread
        bestBid := snapshot.bestBid
        bestAsk := snapshot.bestAsk
        bidLevels := snapshot.bids.length
        askLevels := snapshot.asks.length }) }

/-- `_handle_message`: what it returns or raises, and the client after it. -/
def handleMessage (raw : String) (ws : WebSocketClient) : Except ReadError Unit × WebSocketClient :=
  let ws := { ws with messagesReceived := ws.messagesReceived + 1 }
  match loads raw with
  | .error .jsonDecodeError => (.ok (), ws)
  | .error e => (.error (.raised e), ws)
  | .ok data =>
    match readBook py ws.messagesReceived data with
    | .ok (some snapshot) => (.ok (), ws.store snapshot)
    | .ok none => (.ok (), ws)
    | .error e => (.error e, ws)

/-! ### Runs -/

/-- What happens to a client between two awaits. -/
inductive StreamEvent where
  | subscribe (tokenId : String)
  | unsubscribe (tokenId : String)
  | connect
  | disconnect
  | message (raw : String)

/-- Messages come in while the client is connected. -/
def step (ws : WebSocketClient) : StreamEvent → WebSocketClient
  | .subscribe tokenId => ws.subscribe tokenId
  | .unsubscribe tokenId => ws.unsubscribe tokenId
  | .connect => { ws with connected := true }
  | .disconnect => { ws with connected := false }
  | .message raw =>
    if ws.connected then
      match ws.handleMessage py loads raw with
      | (.ok _, ws) => ws
      | (.error _, ws) => { ws with connected := false }
    else ws

def run (ws : WebSocketClient) (events : List StreamEvent) : WebSocketClient :=
  events.foldl (step py loads) ws

end Handling

end WebSocketClient
end PolyCortex
