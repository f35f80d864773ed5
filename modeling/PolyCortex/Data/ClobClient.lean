import PolyCortex.Data.Levels

/-!
# The order books of the CLOB

`ClobClient.get_order_book`: the sides of a response are read, sorted, and cut to ten levels each. The
best prices are checked; the other levels and all sizes are taken as they are. A response that the
requests did not get is `null`.

Sorting is modelled for prices that are not NaN.
-/

namespace PolyCortex.ClobClient

/-- A price and a size. -/
abbrev Quote := PyFloat × PyFloat

structure OrderBookSnapshot where
  tokenId : String
  midpoint : PyFloat
  spread : PyFloat
  bidDepth : PyFloat
  askDepth : PyFloat
  bestBid : PyFloat
  bestAsk : PyFloat
  bids : List Quote
  asks : List Quote

/-- `parsed.append((price, size))`. -/
def quote? (price size : PyFloat) : Option Quote := some (price, size)

/-- The ten highest bids, the highest first. -/
def topBids (bids : List Quote) : List Quote := (bids.mergeSort fun a b => !decide (a.1 < b.1)).take 10

/-- The ten lowest asks, the lowest first. -/
def topAsks (asks : List Quote) : List Quote := (asks.mergeSort fun a b => !decide (b.1 < a.1)).take 10

/-- `sum(size for _, size in levels)`. -/
def depth (levels : List Quote) : PyFloat := (levels.map (·.2)).foldl (· + ·) 0

/-- The snapshot of the levels that were read, unless a side is empty or the best prices are not. -/
def snapshot? (tokenId : String) (bids asks : List Quote) : Option OrderBookSnapshot :=
  let bidsTop10 := topBids bids
  let asksTop10 := topAsks asks
  match bidsTop10.head?, asksTop10.head? with
  | some (bestBid, _), some (bestAsk, _) =>
    if ¬ (0 ≤ bestBid ∧ bestBid ≤ 1.0) ∨ ¬ (0 ≤ bestAsk ∧ bestAsk ≤ 1.0) then none
    else if bestAsk < bestBid then none
    else some
      { tokenId
        midpoint := (bestBid + bestAsk) / 2.0
        spread := bestAsk - bestBid
        bidDepth := depth bidsTop10
        askDepth := depth asksTop10
        bestBid
        bestAsk
        bids := bidsTop10
        asks := asksTop10 }
  | _, _ => none

/-- `get_order_book`, of the response to its request. -/
def getOrderBook (py : PyConversions) (tokenId : String) (resp : PersistedValue) :
    Except ReadError (Option OrderBookSnapshot) :=
  match resp with
  | .obj fields =>
    if fields.isEmpty then .ok none
    else
      let rawBids := (field fields "bids").or (.arr [])
      let rawAsks := (field fields "asks").or (.arr [])
      if !rawBids.truthy || !rawAsks.truthy then .ok none
      else do
        let bids ← parseLevels py quote? rawBids
        let asks ← parseLevels py quote? rawAsks
        pure (snapshot? tokenId bids asks)
  | _ => .ok none

/-- The imbalance of a book, as `estimate_edge` and `save_snapshot` compute it. -/
def OrderBookSnapshot.imbalance (book : OrderBookSnapshot) : PyFloat :=
  (book.bidDepth - book.askDepth) / (book.bidDepth + book.askDepth + 1e-8)

end PolyCortex.ClobClient
