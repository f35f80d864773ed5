import PolyCortex.Data.AcceptedBooks
import PolyCortex.Data.Dict

/-!
# The arbitrage scan

`ArbitrageScanner`: the two tokens of a market pay one together, so that buying both for less is a gain
whichever way the market resolves (`scan_spec`). The agent approximates the ask of the second token by
the bid of the first. The gap is then minus the spread, and as `get_order_book` rejects crossed books, the
scan of a cycle finds nothing (`scan_orderBooks`).

Prices are finite numbers; those of an accepted book are.
-/

namespace PolyCortex

namespace Arbitrage

/-- What the scanner reads of a market. -/
structure MarketDict where
  marketId : String := ""
  question : String := ""
  yesAsk : Option ℚ
  noAsk : Option ℚ
  spread : ℚ := 2 / 100
  deriving DecidableEq

structure ArbitrageOpportunity where
  marketId : String
  question : String
  yesPrice : ℚ
  noPrice : ℚ
  gap : ℚ
  spreadCost : ℚ
  fee : ℚ
  profitAfterCosts : ℚ
  deriving DecidableEq

/-- `check_single`, which is also the body of the loop of `scan`. -/
def checkSingle (fee : ℚ) (market : MarketDict) : Option ArbitrageOpportunity :=
  match market.yesAsk, market.noAsk with
  | some yesAsk, some noAsk =>
    if yesAsk ≤ 0 ∨ noAsk ≤ 0 then none
    else
      let gap := 1 - (yesAsk + noAsk)
      let spreadCost := market.spread * 2
      let cost := spreadCost + fee
      if cost < gap then
        some
          { marketId := market.marketId
            question := market.question
            yesPrice := yesAsk
            noPrice := noAsk
            gap
            spreadCost
            fee
            profitAfterCosts := gap - cost }
      else none
  | _, _ => none

/-- The largest profit comes first. -/
def byProfit (opp : ArbitrageOpportunity) : ℚᵒᵈ := OrderDual.toDual opp.profitAfterCosts

def scan (fee : ℚ) (markets : List MarketDict) : List ArbitrageOpportunity :=
  sortBy byProfit (markets.foldl (fun opportunities market =>
    match checkSingle fee market with
    | some opp => opportunities ++ [opp]
    | none => opportunities) [])

/-! ### What an opportunity is -/

/-- What a share of each token is worth after the market has resolved, less what it cost. -/
def settled (opp : ArbitrageOpportunity) (resolvedYes : Bool) : ℚ :=
  (if resolvedYes then 1 else 0) + (if resolvedYes then 0 else 1) - opp.yesPrice - opp.noPrice -
    opp.spreadCost - opp.fee

variable {fee : ℚ} {market : MarketDict} {opp : ArbitrageOpportunity}

lemma checkSingle_eq_some (h : checkSingle fee market = some opp) :
    market.yesAsk = some opp.yesPrice ∧ market.noAsk = some opp.noPrice ∧
      opp.spreadCost = market.spread * 2 ∧ opp.fee = fee ∧
      opp.profitAfterCosts = 1 - (opp.yesPrice + opp.noPrice) - (opp.spreadCost + opp.fee) ∧
      0 < opp.profitAfterCosts := by
  rw [checkSingle] at h
  split at h
  · next yesAsk noAsk hyes hno =>
    dsimp only at h
    split_ifs at h with hprices hgap
    obtain rfl := Option.some.inj h
    exact ⟨hyes, hno, rfl, rfl, rfl, sub_pos.mpr hgap⟩
  · cases h

/-- The loop collects what `check_single` finds, in the order of the markets. -/
lemma foldl_checkSingle (markets : List MarketDict) (found : List ArbitrageOpportunity) :
    markets.foldl (fun opportunities market =>
      match checkSingle fee market with
      | some opp => opportunities ++ [opp]
      | none => opportunities) found = found ++ markets.filterMap (checkSingle fee) := by
  induction markets generalizing found with
  | nil => rw [List.foldl_nil, List.filterMap_nil, List.append_nil]
  | cons market markets ih =>
    rw [List.foldl_cons, List.filterMap_cons]
    cases checkSingle fee market with
    | none => exact ih found
    | some opp => rw [ih, List.append_assoc, List.singleton_append]

lemma scan_eq (fee : ℚ) (markets : List MarketDict) :
    scan fee markets = sortBy byProfit (markets.filterMap (checkSingle fee)) := by
  rw [scan, foldl_checkSingle, List.nil_append]

/-- What the cycle knows of a market, with the response to the request for its book and whether the
snapshot is written to the history without an error. -/
structure ScannedMarket where
  conditionId : String
  question : String
  clobTokenIds : List String
  resp : PersistedValue
  saved : Bool

/-- The entry of `order_books`: the ask of the second token is taken from the bid of the first. -/
def orderBookEntry (m : ScannedMarket) (snapshot : ClobClient.OrderBookSnapshot) : Option MarketDict := do
  let bestBid ← snapshot.bestBid.toRat?
  let bestAsk ← snapshot.bestAsk.toRat?
  let spread ← snapshot.spread.toRat?
  some
    { marketId := m.conditionId
      question := m.question
      yesAsk := some bestAsk
      noAsk := if 2 ≤ m.clobTokenIds.length then if 0 < bestBid then some (1 - bestBid) else none else none
      spread }

/-- A market is passed over without a token, and where its book cannot be read, is not accepted or cannot
be saved. -/
def addEntry (py : PyConversions) (orderBooks : Dict String MarketDict) (m : ScannedMarket) :
    Dict String MarketDict :=
  match m.clobTokenIds with
  | [] => orderBooks
  | tokenId :: _ =>
    match ClobClient.getOrderBook py tokenId m.resp with
    | .ok (some snapshot) =>
      if m.saved then
        match orderBookEntry m snapshot with
        | some entry => orderBooks.set m.conditionId entry
        | none => orderBooks
      else orderBooks
    | _ => orderBooks

/-- `order_books`, with what the scanner reads of an entry. -/
def orderBooks (py : PyConversions) (markets : List ScannedMarket) : Dict String MarketDict :=
  markets.foldl (addEntry py) .empty

variable {py : PyConversions}

/-- Only a number is between two numbers. -/
lemma eq_finite_of_bounds {low high : ℚ} {x : PyFloat} (h : .finite low ≤ x ∧ x ≤ .finite high) :
    ∃ q : ℚ, x = .finite q := by
  cases x with
  | finite q => exact ⟨q, rfl⟩
  | infinite negative => cases negative <;> simp [LE.le, PyFloat.le] at h
  | nan => simp [LE.le, PyFloat.le] at h

/-- The best prices of an accepted book are numbers in order, and its spread is their difference. -/
lemma prices_of_snapshot? {tokenId : String} {bids asks : List ClobClient.Quote}
    {snapshot : ClobClient.OrderBookSnapshot}
    (h : ClobClient.snapshot? tokenId bids asks = some snapshot) :
    ∃ bid ask : ℚ, snapshot.bestBid = .finite bid ∧ snapshot.bestAsk = .finite ask ∧
      snapshot.spread = .finite (ask - bid) ∧ bid ≤ ask := by
  rw [ClobClient.snapshot?] at h
  split at h
  · next bestBid _ bestAsk _ hbid hask =>
    split_ifs at h with hbounds hcrossed
    obtain rfl := Option.some.inj h
    push Not at hbounds
    rw [ClobClient.one_eq, ClobClient.zero_eq] at hbounds
    obtain ⟨bid, rfl⟩ := eq_finite_of_bounds hbounds.1
    obtain ⟨ask, rfl⟩ := eq_finite_of_bounds hbounds.2
    refine ⟨bid, ask, rfl, rfl, PyFloat.finite_sub ask bid, ?_⟩
    simpa using hcrossed
  · cases h

lemma prices_of_getOrderBook {tokenId : String} {resp : PersistedValue}
    {snapshot : ClobClient.OrderBookSnapshot}
    (h : ClobClient.getOrderBook py tokenId resp = .ok (some snapshot)) :
    ∃ bid ask : ℚ, snapshot.bestBid = .finite bid ∧ snapshot.bestAsk = .finite ask ∧
      snapshot.spread = .finite (ask - bid) ∧ bid ≤ ask := by
  cases resp with
  | obj fields =>
    cases hbids : (field fields "bids").truthy with
    | false => simp [ClobClient.getOrderBook, hbids] at h
    | true =>
      cases hasks : (field fields "asks").truthy with
      | false => simp [ClobClient.getOrderBook, hasks] at h
      | true =>
        rw [ClobClient.getOrderBook_sides hbids hasks] at h
        rcases parseSide_cases py ClobClient.quote? fields "bids" with ⟨-, hb⟩ | ⟨-, e, he⟩
        · rcases parseSide_cases py ClobClient.quote? fields "asks" with ⟨-, ha⟩ | ⟨-, e, he⟩
          · rw [hb, ha] at h
            exact prices_of_snapshot? (Except.ok.inj h)
          · rw [hb, he] at h
            cases h
        · rw [he] at h
          cases h
  | _ => simp [ClobClient.getOrderBook] at h

/-- The gap of the two asks is minus the spread, and costs are not negative. -/
lemma checkSingle_orderBookEntry (hfee : 0 ≤ fee) {m : ScannedMarket}
    {snapshot : ClobClient.OrderBookSnapshot} {entry : MarketDict} {bid ask : ℚ}
    (hbid : snapshot.bestBid = .finite bid) (hask : snapshot.bestAsk = .finite ask)
    (hspread : snapshot.spread = .finite (ask - bid)) (hle : bid ≤ ask)
    (hentry : orderBookEntry m snapshot = some entry) : checkSingle fee entry = none := by
  rw [orderBookEntry, hbid, hask, hspread] at hentry
  obtain rfl := Option.some.inj hentry
  rw [checkSingle]
  split
  · next yesAsk noAsk hyes hno =>
    dsimp only at hyes hno ⊢
    obtain rfl := Option.some.inj hyes
    split_ifs at hno with htokens hpos
    obtain rfl := Option.some.inj hno
    rw [if_neg (by linarith : ¬ (ask - bid) * 2 + fee < 1 - (ask + (1 - bid)))]
    exact ite_self _
  · rfl

/-- No entry of the books is an opportunity. -/
def NoOpportunity (fee : ℚ) (orderBooks : Dict String MarketDict) : Prop :=
  ∀ key entry, orderBooks.get? key = some entry → checkSingle fee entry = none

lemma noOpportunity_addEntry (hfee : 0 ≤ fee) {orderBooks : Dict String MarketDict}
    (hbooks : NoOpportunity fee orderBooks) (m : ScannedMarket) :
    NoOpportunity fee (addEntry py orderBooks m) := by
  rw [addEntry]
  split
  · exact hbooks
  · split
    · next snapshot hsnapshot =>
      obtain ⟨bid, ask, hbid, hask, hspread, hle⟩ := prices_of_getOrderBook hsnapshot
      split_ifs
      · split
        · next added hentry =>
          intro key entry hget
          rw [Dict.get?_set] at hget
          split_ifs at hget with hkey
          · obtain rfl := Option.some.inj hget
            exact checkSingle_orderBookEntry hfee hbid hask hspread hle hentry
          · exact hbooks key entry hget
        · exact hbooks
      · exact hbooks
    · exact hbooks

lemma noOpportunity_foldl (hfee : 0 ≤ fee) (markets : List ScannedMarket)
    {orderBooks : Dict String MarketDict} (hbooks : NoOpportunity fee orderBooks) :
    NoOpportunity fee (markets.foldl (addEntry py) orderBooks) := by
  induction markets generalizing orderBooks with
  | nil => exact hbooks
  | cons m markets ih => exact ih (noOpportunity_addEntry hfee hbooks m)

/-- Whatever the markets are and whatever the responses for their books, the scan of a cycle finds
nothing. -/
theorem scan_orderBooks (hfee : 0 ≤ fee) (py : PyConversions) (markets : List ScannedMarket) :
    scan fee (orderBooks py markets).values = [] := by
  have hnone : NoOpportunity fee (orderBooks py markets) := by
    apply noOpportunity_foldl hfee
    intro key entry hget
    cases hget
  rw [scan_eq, sortBy_eq_nil, List.filterMap_eq_nil_iff]
  intro entry hentry
  obtain ⟨key, hget⟩ := (Dict.mem_values_iff _ entry).mp hentry
  exact hnone key entry hget

/-- A market of two tokens, with the response of a bid at 0.5 and an ask at 0.6. -/
def quotedMarket : ScannedMarket where
  conditionId := "C"
  question := "Q"
  clobTokenIds := ["YES", "NO"]
  resp := ClobClient.oneLevelResponse 3
  saved := true

theorem scan_orderBooks_quoted : scan (2 / 100) (orderBooks .noTexts [quotedMarket]).values = [] :=
  scan_orderBooks (by norm_num) .noTexts [quotedMarket]

end Arbitrage
end PolyCortex
