import PolyCortex.Data.MessageSafety
import PolyCortex.Data.Sorting

/-!
# The best prices of a streamed book

`OrderBookSnapshot` reads the best prices off the first levels: its bids are to be sorted with the highest
first, and its asks with the lowest first. `_parse_levels` sorts both sides with the highest first, so
that the best ask of a stored snapshot is the highest one. It is the lowest one as well exactly when all
asks have one price.
-/

namespace PolyCortex.WebSocketClient

variable {py : PyConversions} {loads : String → Except PyError PersistedValue}
  {fields : List (String × PersistedValue)} {raw : String}

/-- The prices of levels. -/
def prices (levels : List OrderBookLevel) : Set ℚ := {price | ∃ level ∈ levels, level.price = price}

variable (py) in
/-- The best prices are the best among the valid levels of the message, and the sides are sorted by
them. -/
structure BestPrices (fields : List (String × PersistedValue)) (snapshot : OrderBookSnapshot) : Prop where
  bestBid : if validLevels py fields "bids" = [] then snapshot.bestBid = 0
    else IsGreatest (prices (validLevels py fields "bids")) snapshot.bestBid
  bestAsk : if validLevels py fields "asks" = [] then snapshot.bestAsk = 1
    else IsLeast (prices (validLevels py fields "asks")) snapshot.bestAsk
  bids : snapshot.bids.Pairwise fun a b => b.price ≤ a.price
  asks : snapshot.asks.Pairwise fun a b => a.price ≤ b.price

lemma sortLevels_eq (levels : List OrderBookLevel) :
    sortLevels levels = sortBy (fun level => OrderDual.toDual level.price) levels := rfl

lemma sortLevels_pairwise (levels : List OrderBookLevel) :
    (sortLevels levels).Pairwise fun a b => b.price ≤ a.price := by
  rw [sortLevels_eq]
  exact sortBy_pairwise (fun level : OrderBookLevel => OrderDual.toDual level.price) levels

/-- The first level is the highest. -/
lemma isGreatest_head_sortLevels {levels rest : List OrderBookLevel} {level : OrderBookLevel}
    (h : sortLevels levels = level :: rest) : IsGreatest (prices levels) level.price := by
  rw [sortLevels_eq] at h
  obtain ⟨⟨best, hbest, hprice⟩, hleast⟩ := isLeast_head_sortBy h
  refine ⟨⟨best, hbest, OrderDual.toDual.injective hprice⟩, ?_⟩
  rintro _ ⟨other, hother, rfl⟩
  exact hleast ⟨other, hother, rfl⟩

/-- The first level of a side, or the price of an empty one. -/
lemma head_sortLevels (levels : List OrderBookLevel) (default : ℚ) :
    if levels = [] then ((sortLevels levels).head?.map (·.price)).getD default = default
    else IsGreatest (prices levels) (((sortLevels levels).head?.map (·.price)).getD default) := by
  split_ifs with hnil
  · simp [hnil, sortLevels]
  · have hne : sortLevels levels ≠ [] := by
      rw [sortLevels_eq]
      simpa using hnil
    obtain ⟨level, rest, hlevels⟩ := List.exists_cons_of_ne_nil hne
    rw [hlevels]
    exact isGreatest_head_sortLevels hlevels

/-- Sorted with the highest first, the asks are sorted with the lowest first when they have one price. -/
lemma sortLevels_ascending {levels : List OrderBookLevel} :
    (sortLevels levels).Pairwise (fun a b => a.price ≤ b.price) ↔
      ∀ a ∈ levels, ∀ b ∈ levels, a.price = b.price := by
  constructor
  · intro hascending a ha b hb
    have hle := List.Pairwise.forall_of_forall_of_flip (R := fun a b : OrderBookLevel => a.price ≤ b.price)
      (fun _ _ => le_rfl) hascending (sortLevels_pairwise levels)
    have ha := (sortLevels_perm levels).mem_iff.mpr ha
    have hb := (sortLevels_perm levels).mem_iff.mpr hb
    exact le_antisymm (hle ha hb) (hle hb ha)
  · intro hsame
    rw [List.pairwise_iff_forall_sublist]
    intro a b hab
    have ha := (sortLevels_perm levels).subset (hab.subset List.mem_cons_self)
    have hb := (sortLevels_perm levels).subset (hab.subset (List.mem_cons_of_mem a List.mem_cons_self))
    exact (hsame a ha b hb).le

/-- The book of a message has the best prices exactly when its asks have one price. -/
lemma bestPrices_bookOf (received : ℕ) (tokenId : TokenKey) :
    BestPrices py fields (bookOf py received fields tokenId) ↔
      ∀ a ∈ validLevels py fields "asks", ∀ b ∈ validLevels py fields "asks", a.price = b.price := by
  rw [← sortLevels_ascending]
  constructor
  · exact BestPrices.asks
  · intro hascending
    refine ⟨head_sortLevels _ 0, ?_, sortLevels_pairwise _, hascending⟩
    have hbest := head_sortLevels (validLevels py fields "asks") 1
    split_ifs at hbest ⊢ with hnil
    · exact hbest
    · obtain ⟨level, hlevel, hprice⟩ := hbest.1
      refine ⟨⟨level, hlevel, hprice⟩, ?_⟩
      rintro _ ⟨other, hother, rfl⟩
      have hsame := sortLevels_ascending.mp hascending level hlevel other hother
      exact (hprice.symm.trans hsame).le

/-- The snapshot that a message has stored has the best prices exactly when all its valid asks have one
price. -/
theorem bestPrices_iff (hbook : HasBook py loads raw fields) (ws : WebSocketClient)
    (hreturns : (ws.handleMessage py loads raw).1 = .ok ()) {tokenId : TokenKey}
    (hkey : tokenKey (tokenIdOf fields) = .ok tokenId) {snapshot : OrderBookSnapshot}
    (hstored : (ws.handleMessage py loads raw).2.snapshots.get? tokenId = some snapshot) :
    BestPrices py fields snapshot ↔
      ∀ a ∈ validLevels py fields "asks", ∀ b ∈ validLevels py fields "asks", a.price = b.price := by
  rcases handleMessage_cases py loads raw ws with
    ⟨fields', tokenId', hstores, hhandle⟩ | ⟨-, hnone, -⟩ | ⟨-, e, hhandle⟩
  · obtain rfl := hstores.hasBook.unique hbook.1
    have hkey' := hstores.key
    rw [hkey] at hkey'
    obtain rfl := Except.ok.inj hkey'
    have hsnapshot : snapshot = bookOf py (ws.messagesReceived + 1) fields' tokenId := by
      rw [hhandle] at hstored
      simpa [store, bookOf] using hstored.symm
    rw [hsnapshot, bestPrices_bookOf]
  · exact absurd hbook (hnone fields)
  · rw [hhandle] at hreturns
    exact absurd hreturns (by simp)

/-! ### A message with two asks -/

def twoAsks : List (String × PersistedValue) :=
  [("asset_id", .str "TK"),
    ("asks", .arr [.obj [("price", .float (.finite (3 / 5))), ("size", .float (.finite 10))],
      .obj [("price", .float (.finite (7 / 10))), ("size", .float (.finite 5))]])]

def twoAsksText : String :=
  "\x7b\"asset_id\": \"TK\", \"asks\": [\x7b\"price\": 0.6, \"size\": 10.0\x7d, " ++
    "\x7b\"price\": 0.7, \"size\": 5.0\x7d]\x7d"

lemma twoAsks_stores :
    Stores .noTexts (loadsAs (.obj twoAsks)) twoAsksText twoAsks (.str "TK") where
  hasBook := ⟨rfl, rfl, Or.inr (by decide +kernel)⟩
  bids := Or.inl rfl
  asks := Or.inr ⟨_, rfl, by simpa using ⟨legible_floats _ _, legible_floats _ _⟩⟩
  key := rfl

theorem bestPrices_iff_oneAsk :
    BestPrices .noTexts oneAsk (bookOf .noTexts 1 oneAsk (.str "TK")) ↔
      ∀ a ∈ validLevels .noTexts oneAsk "asks", ∀ b ∈ validLevels .noTexts oneAsk "asks",
        a.price = b.price :=
  bestPrices_iff oneAsk_stores.hasBook {} (by rw [oneAsk_stores.handleMessage]) rfl
    (by rw [oneAsk_stores.handleMessage]; exact Dict.get?_set_self _ _ _)

/-- The stored best ask is 0.7. -/
theorem not_bestPrices_twoAsks :
    let ws := (({} : WebSocketClient).handleMessage .noTexts (loadsAs (.obj twoAsks)) twoAsksText).2
    ws.getSnapshot "TK" = some (bookOf .noTexts 1 twoAsks (.str "TK")) ∧
      HasBook .noTexts (loadsAs (.obj twoAsks)) twoAsksText twoAsks ∧
      ¬ BestPrices .noTexts twoAsks (bookOf .noTexts 1 twoAsks (.str "TK")) := by
  refine ⟨?_, twoAsks_stores.hasBook, ?_⟩
  · rw [twoAsks_stores.handleMessage]
    exact Dict.get?_set_self _ _ _
  · rw [bestPrices_bookOf]
    decide +kernel

end PolyCortex.WebSocketClient
