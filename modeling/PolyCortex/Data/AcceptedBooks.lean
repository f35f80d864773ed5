import PolyCortex.Data.ClobClient
import PolyCortex.Data.Sorting

/-!
# Which accepted books are sane

`get_order_book` checks the best prices of a response and lets its other levels and all sizes through. It
returns nothing or a sane book exactly when the sides can be read and, unless the best prices are
rejected, the levels that it keeps are sane themselves.
-/

namespace PolyCortex.ClobClient

variable {py : PyConversions} {tokenId : String} {fields : List (String × PersistedValue)}

/-- The levels have prices from 0 to 1 and positive sizes, in order, the depths are positive, and the
best prices and the imbalance are in their bounds. -/
structure SaneBook (book : OrderBookSnapshot) : Prop where
  bids : ∀ quote ∈ book.bids, 0 ≤ quote.1 ∧ quote.1 ≤ 1.0 ∧ 0 < quote.2
  asks : ∀ quote ∈ book.asks, 0 ≤ quote.1 ∧ quote.1 ≤ 1.0 ∧ 0 < quote.2
  bids_sorted : book.bids.Pairwise fun a b => b.1 ≤ a.1
  asks_sorted : book.asks.Pairwise fun a b => a.1 ≤ b.1
  bids_length : book.bids.length ≤ 10
  asks_length : book.asks.length ≤ 10
  midpoint : book.bestBid ≤ book.midpoint ∧ book.midpoint ≤ book.bestAsk
  depths : 0 < book.bidDepth ∧ 0 < book.askDepth
  imbalance : .finite (-1) ≤ book.imbalance ∧ book.imbalance ≤ .finite 1

/-- The call returns, and what it returns is nothing or a sane book. -/
def Sane (result : Except ReadError (Option OrderBookSnapshot)) : Prop :=
  ∃ book, result = .ok book ∧ ∀ snapshot, book = some snapshot → SaneBook snapshot

variable (py) in
/-- The prices and sizes that can be read of a side. -/
abbrev quotes (fields : List (String × PersistedValue)) (key : String) : List Quote :=
  keptSide py quote? fields key

variable (py) in
/-- No number of the sides is infinite or NaN. -/
def FiniteNumbers (resp : PersistedValue) : Prop :=
  ∀ fields, resp = .obj fields → ∀ key ∈ ["bids", "asks"], ∀ quote ∈ quotes py fields key,
    quote.1.isFinite = true ∧ quote.2.isFinite = true

/-- The best prices are from 0 to 1 and not crossed. -/
structure Quoted (bids asks : List Quote) : Prop where
  bids_le : ∀ bid ∈ bids, bid.1 ≤ 1.0
  le_bid : ∃ bid ∈ bids, 0 ≤ bid.1
  le_asks : ∀ ask ∈ asks, 0 ≤ ask.1
  ask_le : ∃ ask ∈ asks, ask.1 ≤ 1.0
  uncrossed : ∀ bid ∈ bids, ∀ ask ∈ asks, bid.1 ≤ ask.1

/-- The levels that are kept have prices from 0 to 1 and positive sizes, when the best prices do. -/
structure SaneLevels (bids asks : List Quote) : Prop where
  bids : ∀ bid ∈ topBids bids, 0 ≤ bid.1 ∧ 0 < bid.2
  asks : ∀ ask ∈ topAsks asks, ask.1 ≤ 1.0 ∧ 0 < ask.2

variable (py) in
/-- The response has no two sides, or they can be read and have sane levels unless their best prices are
rejected. -/
def SaneResponse : PersistedValue → Prop
  | .obj fields =>
    (field fields "bids").truthy = false ∨ (field fields "asks").truthy = false ∨
      LegibleSide py fields "bids" ∧ LegibleSide py fields "asks" ∧
        (Quoted (quotes py fields "bids") (quotes py fields "asks") →
          SaneLevels (quotes py fields "bids") (quotes py fields "asks"))
  | _ => True

/-! ### Finite levels -/

/-- A level with a finite price and a finite size. -/
def finiteQuote (level : ℚ × ℚ) : Quote := (.finite level.1, .finite level.2)

lemma eq_map_finiteQuote {levels : List Quote}
    (h : ∀ quote ∈ levels, quote.1.isFinite = true ∧ quote.2.isFinite = true) :
    ∃ rats : List (ℚ × ℚ), levels = rats.map finiteQuote := by
  induction levels with
  | nil => exact ⟨[], rfl⟩
  | cons level levels ih =>
    simp only [List.forall_mem_cons] at h
    obtain ⟨rats, rfl⟩ := ih h.2
    obtain ⟨price, size⟩ := level
    cases price <;> cases size <;> simp [PyFloat.isFinite] at h
    rename_i price size
    exact ⟨(price, size) :: rats, rfl⟩

def highest (bids : List (ℚ × ℚ)) : List (ℚ × ℚ) :=
  (sortBy (fun bid : ℚ × ℚ => OrderDual.toDual bid.1) bids).take 10

def lowest (asks : List (ℚ × ℚ)) : List (ℚ × ℚ) := (sortBy (fun ask : ℚ × ℚ => ask.1) asks).take 10

/-- Finite levels are sorted as their rational prices are. -/
lemma map_take_sortBy {β : Type} [LinearOrder β] {key : ℚ × ℚ → β} {le : Quote → Quote → Bool}
    (hle : ∀ a b, le (finiteQuote a) (finiteQuote b) = decide (key a ≤ key b)) (levels : List (ℚ × ℚ)) :
    ((levels.map finiteQuote).mergeSort le).take 10 =
      ((sortBy key levels).take 10).map finiteQuote := by
  rw [sortBy, List.map_take, List.map_mergeSort]
  exact fun a _ b _ => (hle a b).symm

lemma topBids_finite (bids : List (ℚ × ℚ)) :
    topBids (bids.map finiteQuote) = (highest bids).map finiteQuote := by
  apply map_take_sortBy
  simp [finiteQuote, ← not_lt]

lemma topAsks_finite (asks : List (ℚ × ℚ)) :
    topAsks (asks.map finiteQuote) = (lowest asks).map finiteQuote := by
  apply map_take_sortBy
  simp [finiteQuote, ← not_lt]

lemma depth_finite (levels : List (ℚ × ℚ)) :
    depth (levels.map finiteQuote) = .finite (levels.map (·.2)).sum := by
  have hfold : ∀ q : ℚ, ((levels.map finiteQuote).map (·.2)).foldl (· + ·) (PyFloat.finite q) =
      .finite (q + (levels.map (·.2)).sum) := by
    induction levels with
    | nil => simp
    | cons level levels ih =>
      intro q
      simp only [List.map_cons, List.foldl_cons, List.sum_cons, ← add_assoc]
      exact ih (q + level.2)
  have hzero := hfold 0
  rw [zero_add] at hzero
  exact hzero

lemma one_eq : (1.0 : PyFloat) = .finite 1 := by
  rw [PyFloat.ofScientific_eq]
  norm_num

lemma two_eq : (2.0 : PyFloat) = .finite 2 := by
  rw [PyFloat.ofScientific_eq]
  norm_num

lemma zero_eq : (0 : PyFloat) = .finite 0 := rfl

/-- The snapshot of finite levels. -/
def finiteBook (tokenId : String) (bids asks : List (ℚ × ℚ)) (bestBid bestAsk : ℚ) :
    OrderBookSnapshot where
  tokenId := tokenId
  midpoint := .finite ((bestBid + bestAsk) / 2)
  spread := .finite (bestAsk - bestBid)
  bidDepth := .finite (bids.map (·.2)).sum
  askDepth := .finite (asks.map (·.2)).sum
  bestBid := .finite bestBid
  bestAsk := .finite bestAsk
  bids := bids.map finiteQuote
  asks := asks.map finiteQuote

section Best

variable {bids asks bids' asks' : List (ℚ × ℚ)} {bid ask : ℚ × ℚ}
  (hbids : highest bids = bid :: bids') (hasks : lowest asks = ask :: asks')

include hbids in
lemma best_bid : bid ∈ bids ∧ ∀ other ∈ bids, other.1 ≤ bid.1 := head_take_sortBy hbids

include hasks in
lemma best_ask : ask ∈ asks ∧ ∀ other ∈ asks, ask.1 ≤ other.1 := head_take_sortBy hasks

include hbids hasks

/-- The best prices are checked, as the first of the sorted sides. -/
lemma quoted_finite : Quoted (bids.map finiteQuote) (asks.map finiteQuote) ↔
    (0 ≤ bid.1 ∧ bid.1 ≤ 1) ∧ (0 ≤ ask.1 ∧ ask.1 ≤ 1) ∧ bid.1 ≤ ask.1 := by
  obtain ⟨hbid, hbest⟩ := best_bid hbids
  obtain ⟨hask, hbest'⟩ := best_ask hasks
  constructor
  · rintro ⟨hbids_le, ⟨_, hmem, hle⟩, hle_asks, ⟨_, hmem', hle'⟩, huncrossed⟩
    obtain ⟨other, hother, rfl⟩ := List.mem_map.mp hmem
    obtain ⟨other', hother', rfl⟩ := List.mem_map.mp hmem'
    simp only [List.forall_mem_map, finiteQuote, one_eq, zero_eq, PyFloat.finite_le] at *
    exact ⟨⟨hle.trans (hbest other hother), hbids_le bid hbid⟩,
      ⟨hle_asks ask hask, (hbest' other' hother').trans hle'⟩, huncrossed bid hbid ask hask⟩
  · rintro ⟨⟨hbid_nonneg, hbid_le⟩, ⟨hask_nonneg, hask_le⟩, hle⟩
    constructor
    · simp only [List.forall_mem_map, finiteQuote, one_eq, PyFloat.finite_le]
      exact fun other hother => (hbest other hother).trans hbid_le
    · exact ⟨_, List.mem_map_of_mem hbid, PyFloat.finite_le.mpr hbid_nonneg⟩
    · simp only [List.forall_mem_map, finiteQuote, zero_eq, PyFloat.finite_le]
      exact fun other hother => hask_nonneg.trans (hbest' other hother)
    · refine ⟨_, List.mem_map_of_mem hask, ?_⟩
      rw [one_eq]
      exact PyFloat.finite_le.mpr hask_le
    · simp only [List.forall_mem_map, finiteQuote, PyFloat.finite_le]
      exact fun other hother other' hother' =>
        (hbest other hother).trans (hle.trans (hbest' other' hother'))

lemma snapshot?_finite (tokenId : String) :
    (Quoted (bids.map finiteQuote) (asks.map finiteQuote) ∧
      snapshot? tokenId (bids.map finiteQuote) (asks.map finiteQuote) =
        some (finiteBook tokenId (highest bids) (lowest asks) bid.1 ask.1)) ∨
    (¬ Quoted (bids.map finiteQuote) (asks.map finiteQuote) ∧
      snapshot? tokenId (bids.map finiteQuote) (asks.map finiteQuote) = none) := by
  have htop := topBids_finite bids
  have htop' := topAsks_finite asks
  rw [quoted_finite hbids hasks, snapshot?, htop, htop', depth_finite, depth_finite, hbids, hasks]
  simp only [List.map_cons, List.head?_cons, finiteQuote, one_eq, two_eq, zero_eq, PyFloat.finite_le,
    PyFloat.finite_lt, PyFloat.finite_add, PyFloat.finite_sub, PyFloat.finite_div _ two_ne_zero]
  split_ifs with hbounds hcrossed
  · exact Or.inr ⟨fun h => by tauto, rfl⟩
  · exact Or.inr ⟨fun h => hcrossed.not_ge h.2.2, rfl⟩
  · refine Or.inl ⟨?_, rfl⟩
    push Not at hbounds
    exact ⟨hbounds.1, hbounds.2, not_lt.mp hcrossed⟩

end Best

/-! ### Sane books -/

/-- Between positive depths the imbalance is in its bounds. -/
lemma imbalance_bounds {x y : ℚ} (hx : 0 < x) (hy : 0 < y) {ε : ℚ} (hε : 0 < ε) :
    -1 ≤ (x - y) / (x + y + ε) ∧ (x - y) / (x + y + ε) ≤ 1 := by
  have hpos : 0 < x + y + ε := by positivity
  constructor
  · rw [le_div_iff₀ hpos]
    linarith
  · rw [div_le_one hpos]
    linarith

lemma imbalance_finiteBook {bids asks : List (ℚ × ℚ)} (hbids : 0 < (bids.map (·.2)).sum)
    (hasks : 0 < (asks.map (·.2)).sum) (tokenId : String) (bestBid bestAsk : ℚ) :
    ∃ q : ℚ, (finiteBook tokenId bids asks bestBid bestAsk).imbalance = .finite q ∧ -1 ≤ q ∧ q ≤ 1 := by
  have hε : (0 : ℚ) < 1e-8 := by norm_num
  refine ⟨_, ?_, imbalance_bounds hbids hasks hε⟩
  rw [OrderBookSnapshot.imbalance, PyFloat.ofScientific_eq]
  simp only [finiteBook, PyFloat.finite_sub, PyFloat.finite_add]
  exact PyFloat.finite_div _ (by positivity)

lemma sum_sizes_pos {levels : List (ℚ × ℚ)} (hne : levels ≠ []) (h : ∀ level ∈ levels, 0 < level.2) :
    0 < (levels.map (·.2)).sum := by
  apply List.sum_pos
  · intro size hsize
    obtain ⟨level, hlevel, rfl⟩ := List.mem_map.mp hsize
    exact h level hlevel
  · simpa using hne

/-- Finite levels are sane as their rational prices and sizes are. -/
lemma saneLevels_finite (bids asks : List (ℚ × ℚ)) :
    SaneLevels (bids.map finiteQuote) (asks.map finiteQuote) ↔
      (∀ level ∈ highest bids, 0 ≤ level.1 ∧ 0 < level.2) ∧
        ∀ level ∈ lowest asks, level.1 ≤ 1 ∧ 0 < level.2 := by
  have hiff : SaneLevels (bids.map finiteQuote) (asks.map finiteQuote) ↔
      (∀ quote ∈ topBids (bids.map finiteQuote), 0 ≤ quote.1 ∧ 0 < quote.2) ∧
        ∀ quote ∈ topAsks (asks.map finiteQuote), quote.1 ≤ 1.0 ∧ 0 < quote.2 :=
    ⟨fun h => ⟨h.bids, h.asks⟩, fun h => ⟨h.1, h.2⟩⟩
  rw [hiff, topBids_finite, topAsks_finite]
  simp only [List.forall_mem_map, finiteQuote, one_eq, zero_eq, PyFloat.finite_le, PyFloat.finite_lt]

lemma forall_finiteQuote (levels : List (ℚ × ℚ)) :
    (∀ quote ∈ levels.map finiteQuote, 0 ≤ quote.1 ∧ quote.1 ≤ 1.0 ∧ 0 < quote.2) ↔
      ∀ level ∈ levels, 0 ≤ level.1 ∧ level.1 ≤ 1 ∧ 0 < level.2 := by
  simp only [List.forall_mem_map, finiteQuote, one_eq, zero_eq, PyFloat.finite_le, PyFloat.finite_lt]

section Best

variable {bids asks bids' asks' : List (ℚ × ℚ)} {bid ask : ℚ × ℚ}
  (hbids : highest bids = bid :: bids') (hasks : lowest asks = ask :: asks')

include hbids hasks

/-- The sizes of sane levels add up to positive depths. -/
lemma depths_pos (hsane : SaneLevels (bids.map finiteQuote) (asks.map finiteQuote)) :
    0 < ((highest bids).map (·.2)).sum ∧ 0 < ((lowest asks).map (·.2)).sum := by
  obtain ⟨hsane_bids, hsane_asks⟩ := (saneLevels_finite bids asks).mp hsane
  constructor
  · apply sum_sizes_pos
    · simp [hbids]
    · exact fun level hlevel => (hsane_bids level hlevel).2
  · apply sum_sizes_pos
    · simp [hasks]
    · exact fun level hlevel => (hsane_asks level hlevel).2

/-- With best prices that are accepted, the snapshot is sane when its levels are. -/
lemma saneBook_finite (tokenId : String)
    (hquoted : Quoted (bids.map finiteQuote) (asks.map finiteQuote)) :
    SaneBook (finiteBook tokenId (highest bids) (lowest asks) bid.1 ask.1) ↔
      SaneLevels (bids.map finiteQuote) (asks.map finiteQuote) := by
  obtain ⟨⟨-, hbid_le⟩, ⟨hask_nonneg, -⟩, huncrossed⟩ := (quoted_finite hbids hasks).mp hquoted
  constructor
  · intro hbook
    have hbook_bids := (forall_finiteQuote _).mp hbook.bids
    have hbook_asks := (forall_finiteQuote _).mp hbook.asks
    rw [saneLevels_finite]
    exact ⟨fun level hlevel => ⟨(hbook_bids level hlevel).1, (hbook_bids level hlevel).2.2⟩,
      fun level hlevel => (hbook_asks level hlevel).2⟩
  · intro hsane
    obtain ⟨hsane_bids, hsane_asks⟩ := (saneLevels_finite bids asks).mp hsane
    obtain ⟨hdepth, hdepth'⟩ := depths_pos hbids hasks hsane
    obtain ⟨q, hq, hlow, hhigh⟩ := imbalance_finiteBook hdepth hdepth' tokenId bid.1 ask.1
    constructor
    · apply (forall_finiteQuote _).mpr
      intro level hlevel
      have hbest := (best_bid hbids).2 level (mem_of_mem_take_sortBy hlevel)
      exact ⟨(hsane_bids level hlevel).1, hbest.trans hbid_le, (hsane_bids level hlevel).2⟩
    · apply (forall_finiteQuote _).mpr
      intro level hlevel
      have hbest := (best_ask hasks).2 level (mem_of_mem_take_sortBy hlevel)
      exact ⟨hask_nonneg.trans hbest, hsane_asks level hlevel⟩
    · simp only [finiteBook, List.pairwise_map, finiteQuote, PyFloat.finite_le]
      exact (sortBy_pairwise (fun bid : ℚ × ℚ => OrderDual.toDual bid.1) bids).take
    · simp only [finiteBook, List.pairwise_map, finiteQuote, PyFloat.finite_le]
      exact (sortBy_pairwise (fun ask : ℚ × ℚ => ask.1) asks).take
    · simp [finiteBook, highest]
    · simp [finiteBook, lowest]
    · simp only [finiteBook, PyFloat.finite_le]
      constructor <;> linarith
    · simp only [finiteBook, zero_eq, PyFloat.finite_lt]
      exact ⟨hdepth, hdepth'⟩
    · rw [hq, PyFloat.finite_le, PyFloat.finite_le]
      exact ⟨hlow, hhigh⟩

end Best

/-- Of finite levels there is no snapshot, or it is sane, exactly when their levels are sane unless the
best prices are rejected. -/
lemma sane_snapshot?_finite (tokenId : String) (bids asks : List (ℚ × ℚ)) :
    (∀ snapshot, snapshot? tokenId (bids.map finiteQuote) (asks.map finiteQuote) = some snapshot →
        SaneBook snapshot) ↔
      (Quoted (bids.map finiteQuote) (asks.map finiteQuote) →
        SaneLevels (bids.map finiteQuote) (asks.map finiteQuote)) := by
  cases hbids : highest bids with
  | nil =>
    have hnil : bids = [] := (take_sortBy_eq_nil (by decide)).mp hbids
    subst hnil
    apply iff_of_true
    · simp [snapshot?, topBids]
    · exact fun hquoted => absurd hquoted.le_bid (by simp)
  | cons bid bids' =>
    cases hasks : lowest asks with
    | nil =>
      have hnil : asks = [] := (take_sortBy_eq_nil (by decide)).mp hasks
      subst hnil
      apply iff_of_true
      · simp [snapshot?, topAsks]
      · exact fun hquoted => absurd hquoted.ask_le (by simp)
    | cons ask asks' =>
      rcases snapshot?_finite hbids hasks tokenId with ⟨hquoted, hsome⟩ | ⟨hnot, hnone⟩
      · rw [hsome, ← saneBook_finite hbids hasks tokenId hquoted]
        simp [hquoted]
      · rw [hnone]
        simp [hnot]

/-- With two sides they are read and make a snapshot. -/
lemma getOrderBook_sides (hbids : (field fields "bids").truthy = true)
    (hasks : (field fields "asks").truthy = true) :
    getOrderBook py tokenId (.obj fields) = (do
      let bids ← parseLevels py quote? ((field fields "bids").or (.arr []))
      let asks ← parseLevels py quote? ((field fields "asks").or (.arr []))
      pure (snapshot? tokenId bids asks)) := by
  have hne : fields.isEmpty = false := by
    cases fields with
    | nil => cases hbids
    | cons _ _ => rfl
  simp [getOrderBook, hne, hbids, hasks]

lemma not_sane_error (e : ReadError) : ¬ Sane (.error e) := by
  rintro ⟨book, hbook, -⟩
  cases hbook

/-- With two sides the call returns when they can be read, and what it returns is sane when the snapshot
is. -/
lemma sane_sides (hbids : (field fields "bids").truthy = true)
    (hasks : (field fields "asks").truthy = true) :
    Sane (getOrderBook py tokenId (.obj fields)) ↔
      LegibleSide py fields "bids" ∧ LegibleSide py fields "asks" ∧
        ∀ snapshot, snapshot? tokenId (quotes py fields "bids") (quotes py fields "asks") = some snapshot →
          SaneBook snapshot := by
  rw [getOrderBook_sides hbids hasks]
  rcases parseSide_cases py quote? fields "bids" with ⟨hlegible, hb⟩ | ⟨hnot, e, he⟩
  · rcases parseSide_cases py quote? fields "asks" with ⟨hlegible', ha⟩ | ⟨hnot, e, he⟩
    · rw [hb, ha]
      simp only [hlegible, hlegible', true_and]
      constructor
      · rintro ⟨book, hbook, hsane⟩
        rwa [← Except.ok.inj hbook] at hsane
      · exact fun hsane => ⟨_, rfl, hsane⟩
    · rw [hb, he]
      exact iff_of_false (not_sane_error e) fun h => hnot h.2.1
  · rw [he]
    exact iff_of_false (not_sane_error e) fun h => hnot h.1

def side (price size : ℚ) : PersistedValue :=
  .arr [.obj [("price", .float (.finite price)), ("size", .float (.finite size))]]

/-- A bid of 2 at 0.5, and an ask at 0.6. -/
def oneLevelResponse (askSize : ℚ) : PersistedValue :=
  .obj [("bids", side (1 / 2) 2), ("asks", side (3 / 5) askSize)]

lemma quotes_oneLevel (askSize : ℚ) :
    quotes .noTexts [("bids", side (1 / 2) 2), ("asks", side (3 / 5) askSize)] "bids" =
        [(1 / 2, 2)].map finiteQuote ∧
      quotes .noTexts [("bids", side (1 / 2) 2), ("asks", side (3 / 5) askSize)] "asks" =
        [(3 / 5, askSize)].map finiteQuote := ⟨rfl, rfl⟩

end PolyCortex.ClobClient
