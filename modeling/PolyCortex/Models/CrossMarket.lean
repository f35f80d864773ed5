import Mathlib.Data.List.DropRight
import Mathlib.Data.List.Sort
import PolyCortex.Data.Grouping
import PolyCortex.Models.Edge

/-!
# Cross-market signals

What the detector is told about the other markets of a category: `get_cross_market_signals` computes
it for one market, `precompute_cross_signals` for all markets at once, from histories that are loaded
once and grouped by category. They come to the same (`precomputeCrossSignals_eq`).
-/

namespace PolyCortex.EdgeDetector

/-- A market of the scan, as far as the signals read it. -/
structure ScannedMarket where
  conditionId : MarketId
  category : String
  deriving DecidableEq, Repr

/-- An entry of the signals of a market. -/
structure CrossSignal where
  conditionId : MarketId
  priceChange24h : ℚ
  correlation : ℚ
  deriving DecidableEq, Repr

/-- What the detector reads of it. -/
def CrossSignal.related (signal : CrossSignal) : RelatedMarket :=
  ⟨signal.priceChange24h, signal.correlation⟩

/-- How `np.corrcoef` ends. -/
inductive Corrcoef where
  | value (corr : ℚ)
  | nan
  | raised
  deriving DecidableEq, Repr

/-- The midpoints of the last week of a market, if there is a history. -/
abbrev HistoryStore := MarketId → Option (List ℚ)

variable (corrcoef : List ℚ → List ℚ → Corrcoef)

/-- `price_change_24h`, over at most 24 prices. -/
def priceChange24h (prices : List ℚ) : ℚ :=
  if 2 ≤ prices.length then
    prices.getLastD 0 - prices.getD (prices.length - min prices.length 24) 0
  else 0

/-- The correlation of the prices that both markets have. -/
def correlate (ourPrices otherPrices : List ℚ) : Corrcoef :=
  let minLen := min ourPrices.length otherPrices.length
  corrcoef (ourPrices.rtake minLen) (otherPrices.rtake minLen)

/-- The strongest five; the sorting is stable. -/
def strongest (signals : List CrossSignal) : List CrossSignal :=
  (signals.insertionSort fun s s' => |s'.correlation| ≤ |s.correlation|).take 5

/-! ### One market -/

/-- One round of the loop over the markets of the category: all of it is in a `try`. -/
def crossSignal (historyStore : HistoryStore) (ourPrices : List ℚ) (other : ScannedMarket) :
    Option CrossSignal :=
  match historyStore other.conditionId with
  | none => none
  | some otherPrices =>
    if otherPrices = [] then none
    else if min ourPrices.length otherPrices.length < 5 then none
    else
      match correlate corrcoef ourPrices otherPrices with
      | .raised => none
      | .nan => none
      | .value corr => some ⟨other.conditionId, priceChange24h otherPrices, corr⟩

/-- `get_cross_market_signals`. -/
def getCrossMarketSignals (historyStore : HistoryStore) (allMarkets : List ScannedMarket)
    (market : ScannedMarket) : List CrossSignal :=
  let sameCategory := allMarkets.filter fun other =>
    other.category = market.category ∧ other.conditionId ≠ market.conditionId
  match historyStore market.conditionId with
  | none => []
  | some ourPrices =>
    if ourPrices = [] then []
    else strongest (sameCategory.filterMap (crossSignal corrcoef historyStore ourPrices))

/-! ### All markets -/

/-- `histories`: the prices of the markets that have some. -/
def loadHistories (historyStore : HistoryStore) (markets : List ScannedMarket) :
    Dict MarketId (List ℚ) :=
  markets.foldl (fun histories market =>
    match historyStore market.conditionId with
    | none => histories
    | some prices => if prices = [] then histories else histories.set market.conditionId prices)
  .empty

/-- `by_category`. -/
def byCategory (markets : List ScannedMarket) : Dict String (List ScannedMarket) :=
  Dict.groupFold (·.category) [] (fun market catMarkets => catMarkets ++ [market]) markets

/-- One round of the inner loop: the `try` begins with the correlation. -/
def batchedSignal (histories : Dict MarketId (List ℚ)) (market : ScannedMarket)
    (ourPrices : List ℚ) (other : ScannedMarket) : Option CrossSignal :=
  if other.conditionId = market.conditionId then none
  else
    match histories.get? other.conditionId with
    | none => none
    | some otherPrices =>
      if min ourPrices.length otherPrices.length < 5 then none
      else
        match correlate corrcoef ourPrices otherPrices with
        | .raised => none
        | .nan => none
        | .value corr => some ⟨other.conditionId, priceChange24h otherPrices, corr⟩

/-- The signals of a market, from the histories and the markets of its category. -/
def batchedSignals (histories : Dict MarketId (List ℚ)) (catMarkets : List ScannedMarket)
    (market : ScannedMarket) : List CrossSignal :=
  match histories.get? market.conditionId with
  | none => []
  | some ourPrices =>
    strongest (catMarkets.filterMap (batchedSignal corrcoef histories market ourPrices))

/-- `precompute_cross_signals`. -/
def precomputeCrossSignals (historyStore : HistoryStore) (markets : List ScannedMarket) :
    Dict MarketId (List CrossSignal) :=
  let histories := loadHistories historyStore markets
  (byCategory markets).values.foldl (fun result catMarkets =>
    catMarkets.foldl (fun result market =>
      result.set market.conditionId (batchedSignals corrcoef histories catMarkets market)) result)
  .empty

variable {corrcoef} {historyStore : HistoryStore} {markets : List ScannedMarket}
  {market other : ScannedMarket} {ourPrices : List ℚ}

/-! ### The histories and the categories -/

/-- A market of the list has its history there, unless it is missing or empty. -/
lemma get?_loadHistories (historyStore : HistoryStore) (markets : List ScannedMarket)
    (id : MarketId) :
    (loadHistories historyStore markets).get? id =
      if ∃ market ∈ markets, market.conditionId = id then (historyStore id).filter (· ≠ [])
      else none := by
  induction markets using List.reverseRecOn with
  | nil => simp [loadHistories]
  | append_singleton markets last ih =>
    rw [loadHistories, List.foldl_append, List.foldl_cons, List.foldl_nil, ← loadHistories]
    by_cases hlast : last.conditionId = id
    · subst hlast
      rw [if_pos ⟨last, by simp, rfl⟩]
      -- without prices the earlier entry stands, and that has none either
      have hearlier : (historyStore last.conditionId).filter (· ≠ []) = none →
          (loadHistories historyStore markets).get? last.conditionId = none := by
        intro hnone
        rw [ih, hnone, ite_self]
      cases hprices : historyStore last.conditionId with
      | none => exact hearlier (by rw [hprices]; rfl)
      | some prices =>
        dsimp only
        split_ifs with hempty
        · subst hempty
          exact hearlier (by rw [hprices]; rfl)
        · rw [Dict.get?_set_self, Option.filter_some, if_pos (by simpa using hempty)]
    · have hother : (∃ market ∈ markets ++ [last], market.conditionId = id) ↔
          ∃ market ∈ markets, market.conditionId = id := by
        simp [hlast]
      simp only [hother]
      rw [← ih]
      cases historyStore last.conditionId with
      | none => rfl
      | some prices =>
        dsimp only
        split_ifs
        · rfl
        · exact Dict.get?_set_of_ne _ (Ne.symm hlast) _

lemma get?_loadHistories_of_mem (hmarket : market ∈ markets) :
    (loadHistories historyStore markets).get? market.conditionId =
      (historyStore market.conditionId).filter (· ≠ []) := by
  rw [get?_loadHistories, if_pos ⟨market, hmarket, rfl⟩]

/-- The markets of a category keep their order. -/
lemma get?_byCategory (hmarket : market ∈ markets) :
    (byCategory markets).get? market.category =
      some (markets.filter (·.category = market.category)) := by
  have happend : ∀ rows acc : List ScannedMarket,
      rows.foldl (fun catMarkets row => catMarkets ++ [row]) acc = acc ++ rows := by
    intro rows
    induction rows with
    | nil => simp
    | cons row rows ih => intro acc; simp [ih]
  rw [byCategory, Dict.get?_groupFold, if_pos ⟨market, hmarket, rfl⟩, happend, List.nil_append]

/-- A category is what the markets of one of its members are. -/
lemma mem_values_byCategory {catMarkets : List ScannedMarket}
    (hcategory : catMarkets ∈ (byCategory markets).values) (hmarket : market ∈ catMarkets) :
    market ∈ markets ∧ catMarkets = markets.filter (·.category = market.category) := by
  obtain ⟨category, hget⟩ := (Dict.mem_values_iff _ _).mp hcategory
  obtain ⟨first, hfirst, rfl⟩ := Dict.mem_keys_groupFold markets |>.mp (Dict.mem_keys_of_get? hget)
  rw [get?_byCategory hfirst, Option.some.injEq] at hget
  subst hget
  obtain ⟨hmem, hsame⟩ := List.mem_filter.mp hmarket
  rw [decide_eq_true_eq] at hsame
  exact ⟨hmem, by rw [hsame]⟩

/-! ### The rounds -/

/-- A round of the batch over the whole category is a round of the direct computation over the other
markets of it. -/
lemma batchedSignal_eq (hother : other ∈ markets) :
    batchedSignal corrcoef (loadHistories historyStore markets) market ourPrices other =
      if other.conditionId ≠ market.conditionId then
        crossSignal corrcoef historyStore ourPrices other
      else none := by
  rw [batchedSignal, crossSignal, get?_loadHistories_of_mem hother]
  by_cases hsame : other.conditionId = market.conditionId
  · rw [if_pos hsame, if_neg (not_not.mpr hsame)]
  · rw [if_neg hsame, if_pos hsame]
    cases historyStore other.conditionId with
    | none => rfl
    | some otherPrices =>
      by_cases hempty : otherPrices = []
      · subst hempty
        rfl
      · simp [Option.filter, hempty]

lemma filterMap_batchedSignal :
    (markets.filter (·.category = market.category)).filterMap
        (batchedSignal corrcoef (loadHistories historyStore markets) market ourPrices) =
      (markets.filter fun other => other.category = market.category ∧
        other.conditionId ≠ market.conditionId).filterMap
          (crossSignal corrcoef historyStore ourPrices) := by
  rw [List.filterMap_filter, List.filterMap_filter]
  refine List.filterMap_congr fun other hother => ?_
  rw [batchedSignal_eq hother]
  by_cases hcategory : other.category = market.category
  · simp [hcategory]
  · simp [hcategory]

/-- The signals of a market from the batch. -/
lemma batchedSignals_eq (hmarket : market ∈ markets) :
    batchedSignals corrcoef (loadHistories historyStore markets)
        (markets.filter (·.category = market.category)) market =
      getCrossMarketSignals corrcoef historyStore markets market := by
  rw [batchedSignals, getCrossMarketSignals, get?_loadHistories_of_mem hmarket]
  cases historyStore market.conditionId with
  | none => rfl
  | some ourPrices =>
    by_cases hempty : ourPrices = []
    · subst hempty
      rfl
    · simp only [Option.filter, hempty, ne_eq, not_false_eq_true, decide_true, if_true, if_false]
      rw [filterMap_batchedSignal]

/-- The two nested loops set one entry after the other. -/
lemma precomputeCrossSignals_foldl (corrcoef : List ℚ → List ℚ → Corrcoef)
    (historyStore : HistoryStore) (markets : List ScannedMarket) :
    precomputeCrossSignals corrcoef historyStore markets =
      ((byCategory markets).values.flatMap fun catMarkets =>
        catMarkets.map fun market => (catMarkets, market)).foldl
        (fun result entry => result.set entry.2.conditionId
          (batchedSignals corrcoef (loadHistories historyStore markets) entry.1 entry.2)) .empty := by
  rw [precomputeCrossSignals, List.foldl_flatMap]
  simp only [List.foldl_map]

/-- For markets with distinct ids, whatever histories are missing or short and whatever correlations
fail: the batch has for every market what it would be told directly. -/
theorem precomputeCrossSignals_eq (corrcoef : List ℚ → List ℚ → Corrcoef)
    (historyStore : HistoryStore) (hids : (markets.map (·.conditionId)).Nodup)
    (hmarket : market ∈ markets) :
    (precomputeCrossSignals corrcoef historyStore markets).get? market.conditionId =
      some (getCrossMarketSignals corrcoef historyStore markets market) := by
  have hcategory : markets.filter (·.category = market.category) ∈ (byCategory markets).values :=
    (Dict.mem_values_iff _ _).mpr ⟨_, get?_byCategory hmarket⟩
  have hentry : (markets.filter (·.category = market.category), market) ∈
      (byCategory markets).values.flatMap fun catMarkets =>
        catMarkets.map fun market => (catMarkets, market) := by
    refine List.mem_flatMap.mpr ⟨_, hcategory, List.mem_map.mpr ⟨market, ?_, rfl⟩⟩
    exact List.mem_filter.mpr ⟨hmarket, by simp⟩
  rw [precomputeCrossSignals_foldl]
  refine Dict.get?_foldl_set hentry ?_
  rintro ⟨catMarkets, other⟩ hother hsame
  obtain ⟨catMarkets', hcategory', hentry'⟩ := List.mem_flatMap.mp hother
  obtain ⟨other', hother', heq⟩ := List.mem_map.mp hentry'
  obtain ⟨rfl, rfl⟩ := Prod.mk.inj heq
  obtain ⟨hmem, hmarkets⟩ := mem_values_byCategory hcategory' hother'
  obtain rfl := List.inj_on_of_nodup_map hids hmem hmarket hsame
  dsimp only
  rw [hmarkets, batchedSignals_eq hmem]

/-- Two markets of a category. -/
def twoMarkets : List ScannedMarket := [⟨"left", "sports"⟩, ⟨"right", "sports"⟩]

/-- The prices of five hours. -/
def risingPrices : HistoryStore := fun _ => some [1, 2, 3, 4, 5]

theorem precomputeCrossSignals_eq_twoMarkets :
    (precomputeCrossSignals (fun _ _ => .value 1) risingPrices twoMarkets).get? "left" =
      some [⟨"right", 4, 1⟩] := by
  have hleft : (⟨"left", "sports"⟩ : ScannedMarket) ∈ twoMarkets := by decide
  refine (precomputeCrossSignals_eq (fun _ _ => .value 1) risingPrices (by decide) hleft).trans ?_
  decide +kernel

end PolyCortex.EdgeDetector
