import PolyCortex.Backtest.Simulator

/-!
# Looking ahead

The markets are simulated one after the other in the order in which they resolve, although their test
portions overlap in time. Whatever a market has won or lost is there when the next one is sized, also at
rows from before the resolution. A resolution changes nothing of its past when no bet is sized that way
(`noLookAhead_of_apart`), and it does change it otherwise (`heads_tails_lookAhead`).
-/

namespace PolyCortex.Backtest

variable {M : Type} {cfg : Config} {out : Outside M} {s s' : State M} {market m A : Market}
  {before after : List Market} {date : Time} {resolution : ℚ}

/-! ### The property -/

/-- What is settled of a trade when it is taken. -/
structure Terms where
  marketId : MarketId
  timestamp : Time
  direction : Direction
  size : ℚ
  entryPrice : ℚ
  deriving DecidableEq, Repr

def Position.terms (position : Position) : Terms where
  marketId := position.marketId
  timestamp := position.timestamp
  direction := position.direction
  size := position.size
  entryPrice := position.entryPrice

/-- The trades that are stamped before a date, as they were taken. -/
def State.takenBefore (date : Time) (s : State M) : List Terms :=
  (s.allTrades.filter (·.timestamp < date)).map (·.toPosition.terms)

/-- The market with another resolution. -/
def Market.resolvedTo (resolution : ℚ) (market : Market) : Market := { market with resolution }

/-- The resolution of the market `A` does not matter for the trades before it. -/
def NoLookAhead (cfg : Config) (out : Outside M) (before : List Market) (A : Market)
    (after : List Market) : Prop :=
  ∀ resolution,
    (run cfg out (before ++ A.resolvedTo resolution :: after)).takenBefore A.resolutionDate =
      (run cfg out (before ++ A :: after)).takenBefore A.resolutionDate

/-- A position can be opened at the row: the edge is large enough, and the sizer gives it a size for
some bankroll. -/
def OffersBet (cfg : Config) (out : Outside M) (market : Market) (row : PriceRow) : Prop :=
  ∃ regime estimate bankroll positions multiplier, 0 < multiplier ∧
    edgeAt cfg out market row regime = some estimate ∧ cfg.minEdge ≤ estimate.edge ∧
      0 < (cfg.sizer.updateBankroll bankroll).calculatePosition (edgeDict market estimate regime)
        positions multiplier

/-- No bet of the market is stamped before the date. -/
def NoBetBefore (cfg : Config) (out : Outside M) (date : Time) (market : Market) : Prop :=
  ∀ row ∈ testRows market, OffersBet cfg out market row → date ≤ row.timestamp

/-! ### Walking along a market -/

/-- The sizer has the configured limits. -/
def State.Configured (cfg : Config) (s : State M) : Prop :=
  ∃ bankroll, s.sizer = cfg.sizer.updateBankroll bankroll

/-- A position is stamped with its row, and the row offers a bet. -/
lemma openPosition_spec (hs : s.Configured cfg) {row : PriceRow} {regime : Regime}
    {positions : List Position} {position : Position}
    (h : openPosition cfg out s market row regime positions = some position) :
    position.timestamp = row.timestamp ∧ OffersBet cfg out market row := by
  obtain ⟨bankroll, hsizer⟩ := hs
  rw [openPosition] at h
  cases hedge : edgeAt cfg out market row regime with
  | none =>
    rw [hedge] at h
    cases h
  | some estimate =>
    rw [hedge] at h
    dsimp only at h
    split_ifs at h with hmin hmultiplier hsize
    obtain rfl := Option.some.inj h
    rw [hsizer] at hsize
    exact ⟨rfl, regime, estimate, bankroll, _, _, not_le.mp hmultiplier, hedge, not_lt.mp hmin,
      not_le.mp hsize⟩

/-- What is opened along the rows offers a bet at its time. -/
lemma walk_spec (hs : s.Configured cfg) {history rows : List PriceRow} {detector : RegimeDetector M}
    {positions : List Position} {position : Position}
    (h : position ∈ (walk cfg out s market history rows detector positions).1) :
    position ∈ positions ∨
      ∃ row ∈ rows, position.timestamp = row.timestamp ∧ OffersBet cfg out market row := by
  induction rows generalizing history detector positions with
  | nil => exact Or.inl h
  | cons row rows ih =>
    rw [walk] at h
    rcases ih h with hmem | ⟨row', hrow', hspec⟩
    · rcases List.mem_append.mp hmem with hold | hnew
      · exact Or.inl hold
      · exact Or.inr ⟨row, List.mem_cons_self, openPosition_spec hs (Option.mem_toList.mp hnew)⟩
    · exact Or.inr ⟨row', List.mem_cons_of_mem _ hrow', hspec⟩

/-- The detector sees the rows only. -/
lemma walk_detector (s s' : State M) {history rows : List PriceRow} {detector : RegimeDetector M}
    {positions positions' : List Position} :
    (walk cfg out s' market history rows detector positions').2 =
      (walk cfg out s market history rows detector positions).2 := by
  induction rows generalizing history detector positions positions' with
  | nil => rfl
  | cons row rows ih => exact ih

/-- Nothing is opened by the resolution. -/
lemma walk_resolvedTo {history rows : List PriceRow} {detector : RegimeDetector M}
    {positions : List Position} :
    walk cfg out s (market.resolvedTo resolution) history rows detector positions =
      walk cfg out s market history rows detector positions := by
  induction rows generalizing history detector positions with
  | nil => rfl
  | cons row rows ih => exact ih

/-! ### One market -/

/-- The positions that are opened in a market. -/
def opened (cfg : Config) (out : Outside M) (s : State M) (market : Market) : List Position :=
  (walk cfg out s market (trainRows market) (testRows market) (train out market s.regimeDetector) []).1

lemma opened_spec (hs : s.Configured cfg) {position : Position}
    (h : position ∈ opened cfg out s market) :
    ∃ row ∈ testRows market, position.timestamp = row.timestamp ∧ OffersBet cfg out market row :=
  (walk_spec hs h).resolve_left List.not_mem_nil

lemma opened_resolvedTo :
    opened cfg out s (market.resolvedTo resolution) = opened cfg out s market :=
  congrArg Prod.fst walk_resolvedTo

/-- The state in which the positions are resolved. -/
def walked (cfg : Config) (out : Outside M) (s : State M) (market : Market) : State M :=
  if testRows market = [] then s
  else
    { s with
      regimeDetector := (walk cfg out s market (trainRows market) (testRows market)
        (train out market s.regimeDetector) []).2 }

lemma walked_resolvedTo :
    walked cfg out s (market.resolvedTo resolution) = walked cfg out s market := by
  rw [walked, walk_resolvedTo]
  rfl

lemma walked_allTrades : (walked cfg out s market).allTrades = s.allTrades := by
  rw [walked]
  split_ifs <;> rfl

lemma walked_sizer : (walked cfg out s market).sizer = s.sizer := by
  rw [walked]
  split_ifs <;> rfl

/-- The detector does not depend on what is won or lost. -/
lemma walked_detector (h : s'.regimeDetector = s.regimeDetector) :
    (walked cfg out s' market).regimeDetector = (walked cfg out s market).regimeDetector := by
  rw [walked, walked]
  split_ifs
  · exact h
  · rw [h]
    exact walk_detector s s'

/-- A market is walked along, then its positions are resolved. -/
lemma simulateMarket_eq (cfg : Config) (out : Outside M) (s : State M) (market : Market) :
    simulateMarket cfg out s market =
      (opened cfg out s market).foldl (resolvePosition market) (walked cfg out s market) := by
  rw [simulateMarket, opened, walked]
  split_ifs with hrows
  · rw [hrows]
    rfl
  · rfl

/-- What the resolution of some positions does. -/
lemma resolveAll (market : Market) (positions : List Position) (s : State M) :
    (positions.foldl (resolvePosition market) s).allTrades =
        s.allTrades ++ positions.map (·.resolve market.resolution) ∧
      (positions.foldl (resolvePosition market) s).regimeDetector = s.regimeDetector ∧
      ∃ bankroll, (positions.foldl (resolvePosition market) s).sizer =
        s.sizer.updateBankroll bankroll := by
  induction positions generalizing s with
  | nil => exact ⟨(List.append_nil _).symm, rfl, s.sizer.bankroll, rfl⟩
  | cons position positions ih =>
    obtain ⟨htrades, hdetector, bankroll, hsizer⟩ := ih (resolvePosition market s position)
    refine ⟨?_, hdetector, bankroll, hsizer⟩
    rw [List.foldl_cons, htrades, resolvePosition]
    simp

lemma simulateMarket_allTrades (cfg : Config) (out : Outside M) (s : State M) (market : Market) :
    (simulateMarket cfg out s market).allTrades =
      s.allTrades ++ (opened cfg out s market).map (·.resolve market.resolution) := by
  rw [simulateMarket_eq, (resolveAll market _ _).1, walked_allTrades]

lemma simulateMarket_detector (cfg : Config) (out : Outside M) (s : State M) (market : Market) :
    (simulateMarket cfg out s market).regimeDetector = (walked cfg out s market).regimeDetector := by
  rw [simulateMarket_eq, (resolveAll market _ _).2.1]

lemma simulateMarket_configured (hs : s.Configured cfg) :
    (simulateMarket cfg out s market).Configured cfg := by
  obtain ⟨bankroll, hsizer⟩ := hs
  obtain ⟨-, -, bankroll', hsizer'⟩ :=
    resolveAll market (opened cfg out s market) (walked cfg out s market)
  refine ⟨bankroll', ?_⟩
  rw [simulateMarket_eq, hsizer', walked_sizer, hsizer]
  rfl

/-! ### The order of the markets -/

section Sorting

variable {α κ : Type} [LinearOrder κ] {key : α → κ}

/-- From the first element on that is large enough, a sorted list is. -/
lemma le_of_mem_dropWhile {k : κ} {xs : List α} (hsorted : xs.Pairwise fun x y => key x ≤ key y) {x : α}
    (hx : x ∈ xs.dropWhile fun y => ¬ k ≤ key y) : k ≤ key x := by
  induction xs with
  | nil => cases hx
  | cons y ys ih =>
    obtain ⟨hfirst, hrest⟩ := List.pairwise_cons.mp hsorted
    rw [List.dropWhile_cons] at hx
    split_ifs at hx with hy
    · exact ih hrest hx
    · replace hy : k ≤ key y := by simpa using hy
      rcases List.mem_cons.mp hx with rfl | hmem
      · exact hy
      · exact hy.trans (hfirst x hmem)

/-- Where an element is inserted depends on the keys. -/
lemma orderedInsert_middle (key : α → κ) (k : κ) (x : α) (pre post : List α) : ∃ pre' post',
    (∀ b, key b = k → (pre ++ b :: post).orderedInsert (fun x y => key x ≤ key y) x =
      pre' ++ b :: post') ∧
    ∀ y ∈ post', y ∈ post ∨ y = x ∧ k < key x := by
  induction pre with
  | nil =>
    by_cases hle : key x ≤ k
    · refine ⟨[x], post, fun b hb => ?_, fun y hy => Or.inl hy⟩
      simp [hb, hle]
    · refine ⟨[], post.orderedInsert (fun x y => key x ≤ key y) x, fun b hb => ?_, fun y hy => ?_⟩
      · simp [hb, hle]
      · rcases (List.mem_orderedInsert _).mp hy with rfl | hmem
        · exact Or.inr ⟨rfl, not_le.mp hle⟩
        · exact Or.inl hmem
  | cons z pre ih =>
    by_cases hle : key x ≤ key z
    · refine ⟨x :: z :: pre, post, fun b hb => ?_, fun y hy => Or.inl hy⟩
      simp [hle]
    · obtain ⟨pre', post', hinsert, hpost⟩ := ih
      refine ⟨z :: pre', post', fun b hb => ?_, hpost⟩
      simp [hle, hinsert b hb]

/-- Where an element comes to stand depends on the keys; what comes after it has a key that is larger, or
as large and a later place. -/
lemma insertionSort_middle (key : α → κ) (k : κ) (before after : List α) : ∃ pre post,
    (∀ b, key b = k → (before ++ b :: after).insertionSort (fun x y => key x ≤ key y) =
      pre ++ b :: post) ∧
    ∀ y ∈ post, y ∈ before ∧ k < key y ∨ y ∈ after ∧ k ≤ key y := by
  induction before with
  | nil =>
    let sorted := after.insertionSort fun x y => key x ≤ key y
    have hsorted : sorted.Pairwise fun x y => key x ≤ key y :=
      @List.pairwise_insertionSort _ _ _ ⟨fun x y => le_total (key x) (key y)⟩
        ⟨fun _ _ _ h h' => le_trans h h'⟩ after
    refine ⟨sorted.takeWhile fun y => ¬ k ≤ key y, sorted.dropWhile fun y => ¬ k ≤ key y, ?_, ?_⟩
    · rintro b rfl
      exact List.insertionSort_cons_eq_take_drop _ b after
    · intro y hy
      have hmem : y ∈ sorted := (List.dropWhile_sublist _).subset hy
      exact Or.inr ⟨(List.mem_insertionSort _).mp hmem, le_of_mem_dropWhile hsorted hy⟩
  | cons x before ih =>
    obtain ⟨pre, post, hsort, hpost⟩ := ih
    obtain ⟨pre', post', hinsert, hpost'⟩ := orderedInsert_middle key k x pre post
    refine ⟨pre', post', fun b hb => ?_, fun y hy => ?_⟩
    · rw [List.cons_append, List.insertionSort_cons, hsort b hb, hinsert b hb]
    · rcases hpost' y hy with hold | ⟨rfl, hlt⟩
      · rcases hpost y hold with ⟨hmem, hlt⟩ | hafter
        · exact Or.inl ⟨List.mem_cons_of_mem _ hmem, hlt⟩
        · exact Or.inr hafter
      · exact Or.inl ⟨List.mem_cons_self, hlt⟩

end Sorting

/-- The market is simulated after `A`: it resolves later, or at the same time with a later place. -/
def SimulatedAfter (before : List Market) (A : Market) (after : List Market) (m : Market) : Prop :=
  m ∈ before ∧ A.resolutionDate < m.resolutionDate ∨ m ∈ after ∧ A.resolutionDate ≤ m.resolutionDate

/-- The resolution does not matter for the order. -/
lemma sortedMarkets_middle (before : List Market) (A : Market) (after : List Market) :
    ∃ pre post, (∀ resolution, sortedMarkets (before ++ A.resolvedTo resolution :: after) =
      pre ++ A.resolvedTo resolution :: post) ∧ ∀ m ∈ post, SimulatedAfter before A after m := by
  obtain ⟨pre, post, hsort, hpost⟩ :=
    insertionSort_middle Market.resolutionDate A.resolutionDate before after
  exact ⟨pre, post, fun resolution => hsort _ rfl, hpost⟩

/-! ### Two runs -/

/-- Two runs have taken the same trades before a date, and will see the same regimes. -/
structure SamePast (cfg : Config) (date : Time) (s s' : State M) : Prop where
  taken : s'.takenBefore date = s.takenBefore date
  detector : s'.regimeDetector = s.regimeDetector
  configured : s.Configured cfg
  configured' : s'.Configured cfg

lemma takenBefore_simulateMarket (cfg : Config) (out : Outside M) (s : State M) (market : Market)
    (date : Time) :
    (simulateMarket cfg out s market).takenBefore date = s.takenBefore date ++
      ((opened cfg out s market).filter (·.timestamp < date)).map (·.terms) := by
  rw [State.takenBefore, simulateMarket_allTrades, List.filter_append, List.map_append,
    List.filter_map, List.map_map]
  rfl

/-- A market without a bet before the date takes no trade before it. -/
lemma takenBefore_of_noBetBefore (hs : s.Configured cfg) (hmarket : NoBetBefore cfg out date market) :
    (simulateMarket cfg out s market).takenBefore date = s.takenBefore date := by
  rw [takenBefore_simulateMarket, List.filter_eq_nil_iff.mpr, List.map_nil, List.append_nil]
  intro position hposition
  obtain ⟨row, hrow, htimestamp, hbet⟩ := opened_spec hs hposition
  simpa [htimestamp] using hmarket row hrow hbet

namespace SamePast

lemma simulateMarket (h : SamePast cfg date s s') (hmarket : NoBetBefore cfg out date market) :
    SamePast cfg date (simulateMarket cfg out s market) (simulateMarket cfg out s' market) where
  taken := by
    rw [takenBefore_of_noBetBefore h.configured hmarket,
      takenBefore_of_noBetBefore h.configured' hmarket, h.taken]
  detector := by
    rw [simulateMarket_detector, simulateMarket_detector, walked_detector h.detector]
  configured := simulateMarket_configured h.configured
  configured' := simulateMarket_configured h.configured'

lemma foldl (h : SamePast cfg date s s') {markets : List Market}
    (hmarkets : ∀ m ∈ markets, NoBetBefore cfg out date m) :
    SamePast cfg date (markets.foldl (Backtest.simulateMarket cfg out) s)
      (markets.foldl (Backtest.simulateMarket cfg out) s') := by
  induction markets generalizing s s' with
  | nil => exact h
  | cons m markets ih =>
    exact ih (h.simulateMarket (hmarkets m List.mem_cons_self)) fun m' hm' =>
      hmarkets m' (List.mem_cons_of_mem _ hm')

/-- A market takes its own trades whatever its resolution. -/
lemma of_resolvedTo (hs : s.Configured cfg) (out : Outside M) (market : Market) (resolution : ℚ)
    (date : Time) : SamePast cfg date (Backtest.simulateMarket cfg out s market)
      (Backtest.simulateMarket cfg out s (market.resolvedTo resolution)) where
  taken := by rw [takenBefore_simulateMarket, takenBefore_simulateMarket, opened_resolvedTo]
  detector := by rw [simulateMarket_detector, simulateMarket_detector, walked_resolvedTo]
  configured := simulateMarket_configured hs
  configured' := simulateMarket_configured hs

end SamePast

lemma foldl_configured (hs : s.Configured cfg) (out : Outside M) (markets : List Market) :
    (markets.foldl (simulateMarket cfg out) s).Configured cfg := by
  induction markets generalizing s with
  | nil => exact hs
  | cons m markets ih => exact ih (simulateMarket_configured hs)

/-- A market without a bet leaves the same state whatever its resolution. -/
lemma simulateMarket_of_noBet (hs : s.Configured cfg)
    (hmarket : ∀ row ∈ testRows market, ¬ OffersBet cfg out market row) :
    simulateMarket cfg out s (market.resolvedTo resolution) = simulateMarket cfg out s market := by
  have hnone : opened cfg out s market = [] := by
    refine List.eq_nil_iff_forall_not_mem.mpr fun position hposition => ?_
    obtain ⟨row, hrow, -, hbet⟩ := opened_spec hs hposition
    exact hmarket row hrow hbet
  rw [simulateMarket_eq, simulateMarket_eq, opened_resolvedTo, hnone, walked_resolvedTo]
  rfl

lemma start_configured (cfg : Config) (out : Outside M) : (start cfg out).Configured cfg :=
  ⟨cfg.bankroll, rfl⟩

/-- If `A` offers no bet, or no market that is simulated after it offers one before its resolution date,
then its resolution changes nothing of what was traded before that date. -/
theorem noLookAhead_of_apart (cfg : Config) (out : Outside M) (before : List Market) (A : Market)
    (after : List Market)
    (h : (∀ row ∈ testRows A, ¬ OffersBet cfg out A row) ∨
      ∀ m, SimulatedAfter before A after m → NoBetBefore cfg out A.resolutionDate m) :
    NoLookAhead cfg out before A after := by
  intro resolution
  obtain ⟨pre, post, hsort, hpost⟩ := sortedMarkets_middle before A after
  have hpre : (pre.foldl (simulateMarket cfg out) (start cfg out)).Configured cfg :=
    foldl_configured (start_configured cfg out) out pre
  have hsort' : sortedMarkets (before ++ A :: after) = pre ++ A :: post := hsort A.resolution
  rw [run, run, hsort, hsort', List.foldl_append, List.foldl_append, List.foldl_cons, List.foldl_cons]
  rcases h with hnone | hlater
  · rw [simulateMarket_of_noBet hpre hnone]
  · have hA := SamePast.of_resolvedTo hpre out A resolution A.resolutionDate
    exact (hA.foldl fun m hm => hlater m (hpost m hm)).taken

/-! ### Two coins -/

/-- Histories that are too short for the model to be fitted, without volume. -/
def quiet : Outside Unit where
  hmm :=
    { unfitted := ()
      fit := fun _ _ => ((), false)
      volatilityMeans := fun _ => []
      predict := fun _ _ => none
      std := fun _ => 0 }
  log1p volume := if volume = 0 then some 0 else none
  today := 0

/-- An even coin that everybody bids for, at 64 times from `first` on. -/
def coin (conditionId : MarketId) (first resolutionDate : Time) : Market where
  conditionId
  category := "coin"
  resolution := 1
  priceHistory := (List.range 64).map fun n =>
    { timestamp := first + n, midpoint := 1 / 2, spread := 0, bidDepth := 100, askDepth := 0, volume := 0 }
  resolutionDate

def heads : Market := coin "heads" 0 1000

/-- Tails that are tossed after heads are resolved. -/
theorem noLookAhead_of_apart_coins :
    NoLookAhead { bankroll := 1000 } quiet [] heads [coin "tails" 1000 2000] := by
  refine noLookAhead_of_apart _ quiet [] heads _ (Or.inr fun m hm row hrow _ => ?_)
  obtain rfl : m = coin "tails" 1000 2000 := by
    rcases hm with ⟨hmem, -⟩ | ⟨hmem, -⟩
    · cases hmem
    · exact List.mem_singleton.mp hmem
  exact (by decide : ∀ row ∈ testRows (coin "tails" 1000 2000), heads.resolutionDate ≤ row.timestamp)
    row hrow

/-- Tails that are tossed before: whether heads win is known when they are sized. -/
theorem heads_tails_lookAhead :
    ¬ NoLookAhead { bankroll := 1000 } quiet [] heads [coin "tails" 0 2000] := by
  intro h
  exact absurd (h 0) (by decide +kernel)

end PolyCortex.Backtest
