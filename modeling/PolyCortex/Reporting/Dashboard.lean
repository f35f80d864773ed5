import PolyCortex.Data.ListRuns
import PolyCortex.Data.Series
import PolyCortex.Machine.History
import PolyCortex.Numeric.Rounding
import PolyCortex.Tracking.Metrics
import PolyCortex.Tracking.Records

/-!
# The dashboard

The dashboard and the export read the table of the trades on their own, next to `get_metrics`. They take
every PnL that is in the table, also that of an open position that was marked, while `get_metrics` takes
those of the closed rows. After any operations the figures differ by the marks of the open positions and
by nothing else (`reports_agree`).
-/

namespace PolyCortex

open Machine Rounding Series

/-! ### The reports -/

/-- What `load_portfolio_stats` returns. -/
structure PortfolioStats where
  totalPnl : ℚ
  winRate : ℚ
  openPositions : ℕ
  currentDrawdown : ℚ
  deriving DecidableEq, Repr

/-- `SELECT pnl FROM trades WHERE pnl IS NOT NULL ORDER BY id ASC`. -/
def recordedPnls (rows : List MetricsRow) : List ℚ := rows.filterMap (·.pnl)

/-- The cumulative PnL and its peak, after one more trade. -/
def drawdownStep (p : ℚ × ℚ) (pnl : ℚ) : ℚ × ℚ :=
  let cumulative := p.1 + pnl
  (cumulative, if p.2 < cumulative then cumulative else p.2)

/-- `load_portfolio_stats`. -/
def loadPortfolioStats (rows : List MetricsRow) : PortfolioStats :=
  let totalPnl := (recordedPnls rows).sum
  let closed := rows.countP fun row => row.isClosed ∧ row.pnl.isSome
  let wins := rows.countP fun row => row.isClosed ∧ row.pnl.any (0 < ·)
  let winRate : ℚ := if 0 < closed then wins / closed else 0
  let (cumulative, peak) := (recordedPnls rows).foldl drawdownStep (0, 0)
  let currentDrawdown := if 0 < peak then (peak - cumulative) / max peak (1 / 10 ^ 8) else 0
  { totalPnl := roundTo 4 totalPnl
    winRate := roundTo 4 winRate
    openPositions := rows.countP (·.isOpen)
    currentDrawdown := roundTo 4 (max currentDrawdown 0) }

/-- A row of the frame of `compute_pnl_curve`, with the columns that are computed. -/
structure PnlPoint where
  pnl : ℚ
  cumulativePnl : ℚ
  tradeNumber : ℕ
  runningWinRate : ℚ
  maxCumulativePnl : ℚ
  drawdown : ℚ
  deriving DecidableEq, Repr

def largest (values : List ℚ) : ℚ := values.foldl max (values.headD 0)

def shareOfWins (pnls : List ℚ) : ℚ := (pnls.countP (0 < ·) : ℚ) / pnls.length

/-- The row of the frame with the number `i`. -/
def pnlPoint (pnls : List ℚ) (i : ℕ) : PnlPoint :=
  let cumulative := expanding List.sum pnls
  let maxCumulative := expanding largest cumulative
  { pnl := pnls.getD i 0
    cumulativePnl := cumulative.getD i 0
    tradeNumber := i + 1
    runningWinRate := (expanding shareOfWins pnls).getD i 0
    maxCumulativePnl := maxCumulative.getD i 0
    drawdown := maxCumulative.getD i 0 - cumulative.getD i 0 }

/-- `compute_pnl_curve`. -/
def computePnlCurve (rows : List MetricsRow) : List PnlPoint :=
  (List.range (recordedPnls rows).length).map (pnlPoint (recordedPnls rows))

/-- The drawdown at the end of a curve, as a share of the peak. -/
def endDrawdown (curve : List PnlPoint) : ℚ :=
  match curve.getLast? with
  | some point =>
    if 0 < point.maxCumulativePnl then point.drawdown / max point.maxCumulativePnl (1 / 10 ^ 8) else 0
  | none => 0

/-! ### Sums -/

section Peaks

variable {values : List ℚ} {a b : ℚ}

lemma foldl_max_eq (values : List ℚ) (a b : ℚ) :
    values.foldl max (max a b) = max a (values.foldl max b) := by
  induction values generalizing b with
  | nil => rfl
  | cons value values ih => rw [List.foldl_cons, List.foldl_cons, max_assoc, ih]

lemma foldl_max_largest (hne : values ≠ []) : values.foldl max 0 = max 0 (largest values) := by
  cases values with
  | nil => exact absurd rfl hne
  | cons value values =>
    rw [largest, List.headD_cons, List.foldl_cons, List.foldl_cons, max_self, foldl_max_eq]

lemma expanding_concat {α β : Type} (g : List α → β) (xs : List α) (x : α) :
    expanding g (xs ++ [x]) = expanding g xs ++ [g (xs ++ [x])] := by
  rw [expanding, List.length_append, List.length_singleton, List.range_succ, List.map_append, expanding]
  congr 1
  · refine List.map_congr_left fun i hi => ?_
    rw [List.take_append_of_le_length (List.mem_range.mp hi)]
  · rw [List.map_singleton, List.take_of_length_le (by simp)]

/-- The loop keeps the sum and the peak of the sums so far. -/
lemma foldl_drawdownStep (pnls : List ℚ) :
    pnls.foldl drawdownStep (0, 0) = (pnls.sum, (expanding List.sum pnls).foldl max 0) := by
  induction pnls using List.reverseRecOn with
  | nil => rfl
  | append_singleton pnls pnl ih =>
    rw [List.foldl_append, ih, expanding_concat, List.foldl_append, List.sum_append, List.sum_singleton]
    simp only [List.foldl_cons, List.foldl_nil, drawdownStep, Prod.mk.injEq, true_and]
    rw [max_def]
    split_ifs <;> linarith

lemma sum_le_peak (pnls : List ℚ) : pnls.sum ≤ (expanding List.sum pnls).foldl max 0 := by
  induction pnls using List.reverseRecOn with
  | nil => exact le_rfl
  | append_singleton pnls pnl _ =>
    rw [expanding_concat, List.foldl_append]
    exact le_max_right _ _

end Peaks

/-! ### The curve -/

section Curve

variable {rows : List MetricsRow}

/-- The last row of the frame has the figures of all trades. -/
lemma getLast?_computePnlCurve (hne : recordedPnls rows ≠ []) :
    ∃ point, (computePnlCurve rows).getLast? = some point ∧
      point.cumulativePnl = (recordedPnls rows).sum ∧ point.runningWinRate = shareOfWins (recordedPnls rows) ∧
      point.maxCumulativePnl = largest (expanding List.sum (recordedPnls rows)) ∧
      point.drawdown = point.maxCumulativePnl - point.cumulativePnl := by
  obtain ⟨n, hn⟩ := Nat.exists_eq_add_one.mpr (List.length_pos_of_ne_nil hne)
  have hlast : ∀ {β : Type} (g : List ℚ → β) (pnls : List ℚ) (b : β), pnls.length = n + 1 →
      (expanding g pnls).getD n b = g pnls := by
    intro β g pnls b hlength
    rw [List.getD_eq_getElem?_getD, getElem?_expanding g (by omega), List.take_of_length_le hlength.le]
    rfl
  refine ⟨pnlPoint (recordedPnls rows) n, ?_, hlast _ _ _ hn, hlast _ _ _ hn, ?_, rfl⟩
  · rw [computePnlCurve, hn, List.range_succ, List.map_append, List.map_singleton, List.getLast?_concat]
  · exact hlast _ _ _ ((length_expanding _ _).trans hn)

/-- The drawdown of the dashboard is that of the end of the curve, as a share of the peak, as long as the
peak is positive. -/
lemma currentDrawdown_eq (rows : List MetricsRow) :
    (loadPortfolioStats rows).currentDrawdown = roundTo 4 (endDrawdown (computePnlCurve rows)) := by
  rw [loadPortfolioStats, foldl_drawdownStep, endDrawdown]
  dsimp only
  congr 1
  by_cases hne : recordedPnls rows = []
  · simp [computePnlCurve, hne, expanding]
  · obtain ⟨point, hpoint, hcumulative, -, hmax, hdrawdown⟩ := getLast?_computePnlCurve hne
    have hcurve : expanding List.sum (recordedPnls rows) ≠ [] := by
      rw [← List.length_pos_iff, length_expanding]
      exact List.length_pos_of_ne_nil hne
    rw [hpoint, foldl_max_largest hcurve, ← hmax, ← hcumulative]
    dsimp only
    by_cases hpos : 0 < point.maxCumulativePnl
    · have hle := sum_le_peak (recordedPnls rows)
      rw [foldl_max_largest hcurve, ← hmax, max_eq_right hpos.le, ← hcumulative] at hle
      have hnonneg : 0 ≤ point.drawdown / max point.maxCumulativePnl (1 / 10 ^ 8) := by
        rw [hdrawdown]
        exact div_nonneg (sub_nonneg.mpr hle) (hpos.le.trans (le_max_left _ _))
      rw [max_eq_right hpos.le, if_pos hpos, if_pos hpos, ← hdrawdown, max_eq_left hnonneg]
    · rw [if_neg hpos, max_eq_left (not_lt.mp hpos), if_neg (lt_irrefl _), max_self]

end Curve

/-! ### The ledger -/

def TradeStatus.text : TradeStatus → String
  | .opened => "open"
  | .closed => "closed"
  | .resolved => "resolved"

/-- The row has the status and the PnL of the trade. -/
structure Trade.StoredAs (trade : Trade) (row : MetricsRow) : Prop where
  status : row.status = some trade.status.text
  pnl : row.pnl = trade.pnl

/-- A call of an operation that changes the ledger. -/
inductive LedgerCall where
  | insertTrade (edge : EdgeResult) (size : ℚ) (order : Order) (now : Time)
  | recordFee (tradeId : TradeId) (feeUsdc gasCostUsdc : ℚ)
  | perform (op : TrackerOp)

namespace LedgerCall

def run (t : Tracker) : LedgerCall → Tracker
  | .insertTrade edge size order now => t.insertTrade edge size order now
  | .recordFee tradeId feeUsdc gasCostUsdc => t.recordFee tradeId feeUsdc gasCostUsdc
  | .perform op => t.perform op

/-- The call writes only what `P` allows. -/
def Keeps (P : TradeStatus → Option ℚ → Prop) : LedgerCall → Prop
  | .insertTrade .. => P .opened none
  | .recordFee .. | .perform (.syncEntryOrder ..) | .perform (.syncBracketState _) => True
  | .perform (.closePosition _ _ status _ _) | .perform (.closeTradeForOrder _ _ _ status _) =>
    ∀ pnl, P status (some pnl)
  | .perform (.updatePosition ..) => ∀ status pnl pnl', P status pnl → P status (some pnl')

/-- Nothing is marked, and what is closed is not open any more. -/
def Unmarked : LedgerCall → Prop
  | .insertTrade .. | .recordFee .. | .perform (.syncEntryOrder ..) | .perform (.syncBracketState _) => True
  | .perform (.closePosition _ _ status _ _) | .perform (.closeTradeForOrder _ _ _ status _) =>
    status ≠ .opened
  | .perform (.updatePosition ..) => False

end LedgerCall

/-- The ledger after some calls. -/
def ledgerAfter (calls : List LedgerCall) : Tracker := Machine.run LedgerCall.run {} calls

section Ledger

variable {P : TradeStatus → Option ℚ → Prop} {t : Tracker} {calls : List LedgerCall} {call : LedgerCall}

/-- All rows are as `P` allows. -/
def Tracker.All (P : TradeStatus → Option ℚ → Prop) (t : Tracker) : Prop :=
  ∀ trade ∈ t.trades, P trade.status trade.pnl

lemma Tracker.All.modifyTrade (h : t.All P) {f : Trade → Trade}
    (hf : ∀ trade : Trade, P trade.status trade.pnl → P (f trade).status (f trade).pnl) (k : TradeId) :
    (t.modifyTrade k f).All P :=
  List.forall_mem_modify h fun trade hget => hf trade (h trade (List.mem_of_getElem? hget))

lemma Tracker.All.modifyTrade_of_outcome (h : t.All P) {f : Trade → Trade}
    (hf : ∀ trade : Trade, trade.SameOutcome (f trade)) (k : TradeId) : (t.modifyTrade k f).All P := by
  refine h.modifyTrade (fun trade htrade => ?_) k
  rw [(hf trade).status, (hf trade).pnl]
  exact htrade

lemma Tracker.All.syncBracketState (h : t.All P) (order : Order) : (t.syncBracketState order).All P := by
  rw [Tracker.syncBracketState]
  split
  · intro trade htrade
    obtain ⟨old, hold, rfl⟩ := List.mem_map.mp htrade
    split_ifs
    · exact h old hold
    · exact h old hold
  · exact h

lemma Tracker.All.closePosition (h : t.All P) {status : TradeStatus} (hclose : ∀ pnl, P status (some pnl))
    (k : TradeId) (exitPrice : ℚ) (exitReason : String) (closedAt : Time) :
    (t.closePosition k exitPrice status exitReason closedAt).2.All P := by
  rw [Tracker.closePosition]
  split
  · exact h.modifyTrade (fun _ _ => hclose _) k
  · exact h

lemma Tracker.All.run (h : t.All P) (hcall : call.Keeps P) : (LedgerCall.run t call).All P := by
  cases call with
  | insertTrade edge size order now =>
    intro trade htrade
    rcases List.mem_append.mp htrade with hold | hnew
    · exact h trade hold
    · rw [List.mem_singleton.mp hnew]
      exact hcall
  | recordFee tradeId feeUsdc gasCostUsdc => exact h.modifyTrade_of_outcome (Trade.chargeFee_outcome _ _) _
  | perform op =>
    cases op with
    | closePosition tradeId exitPrice status exitReason closedAt =>
      exact h.closePosition hcall tradeId exitPrice exitReason closedAt
    | closeTradeForOrder order exitPrice exitReason status now =>
      simp only [LedgerCall.run, Tracker.perform, Tracker.closeTradeForOrder]
      split
      · exact (h.syncBracketState order).closePosition hcall _ _ _ _
      · exact h
    | updatePosition tradeId currentPrice => exact h.modifyTrade (fun _ => hcall _ _ _) tradeId
    | syncEntryOrder order tradeId =>
      cases tradeId with
      | some tradeId => exact h.modifyTrade_of_outcome (Trade.syncEntry_outcome order) tradeId
      | none =>
        simp only [LedgerCall.run, Tracker.perform, Tracker.syncEntryOrder]
        split
        · exact h.modifyTrade_of_outcome (Trade.syncEntry_outcome order) _
        · exact h
    | syncBracketState order => exact h.syncBracketState order

lemma all_ledgerAfter (hcalls : ∀ call ∈ calls, call.Keeps P) : (ledgerAfter calls).All P := by
  induction calls using List.reverseRecOn with
  | nil => exact fun trade htrade => by cases htrade
  | append_singleton calls call ih =>
    rw [ledgerAfter, run_concat]
    exact (ih fun c hc => hcalls c (List.mem_append_left _ hc)).run (hcalls call (by simp))

/-- A trade that is not open has a PnL. -/
def Booked (status : TradeStatus) (pnl : Option ℚ) : Prop := status ≠ .opened → pnl.isSome = true

lemma keeps_booked (call : LedgerCall) : call.Keeps Booked := by
  cases call with
  | insertTrade => exact fun hclosed => absurd rfl hclosed
  | recordFee => trivial
  | perform op => cases op <;> simp [LedgerCall.Keeps, Booked]

/-- A trade has a PnL if and only if it is not open. -/
def BookedOnce (status : TradeStatus) (pnl : Option ℚ) : Prop := status ≠ .opened ↔ pnl.isSome = true

lemma LedgerCall.Unmarked.keeps (h : call.Unmarked) : call.Keeps BookedOnce := by
  cases call with
  | insertTrade => simp [LedgerCall.Keeps, BookedOnce]
  | recordFee => trivial
  | perform op =>
    cases op with
    | closePosition => exact fun _ => iff_of_true h rfl
    | closeTradeForOrder => exact fun _ => iff_of_true h rfl
    | updatePosition => exact absurd h id
    | syncEntryOrder => trivial
    | syncBracketState => trivial

end Ledger

/-! ### Agreement -/

/-- The PnL of the open positions that were marked. -/
def marksOf (rows : List MetricsRow) : ℚ := totalPnlOf (rows.filter (·.isOpen))

section Agreement

variable {rows : List MetricsRow}

/-- A row is closed or open, and closed rows have a PnL. -/
structure MetricsRow.Booked (row : MetricsRow) : Prop where
  isClosed : row.isClosed = !row.isOpen
  pnl : row.isClosed = true → row.pnl.isSome = true

lemma Trade.StoredAs.booked {trade : Trade} {row : MetricsRow} (h : trade.StoredAs row)
    (hbooked : PolyCortex.Booked trade.status trade.pnl) : row.Booked := by
  constructor
  · rw [MetricsRow.isClosed, MetricsRow.isOpen, h.status]
    cases trade.status <;> decide
  · intro hclosed
    rw [MetricsRow.isClosed, h.status] at hclosed
    rw [h.pnl]
    apply hbooked
    rintro hopen
    rw [hopen] at hclosed
    exact absurd hclosed (by decide)

lemma forall₂_storedAs_iff {trades : List Trade} : List.Forall₂ Trade.StoredAs trades rows ↔
    trades.map (fun trade => (some trade.status.text, trade.pnl)) =
      rows.map fun row => (row.status, row.pnl) := by
  rw [← List.forall₂_eq_eq_eq, List.forall₂_map_left_iff, List.forall₂_map_right_iff]
  constructor
  · exact List.Forall₂.imp fun trade row h => Prod.ext h.status.symm h.pnl.symm
  · refine List.Forall₂.imp fun trade row h => ?_
    obtain ⟨hstatus, hpnl⟩ := Prod.mk.inj h
    exact ⟨hstatus.symm, hpnl.symm⟩

/-- The PnLs that are recorded are those of the closed rows and the marks. -/
lemma sum_recordedPnls (hrows : ∀ row ∈ rows, row.Booked) :
    (recordedPnls rows).sum = totalPnlOf (rows.filter (·.isClosed)) + marksOf rows := by
  induction rows with
  | nil => simp [recordedPnls, totalPnlOf, marksOf]
  | cons row rows ih =>
    obtain ⟨hrow, hrest⟩ := List.forall_mem_cons.mp hrows
    have hsum : (recordedPnls (row :: rows)).sum = row.pnlOrZero + (recordedPnls rows).sum := by
      rw [recordedPnls, List.filterMap_cons, MetricsRow.pnlOrZero]
      cases row.pnl with
      | none => exact (zero_add _).symm
      | some pnl => exact List.sum_cons
    rw [hsum, ih hrest, marksOf, marksOf, totalPnlOf_filter_cons, totalPnlOf_filter_cons, hrow.isClosed]
    cases row.isOpen <;> simp <;> ring

lemma countP_closed (hrows : ∀ row ∈ rows, row.Booked) :
    rows.countP (fun row => row.isClosed ∧ row.pnl.isSome) = (rows.filter (·.isClosed)).length := by
  rw [← List.countP_eq_length_filter]
  refine List.countP_congr fun row hrow => ?_
  simpa using (hrows row hrow).pnl

lemma countP_won (rows : List MetricsRow) :
    rows.countP (fun row => row.isClosed ∧ row.pnl.any (0 < ·)) =
      (rows.filter (·.isClosed)).countP (·.won) := by
  rw [List.countP_filter]
  refine List.countP_congr fun row _ => ?_
  rw [MetricsRow.won, MetricsRow.pnlOrZero]
  cases row.pnl <;> simp [and_comm]

/-- Without marks the PnLs are those of the closed rows, in their order. -/
lemma recordedPnls_eq (hrows : ∀ row ∈ rows, row.isClosed = true ↔ row.pnl.isSome = true) :
    recordedPnls rows = (rows.filter (·.isClosed)).map (·.pnlOrZero) := by
  induction rows with
  | nil => rfl
  | cons row rows ih =>
    obtain ⟨hrow, hrest⟩ := List.forall_mem_cons.mp hrows
    rw [recordedPnls] at ih ⊢
    rw [List.filterMap_cons, ih hrest]
    cases hpnl : row.pnl with
    | none =>
      rw [List.filter_cons_of_neg (by simp [hrow, hpnl])]
    | some pnl =>
      rw [List.filter_cons_of_pos (by simp [hrow, hpnl]), List.map_cons, MetricsRow.pnlOrZero, hpnl]
      rfl

lemma getD_cumulativePnl (rows : List MetricsRow) :
    ((computePnlCurve rows).getLast?.map (·.cumulativePnl)).getD 0 = (recordedPnls rows).sum := by
  by_cases hne : recordedPnls rows = []
  · simp [computePnlCurve, hne]
  · obtain ⟨point, hpoint, hcumulative, -⟩ := getLast?_computePnlCurve hne
    rw [hpoint, Option.map_some, Option.getD_some, hcumulative]

lemma getD_runningWinRate (hrows : ∀ row ∈ rows, row.isClosed = true ↔ row.pnl.isSome = true) :
    ((computePnlCurve rows).getLast?.map (·.runningWinRate)).getD 0 = (getMetrics rows).winRate := by
  have hpnls := recordedPnls_eq hrows
  rw [getMetrics]
  dsimp only
  by_cases hne : recordedPnls rows = []
  · have hclosed : rows.filter (·.isClosed) = [] := List.map_eq_nil_iff.mp (hpnls.symm.trans hne)
    simp [computePnlCurve, hne, hclosed]
  · obtain ⟨point, hpoint, -, hwins, -⟩ := getLast?_computePnlCurve hne
    have hpos : 0 < (rows.filter (·.isClosed)).length := by
      rw [hpnls] at hne
      exact List.length_pos_of_ne_nil fun hnil => hne (by rw [hnil, List.map_nil])
    rw [hpoint, Option.map_some, Option.getD_some, hwins, if_pos hpos, shareOfWins, hpnls, List.countP_map,
      List.length_map]
    rfl

/-- After any operations the dashboard, the export and `get_metrics` agree up to the marks of the open
positions; as long as nothing was marked they agree. -/
theorem reports_agree (calls : List LedgerCall)
    (hrows : List.Forall₂ Trade.StoredAs (ledgerAfter calls).trades rows) :
    let m := getMetrics rows
    let stats := loadPortfolioStats rows
    let curve := computePnlCurve rows
    stats.totalPnl = roundTo 4 (m.totalPnl + marksOf rows) ∧ stats.winRate = roundTo 4 m.winRate ∧
      stats.openPositions = m.openCount ∧ stats.currentDrawdown = roundTo 4 (endDrawdown curve) ∧
      (curve.getLast?.map (·.cumulativePnl)).getD 0 = m.totalPnl + marksOf rows ∧
      ((∀ call ∈ calls, call.Unmarked) → marksOf rows = 0 ∧ curve.length = m.tradeCount ∧
        (curve.getLast?.map (·.runningWinRate)).getD 0 = m.winRate) := by
  have hstored : ∀ row ∈ rows, ∃ trade ∈ (ledgerAfter calls).trades, trade.StoredAs row := by
    intro row hrow
    obtain ⟨i, hi, rfl⟩ := List.mem_iff_getElem.mp hrow
    exact ⟨_, List.getElem_mem (hrows.length_eq ▸ hi), hrows.get (hrows.length_eq ▸ hi) hi⟩
  have hbooked : ∀ row ∈ rows, row.Booked := by
    intro row hrow
    obtain ⟨trade, htrade, h⟩ := hstored row hrow
    exact h.booked (all_ledgerAfter (fun call _ => keeps_booked call) trade htrade)
  have hsum := sum_recordedPnls hbooked
  refine ⟨congrArg (roundTo 4) hsum, ?_, List.countP_eq_length_filter, currentDrawdown_eq rows,
    (getD_cumulativePnl rows).trans hsum, fun hcalls => ?_⟩
  · rw [loadPortfolioStats, foldl_drawdownStep]
    dsimp only
    rw [countP_closed hbooked, countP_won]
    rfl
  · have honce : ∀ row ∈ rows, row.isClosed = true ↔ row.pnl.isSome = true := by
      intro row hrow
      obtain ⟨trade, htrade, h⟩ := hstored row hrow
      have honce : trade.status ≠ .opened ↔ trade.pnl.isSome = true :=
        all_ledgerAfter (fun call hcall => (hcalls call hcall).keeps) trade htrade
      rw [h.pnl, ← honce, MetricsRow.isClosed, h.status]
      cases trade.status <;> decide
    have hpnls := recordedPnls_eq honce
    refine ⟨?_, ?_, getD_runningWinRate honce⟩
    · have hall : (recordedPnls rows).sum = totalPnlOf (rows.filter (·.isClosed)) := congrArg List.sum hpnls
      exact left_eq_add.mp (hall.symm.trans hsum)
    · rw [computePnlCurve, List.length_map, List.length_range, hpnls, List.length_map]
      rfl

/-- An order of 20 dollars at one half. -/
def boughtHeads : Order where
  orderId := 0
  marketId := "coin"
  tokenId := "heads"
  direction := .yes
  side := .buy
  sizeUsdc := 20
  price := 1 / 2
  status := .filled
  timestamp := 0
  chunks := 1
  isPaper := true
  filledSizeUsdc := 20
  averageFillPrice := some (1 / 2)

def headsBet : EdgeResult where
  marketId := "coin"
  direction := .yes
  edge := 1 / 10
  confidence := 1 / 2
  estimatedProb := 3 / 5
  marketPrice := 1 / 2

/-- One bet is closed with a gain, another one is marked. -/
def twoBets : List LedgerCall :=
  [.insertTrade headsBet 20 boughtHeads 0, .insertTrade headsBet 20 { boughtHeads with orderId := 1 } 60,
    .perform (.closePosition 0 (7 / 10) .closed "manual_close" 120), .perform (.updatePosition 1 (6 / 10))]

/-- The table after the two bets, for which the dashboard reports 12 and the metrics 8. -/
def twoBetsRows : List MetricsRow :=
  [{ status := some "closed", direction := .yes, pnl := some 8 },
    { status := some "open", direction := .yes, pnl := some 4 }]

theorem reports_agree_twoBets :
    let m := getMetrics twoBetsRows
    let stats := loadPortfolioStats twoBetsRows
    let curve := computePnlCurve twoBetsRows
    stats.totalPnl = roundTo 4 (m.totalPnl + marksOf twoBetsRows) ∧ stats.winRate = roundTo 4 m.winRate ∧
      stats.openPositions = m.openCount ∧ stats.currentDrawdown = roundTo 4 (endDrawdown curve) ∧
      (curve.getLast?.map (·.cumulativePnl)).getD 0 = m.totalPnl + marksOf twoBetsRows ∧
      ((∀ call ∈ twoBets, call.Unmarked) → marksOf twoBetsRows = 0 ∧ curve.length = m.tradeCount ∧
        (curve.getLast?.map (·.runningWinRate)).getD 0 = m.winRate) := by
  apply reports_agree twoBets
  rw [forall₂_storedAs_iff]
  decide +kernel

end Agreement

end PolyCortex
