import PolyCortex.Reporting.Tax

/-!
# The gains on Form 8949

The gain of a row is what the requested size would have earned as YES shares bought at `entry_price`;
the PnL of the ledger is what the filled size has earned on the side of the trade. The form reports the
ledger exactly when the two round alike for every trade, and no trade is `resolved`
(`reportsLedger_iff`).
-/

namespace PolyCortex

open Rounding

/-- A row as `close_position` leaves it, without fees, for a status that is not open. -/
def Trade.ClosedByTracker (trade : Trade) : Prop :=
  ∃ (before : Trade) (exitPrice : ℚ) (status : TradeStatus) (reason : String) (closedAt : Time),
    status ≠ .opened ∧ before.feeUsdc = 0 ∧ before.gasCostUsdc = 0 ∧
      trade = before.close exitPrice status reason closedAt

/-- A ledger whose trades were closed through the tracker, as far as they are closed. -/
structure ClosedLedger where
  tracker : Tracker
  closed : ∀ trade ∈ tracker.trades, trade.isOpen = false → trade.ClosedByTracker

/-- The row reports the result of the trade. -/
structure Reports (question : Trade → String) (trade : Trade) (row : Form8949Row) : Prop where
  description : row.description = trade.description question
  dateSold : row.dateSold = trade.closedAt.map utcDay
  gainLoss : row.gainLoss = roundTo 4 (trade.pnl.getD 0)

/-- The trades, closed or resolved, that were sold in a year. -/
def soldIn (year : ℤ) (t : Tracker) : List Trade :=
  bySale (t.trades.filter fun trade => !trade.isOpen && trade.closingYear = some year)

/-- The trades that were sold. -/
def soldTrades (t : Tracker) : List Trade := t.trades.filter fun trade => !trade.isOpen

/-- The forms report the ledger: each trade sold is in one row of the form of its year, and over years
that cover the sales the gains add up to the total PnL, each rounded. -/
structure ReportsLedger (method : CostBasisMethod) (question : Trade → String) (t : Tracker) : Prop where
  rows : ∀ year, List.Forall₂ (Reports question) (soldIn year t) (generateForm8949 year method question t)
  totals : ∀ years : List ℤ, years.Nodup →
    (∀ trade ∈ soldTrades t, ∃ year ∈ years, trade.closingYear = some year) →
    |(years.map fun year => ((generateForm8949 year method question t).map (·.gainLoss)).sum).sum -
      t.totalPnl| ≤ (soldTrades t).length * (1 / 2 / 10 ^ 4)

namespace Trade

/-- The form takes in the trade: it is `closed`, and when it has an entry price, the requested size in
YES shares of that price earns, to four digits, what the trade has earned. -/
def OnForm (trade : Trade) : Prop :=
  trade.status = .closed ∧
    (0 < trade.entryPrice.getD 0 →
      roundTo 4 (sidePnl .yes trade.sizeUsdc (trade.entryPrice.getD 0) (trade.exitPrice.getD 0)) =
        roundTo 4 (sidePnl trade.direction trade.pnlSizeUsdc trade.entryYesPrice
          (trade.exitPrice.getD 0)))

variable {trade : Trade}

/-- What is recorded of a trade that was closed through the tracker. -/
lemma ClosedByTracker.recorded (h : trade.ClosedByTracker) :
    trade.isOpen = false ∧ (∃ closedAt, trade.closedAt = some closedAt) ∧
      trade.pnl = some (sidePnl trade.direction trade.pnlSizeUsdc trade.entryYesPrice
        (trade.exitPrice.getD 0)) := by
  obtain ⟨before, exitPrice, status, reason, closedAt, hstatus, hfee, hgas, rfl⟩ := h
  refine ⟨decide_eq_false hstatus, ⟨closedAt, rfl⟩, ?_⟩
  have hpnl : before.closingPnl exitPrice = before.grossPnl (before.exitYesPrice exitPrice) := by
    simp [closingPnl, netPnl, hfee, hgas]
  rw [grossPnl_eq_sidePnl] at hpnl
  exact congrArg some hpnl

/-- What the row of a trade has as its gain. -/
lemma gainLoss_eq (question : Trade → String) (trade : Trade) :
    (trade.form8949Row question trade.ownLot).gainLoss =
      roundTo 4 (if 0 < trade.entryPrice.getD 0 then
        sidePnl .yes trade.sizeUsdc (trade.entryPrice.getD 0) (trade.exitPrice.getD 0)
      else trade.pnl.getD 0) := by
  simp only [form8949Row, proceeds, ownLot, sidePnl, if_true]
  congr 1
  split_ifs with hentry hzero
  · rw [hzero] at hentry
    exact absurd hentry (lt_irrefl 0)
  · field_simp
  · ring

lemma reports_iff (h : trade.ClosedByTracker) (hstatus : trade.status = .closed)
    (question : Trade → String) :
    Reports question trade (trade.form8949Row question trade.ownLot) ↔ trade.OnForm := by
  have hpnl := h.recorded.2.2
  constructor
  · intro hreports
    refine ⟨hstatus, fun hentry => ?_⟩
    have hgain := hreports.gainLoss
    rwa [gainLoss_eq, if_pos hentry, hpnl, Option.getD_some] at hgain
  · intro honForm
    refine ⟨rfl, rfl, ?_⟩
    rw [gainLoss_eq, hpnl, Option.getD_some]
    split_ifs with hentry
    · exact honForm.2 hentry
    · rfl

/-- A trade of the YES side that was filled in full at its entry price is taken in. -/
lemma onForm_of_yes (hstatus : trade.status = .closed) (hyes : trade.direction = .yes)
    (hsize : trade.pnlSizeUsdc = trade.sizeUsdc)
    (hentry : trade.entryYesPrice = trade.entryPrice.getD 0) : trade.OnForm := by
  refine ⟨hstatus, fun _ => ?_⟩
  rw [hyes, hsize, hentry]

end Trade

/-- The same shares earn the same on both sides only when the price has not moved. -/
lemma sidePnl_yes_eq_no_iff {size entry price : ℚ} (hpos : 0 < entry) (hlt : entry < 1) :
    sidePnl .yes size entry price = sidePnl .no size entry price ↔ size = 0 ∨ price = entry := by
  have hne : 1 - entry ≠ 0 := (sub_pos.mpr hlt).ne'
  have hdiff : sidePnl .yes size entry price - sidePnl .no size entry price =
      (price - entry) * size / (entry * (1 - entry)) := by
    simp only [sidePnl, reduceCtorEq, if_true, if_false, hpos.ne', hne]
    field_simp
    ring
  rw [← sub_eq_zero, hdiff, div_eq_zero_iff, mul_eq_zero, sub_eq_zero]
  simp [hpos.ne', hne, or_comm]

section Ledger

variable {method : CostBasisMethod} {question : Trade → String} {t : Tracker} {year : ℤ}

/-- The trades on a form are sold ones. -/
lemma filter_closed_sublist (year : ℤ) (trades : List Trade) :
    (trades.filter fun trade => trade.status = .closed ∧ trade.closingYear = some year).Sublist
      (trades.filter fun trade => !trade.isOpen && trade.closingYear = some year) := by
  apply List.monotone_filter_right
  intro trade htrade
  simp only [decide_eq_true_eq] at htrade
  simp [Trade.isOpen, htrade.1, htrade.2]

/-- When a form has a row for each sale of its year, its trades are the sold ones. -/
lemma iterClosedTrades_eq_soldIn (hlength : (soldIn year t).length = (iterClosedTrades year t).length) :
    iterClosedTrades year t = soldIn year t := by
  rw [soldIn, iterClosedTrades, (bySale_perm _).length_eq, (bySale_perm _).length_eq] at hlength
  rw [soldIn, iterClosedTrades, (filter_closed_sublist year t.trades).eq_of_length hlength.symm]

lemma iterClosedTrades_of_closed
    (hclosed : ∀ trade ∈ t.trades, trade.isOpen = false → trade.status = .closed) :
    iterClosedTrades year t = soldIn year t := by
  rw [soldIn, iterClosedTrades]
  congr 1
  apply List.filter_congr
  intro trade htrade
  cases hopen : trade.isOpen with
  | false => simp [hclosed trade htrade hopen]
  | true =>
    have hstatus : trade.status = .opened := of_decide_eq_true hopen
    simp [hstatus]

lemma mem_soldIn {trade : Trade} :
    trade ∈ soldIn year t ↔
      trade ∈ t.trades ∧ trade.isOpen = false ∧ trade.closingYear = some year := by
  rw [soldIn, (bySale_perm _).mem_iff, List.mem_filter]
  simp

/-- The total PnL is that of the sold trades. -/
lemma totalPnl_eq_soldTrades (t : Tracker) :
    t.totalPnl = ((soldTrades t).map fun trade => trade.pnl.getD 0).sum := by
  rw [Tracker.totalPnl, soldTrades]
  induction t.trades with
  | nil => rfl
  | cons trade trades ih =>
    rw [List.map_cons, List.sum_cons, ih, List.filter_cons, Trade.realizedPnl]
    cases trade.isOpen <;> simp

/-- Sums of roundings are off by half a digit for each term. -/
lemma abs_sum_roundTo_sub_le {α : Type} (n : ℕ) (f : α → ℚ) (xs : List α) :
    |(xs.map fun x => roundTo n (f x)).sum - (xs.map f).sum| ≤ xs.length * (1 / 2 / 10 ^ n) := by
  induction xs with
  | nil => simp
  | cons x xs ih =>
    have hx := abs_roundTo_sub_le (n := n) (f x)
    have hsplit : roundTo n (f x) + (xs.map fun x => roundTo n (f x)).sum - (f x + (xs.map f).sum) =
        (roundTo n (f x) - f x) + ((xs.map fun x => roundTo n (f x)).sum - (xs.map f).sum) := by
      ring
    simp only [List.map_cons, List.sum_cons, List.length_cons]
    rw [hsplit]
    calc _ ≤ |roundTo n (f x) - f x| + |(xs.map fun x => roundTo n (f x)).sum - (xs.map f).sum| :=
          abs_add_le _ _
      _ ≤ 1 / 2 / 10 ^ n + xs.length * (1 / 2 / 10 ^ n) := add_le_add hx ih
      _ = ((xs.length + 1 : ℕ) : ℚ) * (1 / 2 / 10 ^ n) := by push_cast; ring

lemma map_gainLoss {trades : List Trade} {rows : List Form8949Row}
    (hrows : List.Forall₂ (Reports question) trades rows) :
    rows.map (·.gainLoss) = trades.map fun trade => roundTo 4 (trade.pnl.getD 0) := by
  induction hrows with
  | nil => rfl
  | cons hreports _ ih => rw [List.map_cons, List.map_cons, hreports.gainLoss, ih]

/-- The gains of the forms of years that cover the sales, when each form reports its sales. -/
lemma sum_gainLoss_eq
    (hrows : ∀ year, List.Forall₂ (Reports question) (soldIn year t)
      (generateForm8949 year method question t))
    {years : List ℤ} (hnodup : years.Nodup)
    (hcover : ∀ trade ∈ soldTrades t, ∃ year ∈ years, trade.closingYear = some year) :
    (years.map fun year => ((generateForm8949 year method question t).map (·.gainLoss)).sum).sum =
      ((soldTrades t).map fun trade => roundTo 4 (trade.pnl.getD 0)).sum := by
  have hyear : ∀ year, ((generateForm8949 year method question t).map (·.gainLoss)).sum =
      (((soldTrades t).filter (·.closingYear = some year)).map
        fun trade => roundTo 4 (trade.pnl.getD 0)).sum := by
    intro year
    have hgains : (generateForm8949 year method question t).map (·.gainLoss) =
        (soldIn year t).map fun trade => roundTo 4 (trade.pnl.getD 0) := map_gainLoss (hrows year)
    rw [hgains, soldIn, soldTrades, List.filter_filter,
      ((bySale_perm _).map fun trade : Trade => roundTo 4 (trade.pnl.getD 0)).sum_eq]
    simp only [Bool.and_comm]
  have hnodup' : (years.map some).Nodup := hnodup.map (Option.some_injective ℤ)
  have hcover' : ∀ trade ∈ soldTrades t, trade.closingYear ∈ years.map some := by
    intro trade htrade
    obtain ⟨year, hmem, hclosing⟩ := hcover trade htrade
    exact hclosing ▸ List.mem_map_of_mem hmem
  have hsum := @Dict.sum_filter_keys (Option ℤ) Trade ℚ _ _ Trade.closingYear
    (fun trade => roundTo 4 (trade.pnl.getD 0)) (years.map some) hnodup' (soldTrades t) hcover'
  rw [← hsum, List.map_map]
  exact congrArg List.sum (List.map_congr_left fun year _ => hyear year)

end Ledger

/-- The forms report a ledger that was closed through the tracker exactly when they take in every trade
that is not open. -/
theorem reportsLedger_iff (ledger : ClosedLedger) (method : CostBasisMethod) (question : Trade → String) :
    ReportsLedger method question ledger.tracker ↔
      ∀ trade ∈ ledger.tracker.trades, trade.isOpen = false → trade.OnForm := by
  constructor
  · intro hreports trade htrade hopen
    have hclosed := ledger.closed trade htrade hopen
    obtain ⟨-, ⟨closedAt, hclosedAt⟩, -⟩ := hclosed.recorded
    have hmem : trade ∈ soldIn (yearOf (utcDay closedAt)) ledger.tracker :=
      mem_soldIn.mpr ⟨htrade, hopen, by simp [Trade.closingYear, hclosedAt]⟩
    have hrows := hreports.rows (yearOf (utcDay closedAt))
    rw [generateForm8949_eq] at hrows
    have hsame := iterClosedTrades_eq_soldIn (hrows.length_eq.trans (List.length_map ..))
    have hstatus : trade.status = .closed := by
      rw [← hsame, iterClosedTrades, (bySale_perm _).mem_iff] at hmem
      exact (of_decide_eq_true (List.mem_filter.mp hmem).2).1
    rw [hsame, List.forall₂_map_right_iff, List.forall₂_same] at hrows
    exact (Trade.reports_iff hclosed hstatus question).mp (hrows trade hmem)
  · intro honForm
    have hrows : ∀ year, List.Forall₂ (Reports question) (soldIn year ledger.tracker)
        (generateForm8949 year method question ledger.tracker) := by
      intro year
      rw [generateForm8949_eq, iterClosedTrades_of_closed fun trade htrade hopen =>
        (honForm trade htrade hopen).1, List.forall₂_map_right_iff, List.forall₂_same]
      intro trade hmem
      obtain ⟨htrade, hopen, -⟩ := mem_soldIn.mp hmem
      have honTrade := honForm trade htrade hopen
      exact (Trade.reports_iff (ledger.closed trade htrade hopen) honTrade.1 question).mpr honTrade
    refine ⟨hrows, fun years hnodup hcover => ?_⟩
    rw [sum_gainLoss_eq hrows hnodup hcover, totalPnl_eq_soldTrades]
    exact abs_sum_roundTo_sub_le 4 (fun trade : Trade => trade.pnl.getD 0) (soldTrades ledger.tracker)

/-- A trade of the NO side in full at its entry price, which went up to 1 / 2. -/
def soldNo : Trade :=
  { marketId := "heads", direction := .no, entryPrice := some (2 / 5), sizeUsdc := 60, timestamp := 0,
    isPaper := true, filledSizeUsdc := some 60 }

/-- The ledger after it was closed. -/
def soldNoLedger : ClosedLedger where
  tracker := ⟨[soldNo.close (1 / 2) .closed "manual_close" 0]⟩
  closed := by
    intro trade htrade _
    rw [List.mem_singleton.mp htrade]
    exact ⟨soldNo, 1 / 2, .closed, "manual_close", 0, by decide, rfl, rfl, rfl⟩

/-- The trade has lost 10, and the form reports a gain of 15. -/
theorem not_reportsLedger_soldNo :
    ¬ ReportsLedger .fifo (fun _ => "") soldNoLedger.tracker := by
  intro hreports
  have hsold : soldIn 1970 soldNoLedger.tracker = soldNoLedger.tracker.trades := by decide +kernel
  have hform : iterClosedTrades 1970 soldNoLedger.tracker = soldNoLedger.tracker.trades := by
    decide +kernel
  have hrows := hreports.rows 1970
  rw [generateForm8949_eq, hsold, hform] at hrows
  have hgain := (List.forall₂_cons.mp hrows).1.gainLoss
  revert hgain
  decide +kernel

end PolyCortex
