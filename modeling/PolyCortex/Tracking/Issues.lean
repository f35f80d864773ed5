import PolyCortex.Tracking.Profits

/-!
# What the reconciler reports

`PositionReconciler` compares the trades that the ledger has as open with the orders of the executor, in
four checks. A trade without its order goes unreported when another order is in its market
(`phantoms_complete_iff`), and what a phantom is closed at is its entry price in the wrong terms
(`phantom_neutral_iff`).

An issue names its trade or its order in its description; the rest of the text is left out.
-/

namespace PolyCortex

open Rounding

inductive IssueType where
  | phantomPosition
  | stalePosition
  | orphanOrder
  | sizeMismatch
  deriving DecidableEq, Repr

inductive Severity where
  | info
  | warning
  deriving DecidableEq, Repr

/-- What the description of an issue names. -/
inductive IssueSubject where
  | trade (tradeId : TradeId)
  | order (orderId : OrderId)
  deriving DecidableEq, Repr

structure ReconciliationIssue where
  issueType : IssueType
  marketId : MarketId
  subject : IssueSubject
  severity : Severity
  autoResolved : Bool := false
  resolution : String := ""
  deriving DecidableEq, Repr

/-- The settings of the reconciler. -/
structure PositionReconciler where
  staleHours : ℚ := 48
  autoClosePhantoms : Bool := false

/-- The executor knows the order of the trade. -/
def Trade.namesOrder (s : Executor) (trade : Trade) : Bool :=
  trade.localOrderId.any fun id => (s.orders.get? id).isSome

/-- The microseconds of some hours, as `timedelta` has them. -/
def hours (h : ℚ) : Time := roundHalfEven (h * 3600000000)

namespace PositionReconciler

variable (r : PositionReconciler)

/-- The issue of a phantom. -/
def phantomIssue (row : TradeId × Trade) : ReconciliationIssue :=
  { issueType := .phantomPosition
    marketId := row.2.marketId
    subject := .trade row.1
    severity := .warning
    autoResolved := r.autoClosePhantoms
    resolution := if r.autoClosePhantoms then "Auto-closed at entry price (zero PnL)" else "" }

/-- One turn of the loop of `_check_phantom_positions`. -/
def phantomStep (now : Time) (s : Executor) (loop : List ReconciliationIssue × Tracker)
    (row : TradeId × Trade) : List ReconciliationIssue × Tracker :=
  if row.2.namesOrder s then loop
  else if row.2.marketId ∈ executorMarketIds s then loop
  else
    (loop.1 ++ [r.phantomIssue row],
      if r.autoClosePhantoms then closePhantom now loop.2 row.1 else loop.2)

/-- `_check_phantom_positions`. -/
def checkPhantomPositions (now : Time) (s : Executor) (t : Tracker) :
    List ReconciliationIssue × Tracker :=
  t.openTrades.foldl (r.phantomStep now s) ([], t)

/-- `_check_stale_positions`. -/
def checkStalePositions (now : Time) (t : Tracker) : List ReconciliationIssue :=
  t.openTrades.filterMap fun (tradeId, trade) =>
    let lastUpdate := trade.lastFillAt.getD trade.timestamp
    if lastUpdate < now - hours r.staleHours then
      let hoursStale : ℚ := (now - lastUpdate) / 3600000000
      some
        { issueType := .stalePosition
          marketId := trade.marketId
          subject := .trade tradeId
          severity := if hoursStale < r.staleHours * 2 then .info else .warning }
    else none

/-- The orders of the open trades. -/
def trackedOrderIds (t : Tracker) : List OrderId := t.getOpenPositions.filterMap (·.localOrderId)

/-- An entry that is neither cancelled nor expired, and that no open trade names. -/
def isOrphan (t : Tracker) (orderId : OrderId) (order : Order) : Bool :=
  ¬(order.status = .cancelled ∨ order.status = .expired) ∧ order.orderKind = .entry ∧
    orderId ∉ trackedOrderIds t

/-- `_check_orphan_orders`. -/
def checkOrphanOrders (s : Executor) (t : Tracker) : List ReconciliationIssue :=
  s.orders.items.filterMap fun (orderId, order) =>
    if isOrphan t orderId order then
      some
        { issueType := .orphanOrder
          marketId := order.marketId
          subject := .order orderId
          severity := .warning }
    else none

/-- `_check_size_mismatches`. -/
def checkSizeMismatches (s : Executor) (t : Tracker) : List ReconciliationIssue :=
  t.openTrades.filterMap fun (tradeId, trade) =>
    match trade.localOrderId.bind s.orders.get? with
    | none => none
    | some order =>
      let diff := |pyOr? trade.filledSizeUsdc trade.sizeUsdc - order.filledSizeUsdc|
      if 0 < order.filledSizeUsdc ∧ 1 / 100 < diff then
        some
          { issueType := .sizeMismatch
            marketId := order.marketId
            subject := .trade tradeId
            severity := if 1 < diff then .warning else .info }
      else none

/-- `reconcile`, with the ledger it leaves. -/
def reconcile (now : Time) (s : Executor) (t : Tracker) : List ReconciliationIssue × Tracker :=
  let (phantoms, t) := r.checkPhantomPositions now s t
  (phantoms ++ r.checkStalePositions now t ++ checkOrphanOrders s t ++ checkSizeMismatches s t, t)

end PositionReconciler

/-- An issue of the type names the subject. -/
def Reported (issueType : IssueType) (subject : IssueSubject) (issues : List ReconciliationIssue) :
    Prop :=
  ∃ issue ∈ issues, issue.issueType = issueType ∧ issue.subject = subject

/-! ### The checks -/

section Checks

variable {r : PositionReconciler} {now : Time} {s : Executor} {t : Tracker} {k : TradeId}
  {issueType : IssueType} {subject : IssueSubject}

@[simp] lemma reported_append {issues issues' : List ReconciliationIssue} :
    Reported issueType subject (issues ++ issues') ↔
      Reported issueType subject issues ∨ Reported issueType subject issues' := by
  simp only [Reported, List.mem_append, or_and_right, exists_or]

lemma isPhantom_eq (s : Executor) (trade : Trade) :
    isPhantom s trade =
      (trade.isOpen && !trade.namesOrder s && !(trade.marketId ∈ executorMarketIds s)) := rfl

/-- The open trades that are reported as phantoms. -/
def lostTrades (s : Executor) (rows : List (TradeId × Trade)) : List (TradeId × Trade) :=
  rows.filter fun row => !row.2.namesOrder s && !(row.2.marketId ∈ executorMarketIds s)

/-- The loop reports the phantoms and closes them. -/
lemma foldl_phantomStep (rows : List (TradeId × Trade)) (issues : List ReconciliationIssue)
    (t : Tracker) :
    rows.foldl (r.phantomStep now s) (issues, t) =
      (issues ++ (lostTrades s rows).map r.phantomIssue,
        if r.autoClosePhantoms then ((lostTrades s rows).map (·.1)).foldl (closePhantom now) t
        else t) := by
  induction rows generalizing issues t with
  | nil => simp [lostTrades]
  | cons row rows ih =>
    rw [List.foldl_cons, PositionReconciler.phantomStep, lostTrades, List.filter_cons]
    by_cases hnames : row.2.namesOrder s = true
    · simp [hnames, ih, lostTrades]
    · by_cases hmarket : row.2.marketId ∈ executorMarketIds s
      · simp [hnames, hmarket, ih, lostTrades]
      · simp only [hnames, hmarket, if_false, ih, lostTrades]
        cases r.autoClosePhantoms <;> simp

lemma lostTrades_openTrades (s : Executor) (t : Tracker) :
    (lostTrades s t.openTrades).map (·.1) = phantomTrades s t := by
  rw [lostTrades, Tracker.openTrades, phantomTrades, ← List.filterMap_eq_filter,
    List.filterMap_filterMap, List.map_filterMap]
  refine List.filterMap_congr fun row _ => ?_
  obtain ⟨trade, tradeId⟩ := row
  dsimp only
  rw [isPhantom_eq]
  cases hopen : trade.isOpen with
  | false => simp
  | true =>
    by_cases hnames : trade.namesOrder s = true
    · simp [hnames]
    · by_cases hmarket : trade.marketId ∈ executorMarketIds s <;> simp [hnames, hmarket]

lemma checkPhantomPositions_eq (r : PositionReconciler) (now : Time) (s : Executor) (t : Tracker) :
    r.checkPhantomPositions now s t =
      ((lostTrades s t.openTrades).map r.phantomIssue,
        reconcilePositions r.autoClosePhantoms now s t) := by
  rw [PositionReconciler.checkPhantomPositions, foldl_phantomStep, List.nil_append,
    lostTrades_openTrades, reconcilePositions]

/-- The ledger after the reconciliation. -/
lemma reconcile_snd (r : PositionReconciler) (now : Time) (s : Executor) (t : Tracker) :
    (r.reconcile now s t).2 = reconcilePositions r.autoClosePhantoms now s t := by
  rw [PositionReconciler.reconcile, checkPhantomPositions_eq]

lemma reported_filterMap {α : Type} {rows : List α} {f : α → Option ReconciliationIssue} :
    Reported issueType subject (rows.filterMap f) ↔
      ∃ row ∈ rows, ∃ issue, f row = some issue ∧ issue.issueType = issueType ∧
        issue.subject = subject := by
  simp only [Reported, List.mem_filterMap]
  constructor
  · rintro ⟨issue, ⟨row, hrow, hissue⟩, hfacts⟩
    exact ⟨row, hrow, issue, hissue, hfacts⟩
  · rintro ⟨row, hrow, issue, hissue, hfacts⟩
    exact ⟨issue, ⟨row, hrow, hissue⟩, hfacts⟩

lemma reported_stale (h : Reported issueType subject (r.checkStalePositions now t)) :
    issueType = .stalePosition := by
  obtain ⟨row, -, issue, hissue, rfl, -⟩ := reported_filterMap.mp h
  dsimp only at hissue
  split_ifs at hissue <;> exact Option.some.inj hissue ▸ rfl

lemma reported_orphan : Reported issueType subject (PositionReconciler.checkOrphanOrders s t) ↔
    issueType = .orphanOrder ∧ ∃ orderId order, s.orders.get? orderId = some order ∧
      PositionReconciler.isOrphan t orderId order = true ∧ subject = .order orderId := by
  rw [PositionReconciler.checkOrphanOrders, reported_filterMap]
  constructor
  · rintro ⟨⟨orderId, order⟩, hmem, issue, hissue, rfl, rfl⟩
    dsimp only at hissue
    split_ifs at hissue with horphan
    obtain rfl := Option.some.inj hissue
    exact ⟨rfl, orderId, order, Dict.mem_items.mp hmem, horphan, rfl⟩
  · rintro ⟨rfl, orderId, order, hget, horphan, rfl⟩
    exact ⟨(orderId, order), Dict.mem_items.mpr hget, _, if_pos horphan, rfl, rfl⟩

lemma reported_mismatch
    (h : Reported issueType subject (PositionReconciler.checkSizeMismatches s t)) :
    issueType = .sizeMismatch := by
  obtain ⟨⟨tradeId, trade⟩, -, issue, hissue, rfl, -⟩ := reported_filterMap.mp h
  dsimp only at hissue
  cases horder : trade.localOrderId.bind s.orders.get? with
  | none =>
    rw [horder] at hissue
    cases hissue
  | some order =>
    rw [horder] at hissue
    dsimp only at hissue
    split_ifs at hissue <;> exact Option.some.inj hissue ▸ rfl

/-- The phantoms that are reported. -/
lemma reported_phantom_iff :
    Reported .phantomPosition (.trade k) (r.reconcile now s t).1 ↔ k ∈ phantomTrades s t := by
  rw [PositionReconciler.reconcile, checkPhantomPositions_eq]
  simp only [reported_append]
  constructor
  · rintro (((hphantom | hstale) | horphan) | hmismatch)
    · obtain ⟨issue, hissue, -, hsubject⟩ := hphantom
      obtain ⟨row, hrow, rfl⟩ := List.mem_map.mp hissue
      rw [← lostTrades_openTrades]
      exact List.mem_map.mpr ⟨row, hrow, IssueSubject.trade.inj hsubject⟩
    · cases reported_stale hstale
    · cases (reported_orphan.mp horphan).1
    · cases reported_mismatch hmismatch
  · intro hk
    rw [← lostTrades_openTrades] at hk
    obtain ⟨row, hrow, rfl⟩ := List.mem_map.mp hk
    exact .inl (.inl (.inl ⟨_, List.mem_map_of_mem hrow, rfl, rfl⟩))

/-- The orphans that are reported, once the phantoms are closed. -/
lemma reported_orphan_iff {orderId : OrderId} :
    Reported .orphanOrder (.order orderId) (r.reconcile now s t).1 ↔
      ∃ order, s.orders.get? orderId = some order ∧
        PositionReconciler.isOrphan (r.reconcile now s t).2 orderId order = true := by
  rw [PositionReconciler.reconcile, checkPhantomPositions_eq]
  simp only [reported_append]
  constructor
  · rintro (((hphantom | hstale) | horphan) | hmismatch)
    · obtain ⟨issue, hissue, htype, -⟩ := hphantom
      obtain ⟨row, -, rfl⟩ := List.mem_map.mp hissue
      cases htype
    · cases reported_stale hstale
    · obtain ⟨-, orderId', order, hget, hisOrphan, hsubject⟩ := reported_orphan.mp horphan
      obtain rfl := IssueSubject.order.inj hsubject
      exact ⟨order, hget, hisOrphan⟩
    · cases reported_mismatch hmismatch
  · rintro ⟨order, hget, hisOrphan⟩
    exact .inl (.inr (reported_orphan.mpr ⟨rfl, orderId, order, hget, hisOrphan, rfl⟩))

lemma mem_phantomTrades_iff {trade : Trade} (hrow : t.getTrade k = some trade) :
    k ∈ phantomTrades s t ↔ isPhantom s trade = true := by
  constructor
  · intro hk
    obtain ⟨trade', hrow', hphantom⟩ := Tracker.mem_phantomTrades hk
    exact Option.some.inj (hrow.symm.trans hrow') ▸ hphantom
  · intro hphantom
    refine List.mem_filterMap.mpr ⟨(trade, k), List.mem_zipIdx_iff_getElem?.mpr hrow, ?_⟩
    exact if_pos hphantom

end Checks

/-! ### Phantoms -/

/-- Every open trade without its order is reported, and no trade with its order is. -/
def PhantomsComplete (r : PositionReconciler) (now : Time) (s : Executor) (t : Tracker) : Prop :=
  ∀ k trade, t.getTrade k = some trade →
    (trade.isOpen = true → trade.namesOrder s = false →
      Reported .phantomPosition (.trade k) (r.reconcile now s t).1) ∧
    (trade.namesOrder s = true →
      ¬Reported .phantomPosition (.trade k) (r.reconcile now s t).1)

/-- The report of phantoms is complete just when no trade that has lost its order is in a market in
which the executor has another one. -/
theorem phantoms_complete_iff (r : PositionReconciler) (now : Time) (s : Executor) (t : Tracker) :
    PhantomsComplete r now s t ↔
      ∀ k trade, t.getTrade k = some trade → trade.isOpen = true → trade.namesOrder s = false →
        trade.marketId ∉ executorMarketIds s := by
  constructor
  · intro hcomplete k trade hrow hopen hlost hmarket
    have hphantom := (mem_phantomTrades_iff hrow).mp
      (reported_phantom_iff.mp ((hcomplete k trade hrow).1 hopen hlost))
    simp [isPhantom_eq, hmarket] at hphantom
  · intro hmarkets k trade hrow
    rw [reported_phantom_iff, mem_phantomTrades_iff hrow, isPhantom_eq]
    refine ⟨fun hopen hlost => ?_, fun hnames => by simp [hnames]⟩
    simp [hopen, hlost, hmarkets k trade hrow hopen hlost]

/-- An order of the market "coin" that was filled. -/
def filledOrder (orderId : OrderId) : Order where
  orderId := orderId
  marketId := "coin"
  tokenId := "heads"
  direction := .yes
  side := .buy
  sizeUsdc := 10
  price := 1 / 2
  status := .filled
  timestamp := 0
  chunks := 1
  isPaper := true
  filledSizeUsdc := 10

/-- A trade of the same market, whose order is lost. -/
def lostTrade : Trade where
  marketId := "coin"
  direction := .no
  entryPrice := some (3 / 10)
  sizeUsdc := 7
  timestamp := 0
  isPaper := true
  localOrderId := some 99

theorem phantoms_not_complete :
    ¬PhantomsComplete {} 0 (Executor.init.insertOrder filledOrder) ⟨[lostTrade]⟩ := fun hcomplete =>
  have hreported := (hcomplete 0 lostTrade rfl).1 rfl (by decide +kernel)
  absurd (reported_phantom_iff.mp hreported) (by decide +kernel)

/-! ### Neutrality -/

section Neutral

variable {r : PositionReconciler} {now : Time} {s : Executor} {t : Tracker} {k : TradeId}
  {trade : Trade} {entryPrice : ℚ}

/-- The average fill price and the entry price mean the same, or nothing is at stake. -/
def Trade.NeutralAt (entryPrice : ℚ) (trade : Trade) : Prop :=
  trade.pnlSizeUsdc = 0 ∨
    match trade.direction, trade.averageFillPrice with
    | .yes, none => True
    | .yes, some average => average = entryPrice ∨ average = 0
    | .no, none => entryPrice = 1 / 2 ∨ entryPrice = 1
    | .no, some average => max 0 (min 1 average) = max 0 (min 1 entryPrice) ∨ average ≤ 0
    | .other _, none => True
    | .other _, some average => average = entryPrice ∨ average = 1

lemma sidePnl_eq_zero_iff (direction : Direction) (stake entry price : ℚ) :
    sidePnl direction stake entry price = 0 ↔
      stake = 0 ∨ price = entry ∨ if direction = .yes then entry = 0 else entry = 1 := by
  unfold sidePnl
  split_ifs with hyes hentry hentry
  · simp [hentry]
  · simp [hentry, sub_eq_zero, or_comm]
  · simp [(sub_eq_zero.mp hentry).symm]
  · have hne : entry ≠ 1 := fun heq => hentry (by rw [heq, sub_self])
    rw [div_eq_zero_iff, or_iff_left hentry, mul_eq_zero, sub_eq_zero, or_iff_left hne, or_comm,
      eq_comm (a := entry)]

lemma clamp_compl (q : ℚ) : max 0 (min 1 (1 - q)) = 1 - max 0 (min 1 q) := by
  rcases le_total q 0 with h | h
  · rw [min_eq_left (by linarith), max_eq_right zero_le_one, min_eq_right (by linarith),
      max_eq_left h, sub_zero]
  · rcases le_total q 1 with h' | h'
    · rw [Trade.clamp_unit (by linarith) (by linarith), Trade.clamp_unit h h']
    · rw [min_eq_right (by linarith), max_eq_left (by linarith), min_eq_left h',
        max_eq_right zero_le_one, sub_self]

/-- Only the half is its own complement. -/
lemma clamp_compl_eq_self_iff (q : ℚ) : max 0 (min 1 (1 - q)) = q ↔ q = 1 / 2 := by
  constructor
  · intro h
    have hlow : 0 ≤ q := h ▸ le_max_left _ _
    have hhigh : q ≤ 1 := h ▸ max_le zero_le_one (min_le_left _ _)
    rw [Trade.clamp_unit (by linarith) (by linarith)] at h
    linarith
  · rintro rfl
    rw [Trade.clamp_unit] <;> norm_num

/-- Closing at the entry price books nothing just when that price is neutral. -/
lemma Trade.closingPnl_entry_iff (hentry : trade.entryPrice = some entryPrice) :
    trade.closingPnl entryPrice = -(trade.feeUsdc + trade.gasCostUsdc) ↔
      trade.NeutralAt entryPrice := by
  have hgross : trade.closingPnl entryPrice = -(trade.feeUsdc + trade.gasCostUsdc) ↔
      trade.grossPnl (trade.exitYesPrice entryPrice) = 0 := by
    rw [Trade.closingPnl, Trade.netPnl]
    constructor <;> intro h <;> linarith
  rw [hgross, Trade.grossPnl_eq_sidePnl, sidePnl_eq_zero_iff, Trade.NeutralAt, Trade.exitYesPrice,
    Trade.entryYesPrice]
  cases hdirection : trade.direction with
  | yes =>
    cases trade.averageFillPrice with
    | none => simp [hentry]
    | some average => simp [eq_comm (a := entryPrice)]
  | no =>
    cases trade.averageFillPrice with
    | none => simp [hentry, clamp_compl_eq_self_iff]
    | some average =>
      simp [clamp_compl, eq_comm (a := max 0 (min 1 entryPrice)), not_le.mpr (one_pos (α := ℚ))]
  | other text =>
    cases trade.averageFillPrice with
    | none => simp [hentry]
    | some average => simp [eq_comm (a := entryPrice)]

/-- Each of the trades is closed at its entry price, and no other row changes. -/
lemma getTrade_foldl_closePhantom {ks : List TradeId} (hnodup : ks.Nodup)
    (hrow : t.getTrade k = some trade) :
    (ks.foldl (closePhantom now) t).getTrade k = if k ∈ ks then
      some (trade.close (trade.entryPrice.getD 0) .closed "phantom_reconciliation" now)
      else some trade := by
  have hother : ∀ (js : List TradeId) (t : Tracker), k ∉ js →
      (js.foldl (closePhantom now) t).getTrade k = t.getTrade k := by
    intro js
    induction js with
    | nil => exact fun _ _ => rfl
    | cons j js ih =>
      intro t hk
      rw [List.mem_cons, not_or] at hk
      rw [List.foldl_cons, ih _ hk.2, Tracker.getTrade_closePhantom_of_ne now t hk.1]
  induction ks generalizing t with
  | nil => simpa using hrow
  | cons j js ih =>
    obtain ⟨hnew, hnodup⟩ := List.nodup_cons.mp hnodup
    rw [List.foldl_cons]
    by_cases hk : k = j
    · subst hk
      rw [hother js _ hnew, Tracker.getTrade_closePhantom now hrow, if_pos rfl,
        if_pos List.mem_cons_self]
    · rw [ih hnodup ((Tracker.getTrade_closePhantom_of_ne now t hk).trans hrow)]
      simp [hk]

/-- The row of a phantom that is closed. -/
lemma getTrade_reconcile_phantom (hauto : r.autoClosePhantoms = true)
    (hk : k ∈ phantomTrades s t) (hrow : t.getTrade k = some trade) :
    (r.reconcile now s t).2.getTrade k =
      some (trade.close (trade.entryPrice.getD 0) .closed "phantom_reconciliation" now) := by
  rw [reconcile_snd, reconcilePositions, if_pos hauto,
    getTrade_foldl_closePhantom (Tracker.phantomTrades_nodup s t) hrow, if_pos hk]

/-- A phantom is closed without a profit or a loss before costs just when its entry price is neutral. -/
theorem phantom_neutral_iff (hauto : r.autoClosePhantoms = true)
    (hreported : Reported .phantomPosition (.trade k) (r.reconcile now s t).1)
    (hrow : t.getTrade k = some trade) (hentry : trade.entryPrice = some entryPrice) :
    (∃ closed, (r.reconcile now s t).2.getTrade k = some closed ∧ closed.status = .closed ∧
      closed.pnl = some (-(trade.feeUsdc + trade.gasCostUsdc))) ↔ trade.NeutralAt entryPrice := by
  have hclosed : (r.reconcile now s t).2.getTrade k =
      some (trade.close (trade.entryPrice.getD 0) .closed "phantom_reconciliation" now) :=
    getTrade_reconcile_phantom hauto (reported_phantom_iff.mp hreported) hrow
  rw [hentry, Option.getD_some] at hclosed
  rw [← Trade.closingPnl_entry_iff hentry]
  constructor
  · rintro ⟨closed, hget, -, hpnl⟩
    obtain rfl := Option.some.inj (hclosed.symm.trans hget)
    exact Option.some.inj hpnl
  · intro hpnl
    exact ⟨_, hclosed, rfl, by rw [← hpnl]; rfl⟩

/-- The reconciler that closes what it reports. -/
def closing : PositionReconciler := { autoClosePhantoms := true }

lemma reported_lostTrade :
    Reported .phantomPosition (.trade 0) (closing.reconcile 0 Executor.init ⟨[lostTrade]⟩).1 :=
  reported_phantom_iff.mpr (by decide +kernel)

/-- A stake of 7 on NO, entered at 0.3 of the YES side, is closed with a loss of 4. -/
theorem phantom_not_neutral :
    Reported .phantomPosition (.trade 0) (closing.reconcile 0 Executor.init ⟨[lostTrade]⟩).1 ∧
      ∃ closed, (closing.reconcile 0 Executor.init ⟨[lostTrade]⟩).2.getTrade 0 = some closed ∧
        closed.pnl = some (-4) ∧
        closed.pnl ≠ some (-(lostTrade.feeUsdc + lostTrade.gasCostUsdc)) := by
  have hrow : (closing.reconcile 0 Executor.init ⟨[lostTrade]⟩).2.getTrade 0 =
      some (lostTrade.close (lostTrade.entryPrice.getD 0) .closed "phantom_reconciliation" 0) :=
    getTrade_reconcile_phantom rfl (reported_phantom_iff.mp reported_lostTrade) rfl
  exact ⟨reported_lostTrade, _, hrow, by decide +kernel, by decide +kernel⟩

theorem phantom_neutral_iff_lostTrade :
    (∃ closed, (closing.reconcile 0 Executor.init ⟨[lostTrade]⟩).2.getTrade 0 = some closed ∧
      closed.status = .closed ∧ closed.pnl = some (-(lostTrade.feeUsdc + lostTrade.gasCostUsdc))) ↔
      lostTrade.NeutralAt (3 / 10) :=
  phantom_neutral_iff rfl reported_lostTrade rfl rfl

end Neutral

end PolyCortex
