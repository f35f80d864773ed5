import PolyCortex.Agent.Sessions
import PolyCortex.Execution.Prices
import PolyCortex.Tracking.Records

/-!
# Entries that die without a fill

`sync_entry_order` writes the status of the order into the row and leaves the status of the trade
alone. The trade of an entry that was cancelled or has expired without a fill stays open, and counts
with the size that was asked for (`dead_entry_counts`).
-/

namespace PolyCortex

open Coroutine Relation

variable {cfg : Config} {st : Settings}

/-! ### What counts -/

/-- The ledger without the row `k`. -/
def Tracker.without (k : TradeId) (t : Tracker) : Tracker := ⟨t.trades.eraseIdx k⟩

/-- The trade does not count in any of the places where open trades do. -/
structure Tracker.Ignores (t : Tracker) (k : TradeId) : Prop where
  position : ∀ trade, (k, trade) ∉ t.openTrades
  exposure : t.currentExposure = (t.without k).currentExposure
  category : ∀ category, t.exposureByCategory category = (t.without k).exposureByCategory category
  capital : Tracker.openCapital t.getOpenPositions =
    Tracker.openCapital (t.without k).getOpenPositions
  slot : t.getOpenPositions.length = (t.without k).getOpenPositions.length

/-- The trade counts in all of them, with the size that was asked for. -/
structure Tracker.Counts (t : Tracker) (k : TradeId) (trade : Trade) : Prop where
  position : (k, trade) ∈ t.openTrades
  exposure : t.currentExposure = trade.sizeUsdc + (t.without k).currentExposure
  category : t.exposureByCategory trade.categoryLabel =
    trade.sizeUsdc + (t.without k).exposureByCategory trade.categoryLabel
  capital : Tracker.openCapital t.getOpenPositions =
    trade.sizeUsdc + Tracker.openCapital (t.without k).getOpenPositions
  slot : t.getOpenPositions.length = (t.without k).getOpenPositions.length + 1

lemma Tracker.Counts.not_ignores {t : Tracker} {k : TradeId} {trade : Trade} (h : t.Counts k trade) :
    ¬ t.Ignores k :=
  fun hignores => hignores.position trade h.position

/-- An open trade without a fill counts. -/
lemma Tracker.counts_of_open {t : Tracker} {k : TradeId} {trade : Trade}
    (hrow : t.getTrade k = some trade) (hopen : trade.isOpen = true)
    (hunfilled : trade.filledSizeUsdc = some 0) : t.Counts k trade := by
  obtain ⟨hlt, rfl⟩ := List.getElem?_eq_some_iff.mp hrow
  have hperm : (t.trades[k] :: (t.without k).trades).Perm t.trades := List.getElem_cons_eraseIdx_perm hlt
  have hpositions : (t.trades[k] :: (t.without k).getOpenPositions).Perm t.getOpenPositions := by
    have hfilter := hperm.filter (·.isOpen)
    rwa [List.filter_cons_of_pos hopen] at hfilter
  have hsize : t.trades[k].effectiveSizeUsdc = t.trades[k].sizeUsdc := by
    simp [Trade.effectiveSizeUsdc, hunfilled]
  constructor
  · rw [openTrades, List.mem_filterMap]
    exact ⟨(t.trades[k], k), List.mem_zipIdx_iff_getElem?.mpr hrow, by simp [hopen]⟩
  · rw [currentExposure, currentExposure, ← (hpositions.map _).sum_eq, List.map_cons, List.sum_cons,
      hsize]
  · have hcategory := hpositions.filter (·.categoryLabel = t.trades[k].categoryLabel)
    rw [List.filter_cons_of_pos (by simp)] at hcategory
    rw [exposureByCategory, exposureByCategory, ← (hcategory.map _).sum_eq, List.map_cons,
      List.sum_cons, hsize]
  · rw [openCapital, openCapital, ← (hpositions.map _).sum_eq, List.map_cons, List.sum_cons]
  · rw [← hpositions.length_eq, List.length_cons]

/-! ### The trade of an entry without a fill stays open -/

/-- Booking keeps the outcome of a trade, unless it closes it for an exit. -/
lemma BookStep.row_outcome {s : Executor} {t t' : Tracker} (h : BookStep s t t') {k : TradeId}
    {trade : Trade} (hrow : t.getTrade k = some trade) :
    (∃ trade', t'.getTrade k = some trade' ∧ trade.SameOutcome trade') ∨
      ∃ id order, s.orders.get? id = some order ∧ order.orderKind ≠ .entry ∧
        trade.localOrderId = some (order.parentOrderId.getD order.orderId) := by
  cases h with
  | @syncEntry id order hget hkind =>
    have hother : t.target (.syncEntryOrder order none) ≠ some k := by simp [Tracker.target]
    exact Or.inl (Tracker.perform_outcome hrow hother)
  | @syncBracket id order hget hkind => exact Or.inl (Tracker.syncBracketState_outcome order hrow)
  | fee hknown hfound feeUsdc =>
    exact Or.inl (Tracker.modifyTrade_outcome (fun _ => Trade.chargeFee_outcome _ _ _) hrow)
  | @close id order hget hkind exitPrice reason now =>
    by_cases horder : trade.localOrderId = some (order.parentOrderId.getD order.orderId)
    · exact Or.inr ⟨id, order, hget, hkind, horder⟩
    · obtain ⟨trade', hrow', -, hother⟩ :=
        (t.closeTradeForOrder_touches order exitPrice reason .closed now).rows k trade hrow
      exact Or.inl ⟨trade', hrow', by rw [hother horder]; exact .refl trade⟩

/-- The trades of the entries without a fill are open. -/
structure UnfilledOpen (x : Executor × Tracker) : Prop where
  recorded : Recorded x
  priced : x.1.FillsPriced
  isOpen : ∀ e entry, x.1.orders.get? e = some entry → entry.orderKind = .entry →
    entry.averageFillPrice = none → ∀ k trade, x.2.getTrade k = some trade →
      trade.localOrderId = some e → trade.isOpen = true

/-- An exit is never that of an entry without a fill. -/
lemma Executor.Related.exit_of_filled {s : Executor} (hs : s.Related) (hpriced : s.FillsPriced)
    {id : OrderId} {order : Order} (hget : s.orders.get? id = some order)
    (hkind : order.orderKind ≠ .entry) {entry : Order}
    (hparent : s.orders.get? (order.parentOrderId.getD order.orderId) = some entry)
    (hentry : entry.orderKind = .entry) : entry.averageFillPrice ≠ none := by
  intro hnone
  cases hbracket : order.orderKind.isBracket with
  | true =>
    obtain ⟨e, x, hid, hx, -, hids⟩ := hs.parent_of_child hget hbracket
    rw [hid, Option.getD_some, hx] at hparent
    obtain rfl := Option.some.inj hparent
    have hprice := (hpriced e x hx).bracketed hids
    rw [hnone] at hprice
    contradiction
  | false =>
    rw [(hs.root id order hget hbracket).1, Option.getD_none, hs.keyed id order hget, hget] at hparent
    rw [Option.some.inj hparent] at hkind
    exact hkind hentry

lemma UnfilledOpen.evolution {x y : Executor × Tracker} (h : Evolution cfg x y)
    (hx : UnfilledOpen x) : UnfilledOpen y := by
  have hrecorded := hx.recorded.evolution h
  cases h with
  | @change s s' t hchange =>
    have hchanges : Changes cfg s s' := .single hchange
    have hacc := hx.recorded.related.accounted
    refine ⟨hrecorded, hchanges.fillsPriced hacc hx.priced, ?_⟩
    intro e entry' hget' hkind hnever k trade hrow horder
    -- an order whose id the ledger knows is an old one
    obtain ⟨entry, hget⟩ := (hchanges.old_or_new hacc hget').resolve_right
      (hx.recorded.drawn k trade e hrow horder).not_ge
    obtain ⟨o', ho', hterms, -⟩ := hchanges.follows hacc e entry hget
    obtain rfl := Option.some.inj (hget'.symm.trans ho')
    exact hx.isOpen e entry hget (hterms.orderKind ▸ hkind)
      (hchanges.neverFilled_before hacc hx.priced hget hget' hnever) k trade hrow horder
  | @ledger s t t' hstep =>
    refine ⟨hrecorded, hx.priced, ?_⟩
    intro e entry hget hkind hnever k trade' hrow' horder
    cases hstep with
    | book hbook =>
      obtain ⟨_, -, htouches⟩ := hbook.touches
      obtain ⟨trade, hrow, hterms, -⟩ := htouches.row_before hrow'
      have horder' : trade.localOrderId = some e := hterms.localOrderId ▸ horder
      have hopen := hx.isOpen e entry hget hkind hnever k trade hrow horder'
      rcases hbook.row_outcome hrow with ⟨trade'', hrow'', hsame⟩ | ⟨id, order, hget', hkind', hexit⟩
      · obtain rfl := Option.some.inj (hrow'.symm.trans hrow'')
        rw [← hopen, Trade.isOpen, Trade.isOpen, hsame.status]
      · rw [horder', Option.some.injEq] at hexit
        exact absurd hnever (hx.recorded.related.exit_of_filled hx.priced hget' hkind' (hexit ▸ hget) hkind)
    | @insert id order hget' edge size now =>
      rcases (Tracker.getTrade_insertTrade edge size order now t).2 k trade' hrow' with
        hold | ⟨-, -, hopen⟩
      · exact hx.isOpen e entry hget hkind hnever k trade' hold horder
      · rw [Trade.isOpen, hopen]
        rfl
    | @phantom j trade hrow hphantom now =>
      rw [Tracker.getTrade_closePhantom now hrow] at hrow'
      split_ifs at hrow' with hk
      · obtain rfl := Option.some.inj hrow'
        replace horder : trade.localOrderId = some e := horder
        replace hget : s.orders.get? e = some entry := hget
        simp [isPhantom, horder, hget] at hphantom
      · exact hx.isOpen e entry hget hkind hnever k trade' hrow' horder

/-- At the end of every session. -/
lemma lifetime_unfilledOpen (st : Settings) (files : Files) (sessions : List Session) :
    UnfilledOpen ((lifetime st files sessions).executor, (lifetime st files sessions).tracker) := by
  rcases List.eq_nil_or_concat sessions with rfl | ⟨sessions, session, rfl⟩
  · refine ⟨lifetime_recorded st files [], ?_, ?_⟩
    · rintro id o ⟨⟩
    · rintro e entry ⟨⟩
  · have hrecorded := lifetime_recorded st files sessions
    rw [List.concat_eq_append, lifetime, List.foldl_append]
    have hstart : UnfilledOpen ((lifetime st files sessions).executor.restart,
        (lifetime st files sessions).tracker) := by
      refine ⟨⟨Executor.restart_related _, hrecorded.drawn⟩, ?_, ?_⟩
      · rintro id o ⟨⟩
      · rintro e entry ⟨⟩
    have hevolves : Evolves st.cfg _ _ :=
      AgentRun.run_evolves st ⟨(lifetime st files sessions).restart st session.1, []⟩ session.2
    have hrun : ∀ y, Evolves st.cfg ((lifetime st files sessions).executor.restart,
        (lifetime st files sessions).tracker) y → UnfilledOpen y := by
      intro y hy
      induction hy with
      | refl => exact hstart
      | tail _ hstep ih => exact ih.evolution hstep
    exact hrun _ hevolves

/-- The trade of an entry that was cancelled or has expired without a fill counts for as long as the
process lives. -/
theorem dead_entry_counts (st : Settings) (files : Files) (sessions : List Session) {e : OrderId}
    {entry : Order} {k : TradeId} {trade : Trade} :
    let a := lifetime st files sessions
    a.executor.orders.get? e = some entry → entry.orderKind = .entry → entry.NeverFilled →
    entry.status = .cancelled ∨ entry.status = .expired →
    a.tracker.getTrade k = some trade → trade.localOrderId = some e →
    trade.entryOrderStatus = some entry.status → trade.filledSizeUsdc = some entry.filledSizeUsdc →
    a.tracker.Counts k trade ∧ ¬ a.tracker.Ignores k := by
  intro a hget hkind hnever _ hrow horder _ hfilled
  have hopen := (lifetime_unfilledOpen st files sessions).isOpen e entry hget hkind hnever.2 k trade
    hrow horder
  have hcounts := Tracker.counts_of_open hrow hopen (by rw [hfilled, hnever.1])
  exact ⟨hcounts, hcounts.not_ignores⟩

/-- An agent whose paper entries wait for a fill. -/
def patient : Settings :=
  { bold with
    deployment := { cfg := { paperFillOnPlace := false }, projectRoot := ["app"], cwd := ["app"] }
    sizing := { bold.sizing with maxPositionPct := 1 / 20, maxPortfolioPct := 1 / 5 } }

/-- A session in which an entry is placed, and is cancelled two days later without a fill. -/
def waitingSession : Session :=
  (0, [.cycle (cycleAt 0) (delivering [coinMarket] [headsEdge]),
    .cycle (cycleAt 172800000000) (delivering [(coinMarket.1, none)] [])])

def waited : AgentState := lifetime patient (fun _ => none) [waitingSession]

lemma waited_deadEntry : ∃ entry trade, waited.executor.orders.get? 0 = some entry ∧
    entry.orderKind = .entry ∧ entry.NeverFilled ∧ entry.status = .cancelled ∧
    waited.tracker.getTrade 0 = some trade ∧ trade.isOpen = true ∧ trade.localOrderId = some 0 ∧
    trade.entryOrderStatus = some entry.status ∧ trade.filledSizeUsdc = some entry.filledSizeUsdc := by
  have hentry : (waited.executor.orders.get? 0).any (fun o => o.orderKind = .entry ∧
      o.filledSizeUsdc = 0 ∧ o.averageFillPrice = none ∧ o.status = .cancelled) = true := by
    decide +kernel
  have htrade : (waited.tracker.getTrade 0).any (fun trade => trade.isOpen = true ∧
      trade.localOrderId = some 0 ∧ trade.entryOrderStatus = some .cancelled ∧
      trade.filledSizeUsdc = some 0) = true := by decide +kernel
  obtain ⟨entry, hget, hfacts⟩ := (Option.any_eq_true _ _).mp hentry
  obtain ⟨trade, hrow, hfacts'⟩ := (Option.any_eq_true _ _).mp htrade
  obtain ⟨hkind, hfilled, haverage, hstatus⟩ := of_decide_eq_true hfacts
  obtain ⟨hopen, horder, hsynced, hsize⟩ := of_decide_eq_true hfacts'
  exact ⟨entry, trade, hget, hkind, ⟨hfilled, haverage⟩, hstatus, hrow, hopen, horder,
    hstatus ▸ hsynced, hfilled ▸ hsize⟩

/-- The theorem for the entry that waited. -/
theorem dead_entry_counts_waited : ∃ trade, waited.tracker.getTrade 0 = some trade ∧
    waited.tracker.Counts 0 trade ∧ ¬ waited.tracker.Ignores 0 := by
  obtain ⟨entry, trade, hget, hkind, hnever, hstatus, hrow, -, horder, hsynced, hsize⟩ :=
    waited_deadEntry
  exact ⟨trade, hrow, dead_entry_counts patient (fun _ => none) [waitingSession] hget hkind hnever
    (Or.inl hstatus) hrow horder hsynced hsize⟩

/-- The entry is dead and the ledger knows it, but the position is still there. -/
theorem dead_entry_not_ignored : ∃ entry trade, waited.executor.orders.get? 0 = some entry ∧
    entry.NeverFilled ∧ entry.status = .cancelled ∧ waited.tracker.getTrade 0 = some trade ∧
    trade.localOrderId = some 0 ∧ trade.entryOrderStatus = some entry.status ∧
    ¬ waited.tracker.Ignores 0 := by
  obtain ⟨entry, trade, hget, -, hnever, hstatus, hrow, hopen, horder, hsynced, hsize⟩ :=
    waited_deadEntry
  refine ⟨entry, trade, hget, hnever, hstatus, hrow, horder, hsynced, ?_⟩
  exact (Tracker.counts_of_open hrow hopen (by rw [hsize, hnever.1])).not_ignores

end PolyCortex
