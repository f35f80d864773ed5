import PolyCortex.Agent.Charges
import PolyCortex.Agent.DeadEntries

/-!
# Fees and fills

The fee of an exit is charged when the trade is closed. Together with what was charged for the entry it
is the fee on the fills if and only if the entry was booked in full (`session_feesFollowFills_iff`).
-/

namespace PolyCortex

open Relation

variable {st : Settings} {input : CycleInput} {order entry : Order} {e : OrderId} {k : TradeId}
  {trade : Trade} {a b : AgentState} {event : OrderLifecycleEvent}

/-- The entry is booked as it was filled: on paper with that size, and live with its completion. -/
def Trade.BookedInFull (entry : Order) (trade : Trade) : Prop :=
  if entry.isPaper then entry.filledSizeUsdc = trade.sizeUsdc
  else trade.entryOrderStatus = some .filled ∨ entry.filledSizeUsdc = 0

/-- A cycle that begins in `a` comes to book the exit `order` of the open trade `k` of the entry `e`, in
the state `b`. -/
structure ExitDue (st : Settings) (input : CycleInput) (a b : AgentState) (event : OrderLifecycleEvent)
    (order : Order) (e : OrderId) (entry : Order) (k : TradeId) (trade : Trade) : Prop where
  reported : ∃ books before later s, (reconcileOrders st.cfg books input.reconcileAt).Returns a.executor
    (before ++ event :: later) s ∧ b = (bookEvents st input 0 before { a with executor := s }).2
  exits : event.eventType = .exitFilled
  snapshot : b.executor.orders.get? event.orderSnapshot = some order
  parent : order.parentOrderId = some e
  entry : b.executor.orders.get? e = some entry
  found : b.tracker.getTradeIdForOrder e = some k
  row : b.tracker.getTrade k = some trade
  isOpen : trade.isOpen = true

/-- The fee of a trade whose entry was never filled. -/
lemma UnfilledOpen.fee_eq_zero_iff (hopen : UnfilledOpen (a.executor, a.tracker)) (ha : Billed st a)
    (hget : a.executor.orders.get? e = some entry) (hkind : entry.orderKind = .entry)
    (hnever : entry.NeverFilled) (hfound : a.tracker.getTradeIdForOrder e = some k)
    (hrow : a.tracker.getTrade k = some trade) :
    trade.feeUsdc = 0 ↔ st.takerFeeRate = 0 ∨ entry.isPaper = false := by
  obtain ⟨x, hx, horder⟩ := Tracker.getTrade_of_getTradeIdForOrder hfound
  obtain rfl := Option.some.inj (hrow.symm.trans hx)
  have hcharged := ha.charged e entry k trade hget hkind hfound hrow
    (hopen.isOpen e entry hget hkind hnever.2 k trade hrow horder)
  cases hpaper : entry.isPaper with
  | true =>
    rw [hcharged.fee_of_paper hpaper]
    simp [hcharged.size_pos.ne']
  | false =>
    have hwaits : entry.status ≠ .filled := fun hfilled =>
      ((ha.recorded.related.accounted e entry hget).filled_pos hkind hfilled).ne' hnever.1
    rw [hcharged.fee, entryFee, hpaper, if_neg (by simp), if_neg fun h => hwaits (hcharged.told h)]
    simp

/-- The fee of a trade that is closed for its exit. -/
lemma Trade.Charged.followsFills_iff (h : trade.Charged st entry) (hrate : 0 ≤ st.takerFeeRate)
    (hentry : entry.status = .filled → 0 < entry.filledSizeUsdc) {exit : Order}
    (hexit : 0 < exit.filledSizeUsdc) :
    trade.feeUsdc + takerFee st exit =
        st.takerFeeRate * entry.filledSizeUsdc + st.takerFeeRate * exit.filledSizeUsdc ↔
      st.takerFeeRate = 0 ∨ trade.BookedInFull entry := by
  rw [takerFee_of_pos st hexit, abs_of_nonneg hrate, mul_comm exit.filledSizeUsdc, add_left_inj,
    Trade.BookedInFull, h.fee, entryFee]
  split_ifs with hpaper htold
  · rw [mul_comm, mul_eq_mul_left_iff, or_comm, eq_comm (a := trade.sizeUsdc)]
  · rw [takerFee_of_pos st (hentry (h.told htold)), abs_of_nonneg hrate, mul_comm]
    simp [htold]
  · rw [eq_comm, mul_eq_zero]
    simp [htold]

/-- Booking the exit charges its fee and closes the trade. -/
lemma ExitDue.closes (h : ExitDue st input a b event order e entry k trade) (ha : Billed st a)
    (hrelated : a.executor.Related) (hwhole : a.executor.ChildrenWhole)
    (hfunded : a.executor.Children Order.Funded) (hinput : ∀ n, input.failure n = none) :
    (∃ trade', (bookEvent st input none event b).2.tracker.getTrade k = some trade' ∧
        trade'.isOpen = false ∧ trade'.feeUsdc = trade.feeUsdc + takerFee st order) ∧
      0 < order.filledSizeUsdc ∧ (entry.status = .filled → 0 < entry.filledSizeUsdc) ∧
      trade.Charged st entry := by
  obtain ⟨⟨books, before, later, s, hreturns, rfl⟩, hexits, horder, hparent, hentry, hfound, hrow,
    hopen⟩ := h
  have hexecutor := (bookEvents_booksOnly st input 0 before { a with executor := s }).executor
  rw [hexecutor] at horder hentry
  replace horder : s.orders.get? event.orderSnapshot = some order := horder
  replace hentry : s.orders.get? e = some entry := hentry
  have hchanges : Changes st.cfg a.executor s :=
    changes_of_returns ⟨.reconcileOrders books, { now := _ }⟩ (hreturns.map OpResult.events)
  have hacc := hrelated.accounted
  have hrelated' := hchanges.related hrelated
  -- the child is filled, and its parent is an entry
  obtain ⟨t, -, hpass⟩ := hreturns.meets (t := [])
    (reconcileOrders_exits books _ hrelated.keyed hacc hwhole) (fun _ => trivial) fun _ _ => trivial
  obtain ⟨x, hx, hbracket, hfilled⟩ := (hpass event (by simp) _ ⟨hexits, rfl⟩).1
  obtain rfl := Option.some.inj (horder.symm.trans hx)
  have hkind : entry.orderKind = .entry := by
    obtain ⟨e', x, hid, hx, hkind, -⟩ := hrelated'.parent_of_child horder hbracket
    obtain rfl := Option.some.inj (hparent.symm.trans hid)
    rwa [Option.some.inj (hentry.symm.trans hx)]
  have hcharged := FeesCharged.bookEvents (a := { a with executor := s }) hinput hrelated'.keyed
    (ha.charged.changes ha.recorded hchanges) 0 before
  have hfunded' := hchanges.children childInvariant_funded hacc hfunded _ order horder hbracket
  refine ⟨?_, hfunded'.filled hfilled,
    (hrelated'.accounted e entry hentry).filled_pos hkind,
    hcharged e entry k trade hentry hkind hfound hrow hopen⟩
  have hbook : bookEvent st input none event (bookEvents st input 0 before { a with executor := s }).2 =
      bookExit st input none event order (bookEvents st input 0 before { a with executor := s }).2 := by
    rw [bookEvent, hexecutor]
    dsimp only
    rw [horder]
    dsimp only
    rw [if_neg]
    rintro hkind'
    rw [hkind'] at hbracket
    contradiction
  rw [hbook]
  have hfound' : (bookEvents st input 0 before { a with executor := s }).2.tracker.getTradeIdForOrder
      (order.parentOrderId.getD order.orderId) = some k := by
    rw [hparent]
    exact hfound
  obtain ⟨trade', hrow', hclosed, -, hfee⟩ := (bookExit_recorded st input hexits hrow hfound').closed
  exact ⟨trade', hrow', hclosed, hfee⟩

/-- In a session without database failures the trade of an entry without a fill has no fee if and only
if the entry is a live one, and the fee of a trade that is closed for its exit is that of the fills if
and only if the entry was booked in full, unless there are no fees. -/
theorem session_feesFollowFills_iff (st : Settings) (files : Files) (sessions : List Session)
    (now : Time) {moves : List AgentMove} (hmoves : ∀ move ∈ moves, move.Unfailing) :
    let a := (lifetime st files sessions).session st (now, moves)
    (∀ e entry k trade, a.executor.orders.get? e = some entry → entry.orderKind = .entry →
      entry.NeverFilled → a.tracker.getTradeIdForOrder e = some k → a.tracker.getTrade k = some trade →
        (trade.feeUsdc = 0 ↔ st.takerFeeRate = 0 ∨ entry.isPaper = false)) ∧
    (0 ≤ st.takerFeeRate → ∀ input b event order e entry k trade,
      (∀ n, input.failure n = none) → ExitDue st input a b event order e entry k trade →
        ∃ trade', (bookEvent st input none event b).2.tracker.getTrade k = some trade' ∧
          trade'.isOpen = false ∧
          (trade'.feeUsdc =
              st.takerFeeRate * entry.filledSizeUsdc + st.takerFeeRate * order.filledSizeUsdc ↔
            st.takerFeeRate = 0 ∨ trade.BookedInFull entry)) := by
  intro a
  have hbilled := session_billed st files sessions now hmoves
  constructor
  · intro e entry k trade hget hkind hnever hfound hrow
    have hopen := lifetime_unfilledOpen st files (sessions ++ [(now, moves)])
    rw [lifetime, List.foldl_append] at hopen
    exact UnfilledOpen.fee_eq_zero_iff hopen hbilled hget hkind hnever hfound hrow
  · intro hrate input b event order e entry k trade hinput hdue
    obtain ⟨hrelated, hwhole⟩ := session_orders st (lifetime st files sessions) (now, moves)
    have hfunded : a.executor.Children Order.Funded := by
      have hstart := Executor.restart_related (lifetime st files sessions).executor
      have hrun := AgentRun.run_evolves st ⟨(lifetime st files sessions).restart st now, []⟩ moves
      exact hrun.changes.children childInvariant_funded hstart.accounted (by rintro c o ⟨⟩)
    obtain ⟨⟨trade', hrow', hclosed, hfee⟩, horder, hentry, hcharged⟩ :=
      hdue.closes hbilled hrelated hwhole hfunded hinput
    exact ⟨trade', hrow', hclosed, hfee ▸ hcharged.followsFills_iff hrate hentry horder⟩

/-- The agent when it comes to book the stop-loss of the pass. -/
def dueAgent : AgentState :=
  (bookEvents bold (cycleAt 120000000) 0 (crashPass.result.take 1) crashedAgent).2

lemma dueAgent_exitDue : ∃ event order entry trade,
    ExitDue bold (cycleAt 120000000) stoppedAgent dueAgent event order 0 entry 0 trade ∧
      trade.BookedInFull entry := by
  have hevent : (crashPass.result[1]?).any (fun event => event.eventType = .exitFilled ∧
      event.orderSnapshot = 3) = true := by decide +kernel
  have horder : (dueAgent.executor.orders.get? 3).any (fun o => o.parentOrderId = some 0) = true := by
    decide +kernel
  have hentry : (dueAgent.executor.orders.get? 0).any (fun o => o.isPaper = true ∧
      o.filledSizeUsdc = 25) = true := by decide +kernel
  have htrade : (dueAgent.tracker.getTrade 0).any (fun trade => trade.isOpen = true ∧
      trade.sizeUsdc = 25) = true := by decide +kernel
  obtain ⟨event, hget, hfacts⟩ := (Option.any_eq_true _ _).mp hevent
  obtain ⟨order, ho, hparent⟩ := (Option.any_eq_true _ _).mp horder
  obtain ⟨entry, he, hfacts'⟩ := (Option.any_eq_true _ _).mp hentry
  obtain ⟨trade, hrow, hfacts''⟩ := (Option.any_eq_true _ _).mp htrade
  obtain ⟨hexits, hsnapshot⟩ := of_decide_eq_true hfacts
  obtain ⟨hpaper, hfilled⟩ := of_decide_eq_true hfacts'
  obtain ⟨hopen, hsize⟩ := of_decide_eq_true hfacts''
  obtain ⟨hlt, hat⟩ := List.getElem?_eq_some_iff.mp hget
  have hsplit : crashPass.result = crashPass.result.take 1 ++ event :: crashPass.result.drop 2 := by
    rw [← hat, ← List.drop_eq_getElem_cons hlt, List.take_append_drop]
  have hpass : (reconcileOrders bold.cfg (marketBooks crashedBooks)
      (cycleAt 120000000).reconcileAt).Returns stoppedAgent.executor crashPass.result crashPass.state :=
    Coroutine.run_returns _ _ _
  rw [hsplit] at hpass
  refine ⟨event, order, entry, trade, ⟨⟨_, _, _, _, hpass, rfl⟩, hexits, hsnapshot ▸ ho,
    of_decide_eq_true hparent, he, by decide +kernel, hrow, hopen⟩, ?_⟩
  rw [Trade.BookedInFull, if_pos hpaper, hfilled, hsize]

/-- The theorem at a stop-loss of a filled entry, and at an entry that is never filled. -/
theorem session_feesFollowFills_iff_coin :
    (∃ event order entry trade', dueAgent.executor.orders.get? event.orderSnapshot = some order ∧
      dueAgent.executor.orders.get? 0 = some entry ∧
      (bookEvent bold (cycleAt 120000000) none event dueAgent).2.tracker.getTrade 0 = some trade' ∧
      trade'.isOpen = false ∧
      trade'.feeUsdc = bold.takerFeeRate * entry.filledSizeUsdc + bold.takerFeeRate * order.filledSizeUsdc) ∧
    ∃ trade, waited.tracker.getTrade 0 = some trade ∧ trade.feeUsdc ≠ 0 := by
  constructor
  · obtain ⟨event, order, entry, trade, hdue, hfull⟩ := dueAgent_exitDue
    have hmoves : ∀ move ∈ firstSession.2, move.Unfailing := by
      simp [firstSession, AgentMove.Unfailing, cycleAt]
    obtain ⟨trade', hrow, hclosed, hiff⟩ := (session_feesFollowFills_iff bold (fun _ => none) [] 0
      hmoves).2 (by norm_num [bold]) _ _ _ _ _ _ _ _ (fun _ => rfl) hdue
    exact ⟨event, order, entry, trade', hdue.snapshot, hdue.entry, hrow, hclosed,
      hiff.mpr (Or.inr hfull)⟩
  · obtain ⟨entry, trade, hget, hkind, hnever, -, hrow, -⟩ := waited_deadEntry
    have hmoves : ∀ move ∈ waitingSession.2, move.Unfailing := by
      simp [waitingSession, AgentMove.Unfailing, cycleAt]
    have hpaper : (waited.executor.orders.get? 0).any (fun o => o.isPaper = true) = true := by
      decide +kernel
    obtain ⟨x, hx, hfacts⟩ := (Option.any_eq_true _ _).mp hpaper
    obtain rfl := Option.some.inj (hget.symm.trans hx)
    have hiff := (session_feesFollowFills_iff patient (fun _ => none) [] 0 hmoves).1 0 entry 0 trade hget
      hkind hnever (by decide +kernel) hrow
    refine ⟨trade, hrow, fun hzero => ?_⟩
    rcases hiff.mp hzero with hrate | hlive
    · norm_num [patient, bold] at hrate
    · rw [of_decide_eq_true hfacts] at hlive
      contradiction

/-- An entry that was never filled has been charged for. -/
theorem unfilled_entry_charged : ∃ entry trade, waited.executor.orders.get? 0 = some entry ∧
    entry.orderKind = .entry ∧ entry.NeverFilled ∧ waited.tracker.getTradeIdForOrder 0 = some 0 ∧
    waited.tracker.getTrade 0 = some trade ∧ trade.feeUsdc ≠ 0 := by
  obtain ⟨entry, trade, hget, hkind, hnever, -, hrow, -⟩ := waited_deadEntry
  have hfee : (waited.tracker.getTrade 0).any (fun trade => trade.feeUsdc = 1 / 10) = true := by
    decide +kernel
  obtain ⟨x, hx, hfacts⟩ := (Option.any_eq_true _ _).mp hfee
  obtain rfl := Option.some.inj (hrow.symm.trans hx)
  refine ⟨entry, trade, hget, hkind, hnever, by decide +kernel, hrow, ?_⟩
  rw [of_decide_eq_true hfacts]
  norm_num

end PolyCortex
