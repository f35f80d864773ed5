import PolyCortex.Agent.Sessions
import PolyCortex.Execution.ExitEvents
import PolyCortex.Tracking.Records

/-!
# Booking a filled exit

The fee of an exit, the closed trade and the PnL of the day are written one after the other. A failure
in between is not made up for: the child is filled, and no later pass reports it again
(`bookEvent_exit_iff`).
-/

namespace PolyCortex

open Coroutine Relation

variable {cfg : Config} {st : Settings} {input : CycleInput} {event : OrderLifecycleEvent}
  {order : Order} {id : OrderId} {k : TradeId} {trade : Trade} {a a' : AgentState}

/-- Some later pass reports the exit again, whatever the executor goes through before it. -/
def Executor.ReportsAgain (cfg : Config) (s : Executor) (id : OrderId) : Prop :=
  ∃ s₁, Changes cfg s s₁ ∧ ∃ books now events s₂,
    (reconcileOrders cfg books now).Returns s₁ events s₂ ∧ ∃ event ∈ events, event.Exits id

/-- What the trade has earned, with the fee of the exit. -/
def exitPnl (st : Settings) (event : OrderLifecycleEvent) (order : Order) (trade : Trade) : ℚ :=
  (trade.chargeFee (takerFee st order) 0).closingPnl (Tracker.exitPriceOf event.fillPrice order)

/-- The exit is in the books. -/
structure ExitRecorded (st : Settings) (input : CycleInput) (event : OrderLifecycleEvent)
    (order : Order) (k : TradeId) (trade : Trade) (a a' : AgentState) : Prop where
  closed : ∃ trade', a'.tracker.getTrade k = some trade' ∧ trade'.isOpen = false ∧
    trade'.pnl = some (exitPnl st event order trade) ∧
    trade'.feeUsdc = trade.feeUsdc + takerFee st order
  daily : a'.drawdown.pnlOn input.bookingAt =
    a.drawdown.pnlOn input.bookingAt + exitPnl st event order trade

/-- Nothing of the exit is in the books. -/
structure ExitUnrecorded (k : TradeId) (trade : Trade) (a a' : AgentState) : Prop where
  open_ : ∃ trade', a'.tracker.getTrade k = some trade' ∧ trade.SameOutcome trade' ∧
    trade'.feeUsdc = trade.feeUsdc
  daily : a'.drawdown = a.drawdown

/-- The exit is booked as a whole, or not at all and once more, and the trade does not stay open. -/
structure BooksExit (st : Settings) (input : CycleInput) (event : OrderLifecycleEvent)
    (order : Order) (id : OrderId) (k : TradeId) (trade : Trade) (a a' : AgentState) : Prop where
  booked : ExitRecorded st input event order k trade a a' ∨
    (ExitUnrecorded k trade a a' ∧ a'.executor.ReportsAgain st.cfg id)
  closable : ∃ x, Evolves st.cfg (a'.executor, a'.tracker) x ∧
    ∃ trade', x.2.getTrade k = some trade' ∧ trade'.isOpen = false

/-! ### Exits are reported once -/

lemma session_orders (st : Settings) (a : AgentState) (session : Session) :
    (a.session st session).executor.Related ∧ (a.session st session).executor.ChildrenWhole := by
  have hrelated := Executor.restart_related a.executor
  have hchanges : Changes st.cfg a.executor.restart (a.session st session).executor :=
    (AgentRun.run_evolves st ⟨a.restart st session.1, []⟩ session.2).changes
  exact ⟨hchanges.related hrelated, hchanges.childrenWhole hrelated.accounted (by rintro c o ⟨⟩)⟩

/-- A child that is filled is not reported. -/
lemma not_reportsAgain {s : Executor} (hrelated : s.Related) (hwhole : s.ChildrenWhole)
    (hexited : s.HasExited id) : ¬ s.ReportsAgain cfg id := by
  rintro ⟨s₁, hchanges, books, now, events, s₂, hreturns, event, hevent, hexits⟩
  have hrelated₁ := hchanges.related hrelated
  obtain ⟨t, -, hpass⟩ := hreturns.meets (t := []) (reconcileOrders_exits books now hrelated₁.keyed
    hrelated₁.accounted (hchanges.childrenWhole hrelated.accounted hwhole)) (fun _ => trivial)
    fun _ _ => trivial
  exact (hpass event hevent id hexits).2 (hexited.changes hrelated.accounted hchanges)

/-! ### What is booked -/

/-- The part of the booking before the close. -/
lemma chargeExitFee_row (st : Settings) {t : Tracker} (hrow : t.getTrade k = some trade)
    (hfound : t.getTradeIdForOrder (order.parentOrderId.getD order.orderId) = some k) :
    ∃ trade', (chargeExitFee st order (t.syncBracketState order)).getTrade k = some trade' ∧
      trade.SameOutcome trade' ∧ trade'.feeUsdc = trade.feeUsdc + takerFee st order ∧
      (∀ price, trade'.closingPnl price =
        (trade.chargeFee (takerFee st order) 0).closingPnl price) ∧
      (chargeExitFee st order (t.syncBracketState order)).getTradeIdForOrder
        (order.parentOrderId.getD order.orderId) = some k := by
  have hsync := t.syncBracketState_touches order
  have hfound' := (hsync.getTradeIdForOrder (order.parentOrderId.getD order.orderId)).trans hfound
  have hrow' : ∃ row, (t.syncBracketState order).getTrade k = some row ∧
      (row = trade.syncBracket order ∨ row = trade) := by
    rw [Tracker.getTrade_syncBracketState, hrow, Option.map_some]
    split_ifs
    · exact ⟨_, rfl, Or.inl rfl⟩
    · exact ⟨_, rfl, Or.inr rfl⟩
  obtain ⟨row, hget, hcases⟩ := hrow'
  have hcharged := Tracker.recordFee_touches (.refl _ (t.syncBracketState order)) hfound'
    (takerFee st order) 0
  rw [chargeExitFee, hfound']
  dsimp only
  refine ⟨row.chargeFee (takerFee st order) 0, ?_, ?_, ?_, ?_, ?_⟩
  · rw [Tracker.recordFee, Tracker.getTrade_modifyTrade_self, hget, Option.map_some]
  · rcases hcases with rfl | rfl
    · exact (trade.syncBracket_outcome order).trans (Trade.chargeFee_outcome _ _ _)
    · exact Trade.chargeFee_outcome _ _ _
  · rcases hcases with rfl | rfl <;> rfl
  · rcases hcases with rfl | rfl <;> exact fun _ => rfl
  · rw [hcharged.getTradeIdForOrder, hfound']

/-- Without a failure an exit is charged for, and its trade is closed. -/
lemma bookExit_of_exit (st : Settings) (input : CycleInput) (hexit : event.eventType = .exitFilled)
    (order : Order) (a : AgentState) :
    bookExit st input none event order a = (true, closeForExit input none event order
      { a with tracker := chargeExitFee st order (a.tracker.syncBracketState order) }) := by
  rw [bookExit, if_neg (by simp), if_pos hexit, if_neg (by simp), if_neg (by simp), if_neg (by simp)]

/-- Without a failure the exit is recorded. -/
lemma bookExit_recorded (st : Settings) (input : CycleInput) (hexit : event.eventType = .exitFilled)
    (hrow : a.tracker.getTrade k = some trade)
    (hfound : a.tracker.getTradeIdForOrder (order.parentOrderId.getD order.orderId) = some k) :
    ExitRecorded st input event order k trade a (bookExit st input none event order a).2 := by
  obtain ⟨row, hget, -, hfee, hpnl, hfound'⟩ := chargeExitFee_row st hrow hfound
  generalize hreason : (if event.message = "" then order.orderKind.text else event.message) = reason
  obtain ⟨hvalue, trade', hrow', hstatus, hbooked, hfee', -⟩ :=
    Tracker.closeTradeForOrder_row hget hfound' event.fillPrice reason .closed input.bookingAt
  rw [hpnl] at hvalue hbooked
  have hclosed : trade'.isOpen = false := by rw [Trade.isOpen, hstatus]; rfl
  rw [bookExit_of_exit st input hexit]
  dsimp only
  rw [closeForExit, if_neg (by simp)]
  dsimp only
  rw [hreason, hvalue]
  by_cases hzero : exitPnl st event order trade = 0
  · rw [exitPnl] at hzero
    rw [if_neg (not_not.mpr hzero)]
    refine ⟨⟨trade', hrow', hclosed, hbooked, hfee'.trans hfee⟩, ?_⟩
    rw [exitPnl, hzero, add_zero]
  · rw [exitPnl] at hzero
    rw [if_pos hzero]
    exact ⟨⟨trade', hrow', hclosed, hbooked, hfee'.trans hfee⟩,
      DrawdownController.pnlOn_recordTradePnl _ _⟩

/-- With a failure the trade is not closed. -/
lemma bookExit_failed (st : Settings) (input : CycleInput) (failure : DbCall)
    (hexit : event.eventType = .exitFilled) (hrow : a.tracker.getTrade k = some trade)
    (hfound : a.tracker.getTradeIdForOrder (order.parentOrderId.getD order.orderId) = some k) :
    ∃ trade', (bookExit st input (some failure) event order a).2.tracker.getTrade k = some trade' ∧
      trade.SameOutcome trade' := by
  obtain ⟨row, hget, hsame, -⟩ := chargeExitFee_row st hrow hfound
  have hsync := Tracker.syncBracketState_outcome order hrow
  have hfound' := (a.tracker.syncBracketState_touches order).getTradeIdForOrder
    (order.parentOrderId.getD order.orderId) |>.trans hfound
  rw [bookExit]
  cases failure with
  | sync => exact ⟨trade, hrow, .refl trade⟩
  | lookup => simpa [hexit] using hsync
  | recordFee => simpa [hexit, hfound'] using hsync
  | closeLookup => simpa [hexit] using ⟨row, hget, hsame⟩
  | close => simpa [hexit, closeForExit] using ⟨row, hget, hsame⟩

/-- A failure is not made up for. -/
lemma not_booksExit (st : Settings) (input : CycleInput) {failure : DbCall}
    (hexit : event.eventType = .exitFilled) (hrelated : a.executor.Related)
    (hwhole : a.executor.ChildrenWhole) (hexited : a.executor.HasExited id)
    (hrow : a.tracker.getTrade k = some trade) (hopen : trade.isOpen = true)
    (hfound : a.tracker.getTradeIdForOrder (order.parentOrderId.getD order.orderId) = some k)
    (hexecutor : (bookExit st input (some failure) event order a).2.executor = a.executor) :
    ¬ BooksExit st input event order id k trade a (bookExit st input (some failure) event order a).2 := by
  intro hbooks
  rcases hbooks.booked with hrecorded | ⟨-, hagain⟩
  · obtain ⟨trade', hrow', hclosed, -⟩ := hrecorded.closed
    obtain ⟨trade'', hrow'', hsame⟩ := bookExit_failed st input failure hexit hrow hfound
    obtain rfl := Option.some.inj (hrow'.symm.trans hrow'')
    rw [Trade.isOpen, hsame.status] at hclosed
    rw [Trade.isOpen, hclosed] at hopen
    contradiction
  · rw [hexecutor] at hagain
    exact not_reportsAgain hrelated hwhole hexited hagain

/-- A pass of a process that reports a filled exit. -/
structure ReportsExit (st : Settings) (before : AgentState) (session : Session) (s : Executor)
    (event : OrderLifecycleEvent) (id : OrderId) : Prop where
  reported : ∃ books now events, (reconcileOrders st.cfg books now).Returns
    (before.session st session).executor events s ∧ event ∈ events
  exits : event.Exits id

namespace ReportsExit

variable {before : AgentState} {session : Session} {s : Executor}

/-- The child is filled, and the orders hang together. -/
lemma hasExited (h : ReportsExit st before session s event id) :
    s.HasExited id ∧ s.Related ∧ s.ChildrenWhole := by
  obtain ⟨⟨books, now, events, hpass, hevent⟩, hexits⟩ := h
  obtain ⟨hrelated, hwhole⟩ := session_orders st before session
  obtain ⟨t, -, hreported⟩ := hpass.meets (t := []) (reconcileOrders_exits books now hrelated.keyed
    hrelated.accounted hwhole) (fun _ => trivial) fun _ _ => trivial
  have hchanges : Changes st.cfg (before.session st session).executor s :=
    changes_of_returns ⟨.reconcileOrders books, { now }⟩ (hpass.map OpResult.events)
  exact ⟨(hreported event hevent id hexits).1, hchanges.related hrelated,
    hchanges.childrenWhole hrelated.accounted hwhole⟩

/-- It is booked as the exit it is. -/
lemma bookEvent_eq (h : ReportsExit st before session s event id) (ha : a.executor = s)
    (hget : s.orders.get? id = some order) (input : CycleInput) (failure : Option DbCall) :
    bookEvent st input failure event a = bookExit st input failure event order a := by
  obtain ⟨o, hget', hkind, -⟩ := h.hasExited.1
  obtain rfl := Option.some.inj (hget.symm.trans hget')
  have hentry : order.orderKind ≠ .entry := by
    intro heq
    rw [heq] at hkind
    contradiction
  rw [bookEvent, h.exits.2, ha, hget]
  dsimp only
  rw [if_neg hentry]

end ReportsExit

/-- A filled exit is booked as a whole if no database call fails, and only then unless its trade was
closed before. -/
theorem bookEvent_exit_iff (st : Settings) (before : AgentState) (session : Session) {s : Executor}
    (hreports : ReportsExit st before session s event id) (input : CycleInput)
    (failure : Option DbCall) (a : AgentState) (ha : a.executor = s)
    (hget : s.orders.get? id = some order)
    (hfound : a.tracker.getTradeIdForOrder (order.parentOrderId.getD order.orderId) = some k)
    (hrow : a.tracker.getTrade k = some trade) :
    let a' := (bookEvent st input failure event a).2
    (failure = none → BooksExit st input event order id k trade a a') ∧
      (trade.isOpen = true → BooksExit st input event order id k trade a a' → failure = none) := by
  have hexecutor := (bookEvent_booksOnly st input failure event a).executor
  obtain ⟨hexited, hrelated, hwhole⟩ := hreports.hasExited
  rw [hreports.bookEvent_eq ha hget] at hexecutor ⊢
  subst ha
  constructor
  · rintro rfl
    have hrecorded := bookExit_recorded st input hreports.exits.1 hrow hfound
    obtain ⟨trade', hrow', hclosed, -⟩ := hrecorded.closed
    exact ⟨Or.inl hrecorded, _, .refl, trade', hrow', hclosed⟩
  · intro hopen hbooks
    cases failure with
    | none => rfl
    | some call =>
      exact absurd hbooks (not_booksExit st input hreports.exits.1 hrelated hwhole hexited hrow hopen
        hfound hexecutor)

/-- The pass in which the price of heads has fallen below the stop-loss. -/
def crashPass : Outcome Executor Request Reply (List OrderLifecycleEvent) :=
  (reconcileOrders bold.cfg (marketBooks crashedBooks) 120000000).run unreachable stoppedAgent.executor

/-- The agent when it books the events of the pass. -/
def crashedAgent : AgentState := { stoppedAgent with executor := crashPass.state }

lemma crashPass_reportsExit : ∃ event ∈ crashPass.result, event.Exits 3 ∧ ∃ order,
    crashPass.state.orders.get? 3 = some order ∧ order.parentOrderId = some 0 := by
  have hevent : crashPass.result.any (fun event => event.eventType = .exitFilled ∧
      event.orderSnapshot = 3) = true := by decide +kernel
  have horder : (crashPass.state.orders.get? 3).any (fun o => o.parentOrderId = some 0) = true := by
    decide +kernel
  obtain ⟨event, hmem, hexits⟩ := List.any_eq_true.mp hevent
  obtain ⟨order, hget, hparent⟩ := (Option.any_eq_true _ _).mp horder
  obtain ⟨htype, hid⟩ := of_decide_eq_true hexits
  exact ⟨event, hmem, ⟨htype, hid⟩, order, hget, of_decide_eq_true hparent⟩

lemma crashedAgent_row : crashedAgent.tracker.getTradeIdForOrder 0 = some 0 ∧
    ∃ trade, crashedAgent.tracker.getTrade 0 = some trade ∧ trade.isOpen = true := by
  have hrow : (crashedAgent.tracker.getTrade 0).any (·.isOpen) = true := by decide +kernel
  obtain ⟨trade, hrow, hopen⟩ := (Option.any_eq_true _ _).mp hrow
  exact ⟨by decide +kernel, trade, hrow, hopen⟩

/-- The theorem at a stop-loss. -/
theorem bookEvent_exit_stopLoss : ∃ event order trade, event ∈ crashPass.result ∧
    BooksExit bold (cycleAt 120000000) event order 3 0 trade crashedAgent
      (bookEvent bold (cycleAt 120000000) none event crashedAgent).2 := by
  obtain ⟨event, hmem, hexits, order, hget, hparent⟩ := crashPass_reportsExit
  obtain ⟨hfound, trade, hrow, -⟩ := crashedAgent_row
  have hreports : ReportsExit bold (AgentState.start bold 0 .init {} fun _ => none) firstSession
      crashPass.state event 3 := ⟨⟨_, _, _, run_returns _ _ _, hmem⟩, hexits⟩
  exact ⟨event, order, trade, hmem, (bookEvent_exit_iff bold _ _ hreports (cycleAt 120000000) none
    crashedAgent rfl hget (by rw [hparent]; exact hfound) hrow).1 rfl⟩

/-- The close fails after the fee is charged. -/
theorem bookEvent_exit_half : ∃ event order trade, event ∈ crashPass.result ∧ event.Exits 3 ∧
    crashPass.state.orders.get? 3 = some order ∧
    crashedAgent.tracker.getTrade 0 = some trade ∧ trade.isOpen = true ∧
    ¬ BooksExit bold (cycleAt 120000000) event order 3 0 trade crashedAgent
      (bookEvent bold (cycleAt 120000000) (some .close) event crashedAgent).2 := by
  obtain ⟨event, hmem, hexits, order, hget, hparent⟩ := crashPass_reportsExit
  obtain ⟨hfound, trade, hrow, hopen⟩ := crashedAgent_row
  have hreports : ReportsExit bold (AgentState.start bold 0 .init {} fun _ => none) firstSession
      crashPass.state event 3 := ⟨⟨_, _, _, run_returns _ _ _, hmem⟩, hexits⟩
  have hexecutor :=
    (bookEvent_booksOnly bold (cycleAt 120000000) (some .close) event crashedAgent).executor
  obtain ⟨hexited, hrelated, hwhole⟩ := hreports.hasExited
  refine ⟨event, order, trade, hmem, hexits, hget, hrow, hopen, ?_⟩
  rw [hreports.bookEvent_eq (a := crashedAgent) rfl hget] at hexecutor ⊢
  exact not_booksExit bold _ hexits.1 hrelated hwhole hexited hrow hopen
    (by rw [hparent]; exact hfound) hexecutor

end PolyCortex
