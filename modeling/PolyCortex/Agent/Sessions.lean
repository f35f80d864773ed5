import PolyCortex.Agent.Evolution
import PolyCortex.Agent.Emergency
import PolyCortex.Execution.Families
import PolyCortex.Execution.Restarts

/-!
# Sessions

A new process finds the trades in the database and no order. The stop-losses of the open trades are not
set up again, so that nothing closes them when their price is crossed (`restart_loses_stop`).
-/

namespace PolyCortex

open Coroutine Relation

variable {cfg : Config} {st : Settings}

/-- A new process on the old database. -/
def AgentState.restart (st : Settings) (now : Time) (a : AgentState) : AgentState :=
  AgentState.start st now a.executor.restart a.tracker a.files

/-- When a process starts, and what happens until it stops. -/
abbrev Session := Time × List AgentMove

/-- One session after the others. -/
def AgentState.session (st : Settings) (a : AgentState) (session : Session) : AgentState :=
  ((⟨a.restart st session.1, []⟩ : AgentRun).run st session.2).state

/-- The agent at the end of some sessions, the first on an empty database. -/
def lifetime (st : Settings) (files : Files) (sessions : List Session) : AgentState :=
  sessions.foldl (AgentState.session st) (AgentState.start st 0 .init {} files)

/-! ### Orders and trades -/

/-- Every recorded order id has been drawn. -/
def Tracker.Drawn (n : ℕ) (t : Tracker) : Prop :=
  ∀ k trade e, t.getTrade k = some trade → trade.localOrderId = some e → e < n

/-- The orders hang together, and the ledger records no order that was never placed. -/
structure Recorded (x : Executor × Tracker) : Prop where
  related : x.1.Related
  drawn : x.2.Drawn x.1.nextId

lemma Tracker.Drawn.mono {n m : ℕ} {t : Tracker} (h : t.Drawn n) (hnm : n ≤ m) : t.Drawn m :=
  fun k trade e hrow horder => (h k trade e hrow horder).trans_le hnm

lemma Executor.Related.key_of_knows {s : Executor} {e : OrderId} (hs : s.Related) (h : s.Knows e) :
    ∃ o, s.orders.get? e = some o := by
  obtain ⟨id, order, hget, rfl | rfl⟩ := h
  · exact ⟨order, hget⟩
  · rw [Order.ledgerId]
    split_ifs with hentry
    · exact ⟨order, hs.keyed id order hget ▸ hget⟩
    cases hkind : order.orderKind.isBracket with
    | true =>
      obtain ⟨e, entry, hparent, hentry, -, -⟩ := hs.parent_of_child hget hkind
      rw [hparent]
      exact ⟨entry, hentry⟩
    | false =>
      rw [(hs.root id order hget hkind).1, Option.getD_none, hs.keyed id order hget]
      exact ⟨order, hget⟩

lemma Recorded.evolution {x y : Executor × Tracker} (h : Evolution cfg x y) (hx : Recorded x) :
    Recorded y := by
  cases h with
  | change hchange =>
    exact ⟨Changes.related (.single hchange) hx.related,
      hx.drawn.mono (Changes.nextId_le (.single hchange) hx.related.accounted)⟩
  | @ledger s t t' hstep =>
    refine ⟨hx.related, ?_⟩
    cases hstep with
    | book hbook =>
      obtain ⟨e, -, htouches⟩ := hbook.touches
      intro k trade' e' hrow horder
      obtain ⟨trade, hbefore, hterms, -⟩ := htouches.row_before hrow
      exact hx.drawn k trade e' hbefore (hterms.localOrderId ▸ horder)
    | @insert id order hget edge size now =>
      intro k trade e hrow horder
      rcases (Tracker.getTrade_insertTrade edge size order now t).2 k trade hrow with
        hold | ⟨-, hnew, -⟩
      · exact hx.drawn k trade e hold horder
      · rw [hnew, hx.related.keyed id order hget] at horder
        obtain rfl := Option.some.inj horder
        exact Executor.lt_nextId hget
    | @phantom j trade hrow hphantom now =>
      intro k trade' e hrow' horder
      rw [Tracker.getTrade_closePhantom now hrow] at hrow'
      split_ifs at hrow' with hk
      · obtain rfl := Option.some.inj hrow'
        exact hx.drawn j trade e hrow horder
      · exact hx.drawn k trade' e hrow' horder

lemma Recorded.evolves {x y : Executor × Tracker} (h : Evolves cfg x y) (hx : Recorded x) :
    Recorded y := by
  induction h with
  | refl => exact hx
  | tail _ hstep ih => exact ih.evolution hstep

/-- A new process starts without orders. -/
lemma Executor.restart_related (s : Executor) : s.restart.Related := by
  refine ⟨?_, ?_, ?_, ?_, ?_⟩
  · rintro id o ⟨⟩
  · rintro id o ⟨⟩
  · rintro id o ⟨⟩
  · rintro id o ⟨⟩
  · rintro id o ⟨⟩

/-- At the end of every session the ledger records what was placed. -/
lemma lifetime_recorded (st : Settings) (files : Files) (sessions : List Session) :
    Recorded ((lifetime st files sessions).executor, (lifetime st files sessions).tracker) := by
  induction sessions using List.reverseRecOn with
  | nil =>
    refine ⟨Executor.related_init, ?_⟩
    rintro k trade e ⟨⟩
  | append_singleton sessions session ih =>
    rw [lifetime, List.foldl_append]
    refine Recorded.evolves (AgentRun.run_evolves st _ session.2) ?_
    exact ⟨Executor.restart_related _, ih.drawn⟩

/-! ### Old trades -/

/-- The trade is as it was, or closed as a phantom. -/
def Trade.LeftAlone (trade trade' : Trade) : Prop :=
  trade' = trade ∨ trade'.isOpen = false ∧ trade'.exitReason = some "phantom_reconciliation" ∧
    trade'.localOrderId = trade.localOrderId

/-- The orders have all been placed since the ids had come to `n`. -/
structure Resumed (n : ℕ) (s : Executor) : Prop where
  related : s.Related
  startsAt : s.StartsAt n

lemma Resumed.changes {n : ℕ} {s s' : Executor} (hs : Resumed n s) (h : Changes cfg s s') :
    Resumed n s' :=
  ⟨h.related hs.related, h.startsAt hs.related.accounted hs.startsAt⟩

/-- Booking leaves the old trades alone. -/
lemma Resumed.bookSteps {n : ℕ} {s : Executor} (hs : Resumed n s) {t t' : Tracker}
    (h : BookSteps s t t') {k : TradeId} {trade : Trade} (hrow : t.getTrade k = some trade)
    (hold : ∀ e, trade.localOrderId = some e → e < n) : t'.getTrade k = some trade := by
  induction h with
  | refl => exact hrow
  | tail _ hstep ih =>
    obtain ⟨e, hknown, htouches⟩ := hstep.touches
    obtain ⟨o, hget⟩ := hs.related.key_of_knows hknown
    obtain ⟨trade', hrow', -, hother⟩ := htouches.rows k trade ih
    rw [hrow', hother fun horder => (hold e horder).not_ge (hs.startsAt.orders e o hget)]

/-- Nothing but the search for phantoms closes an old trade. -/
lemma Resumed.evolves {n : ℕ} {x y : Executor × Tracker} (hx : Resumed n x.1)
    (h : Evolves cfg x y) {k : TradeId} {trade : Trade} (hrow : x.2.getTrade k = some trade)
    (hold : ∀ e, trade.localOrderId = some e → e < n) :
    Resumed n y.1 ∧ ∃ trade', y.2.getTrade k = some trade' ∧ trade.LeftAlone trade' := by
  induction h with
  | refl => exact ⟨hx, trade, hrow, Or.inl rfl⟩
  | tail _ hstep ih =>
    obtain ⟨hresumed, trade', hrow', hleft⟩ := ih
    have hold' : ∀ e, trade'.localOrderId = some e → e < n := by
      rcases hleft with rfl | ⟨-, -, horder⟩
      · exact hold
      · exact horder ▸ hold
    cases hstep with
    | change hchange => exact ⟨hresumed.changes (.single hchange), trade', hrow', hleft⟩
    | ledger hstep =>
      refine ⟨hresumed, ?_⟩
      cases hstep with
      | book hbook => exact ⟨trade', hresumed.bookSteps (.single hbook) hrow' hold', hleft⟩
      | insert hget edge size now =>
        exact ⟨trade', (Tracker.getTrade_insertTrade edge size _ now _).1 k trade' hrow', hleft⟩
      | @phantom j phantom hphantom _ now =>
        rw [Tracker.getTrade_closePhantom now hphantom]
        split_ifs with hk
        · subst hk
          obtain rfl := Option.some.inj (hrow'.symm.trans hphantom)
          refine ⟨_, rfl, Or.inr ⟨rfl, rfl, ?_⟩⟩
          rcases hleft with rfl | ⟨-, -, horder⟩
          · rfl
          · exact horder
        · exact ⟨trade', hrow', hleft⟩

/-! ### Stop-losses -/

/-- Of a trade with an armed stop-loss at the end of a session, the books cross the recorded level in a
later session, in which it still is open. -/
structure StopCrossed (stopped resumed : AgentState) (input : CycleInput)
    (books : Dict MarketId BookData) (k : TradeId) (trade : Trade) : Prop where
  recorded : stopped.tracker.getTrade k = some trade
  isOpen : trade.isOpen = true
  isFilled : trade.isFilled = true
  guarded : ∃ id o, stopped.executor.orders.get? id = some o ∧ o.Guards trade ∧
    o.isPastExpiry input.reconcileAt = false
  stillOpen : ∃ later, resumed.tracker.getTrade k = some later ∧ later.isOpen = true
  crossed : ∃ data level, books.get? trade.marketId = some data ∧ trade.stopLossPrice = some level ∧
    contractPrice trade.direction data.bestAsk ≤ level

/-- The trade was closed, and not as a phantom. -/
def Trade.ClosedByExit (trade : Trade) : Prop :=
  trade.isOpen = false ∧ trade.exitReason ≠ some "phantom_reconciliation"

/-- A trade that is open at a restart is never closed by its stop-loss: the reconciliation in which the
books cross its level leaves it as it is, and so does the rest of the cycle, unless it closes the trade
as a phantom. -/
theorem restart_loses_stop (st : Settings) (files : Files) (sessions : List Session) (now : Time)
    (moves : List AgentMove) (input : CycleInput) (books : Dict MarketId BookData)
    (answers : Oracle AgentRequest AgentReply) (k : TradeId) (trade : Trade)
    (h : StopCrossed (lifetime st files sessions)
      ((lifetime st files sessions).session st (now, moves)) input books k trade) :
    let resumed := (lifetime st files sessions).session st (now, moves)
    ((reconcileOrderLifecycle st input books).run answers resumed).state.tracker.getTrade k =
        some trade ∧
      ∀ trade', ((runCycle st input).run answers resumed).state.tracker.getTrade k = some trade' →
        ¬ trade'.ClosedByExit := by
  set stopped := lifetime st files sessions
  set resumed := stopped.session st (now, moves)
  have hold : ∀ e, trade.localOrderId = some e → e < stopped.executor.nextId := fun e horder =>
    (lifetime_recorded st files sessions).drawn k trade e h.recorded horder
  have hstart : Resumed stopped.executor.nextId stopped.executor.restart := by
    refine ⟨stopped.executor.restart_related, ⟨le_rfl, ?_⟩⟩
    rintro id o ⟨⟩
  have hsession : Evolves st.cfg (stopped.executor.restart, stopped.tracker)
      (resumed.executor, resumed.tracker) :=
    AgentRun.run_evolves st ⟨stopped.restart st now, []⟩ moves
  obtain ⟨hresumed, trade', hrow, hleft⟩ := hstart.evolves hsession h.recorded hold
  obtain ⟨later, hlater, hopen⟩ := h.stillOpen
  obtain rfl := Option.some.inj (hrow.symm.trans hlater)
  obtain rfl : trade' = trade := by
    rcases hleft with heq | ⟨hclosed, -⟩
    · exact heq
    · rw [hclosed] at hopen
      contradiction
  constructor
  · have hreconciles := reconcileOrderLifecycle_reconciles
      (run_returns (reconcileOrderLifecycle st input books) answers resumed)
    have hnow := hresumed.changes hreconciles.changes
    obtain ⟨events, s, -, hbook⟩ := hreconciles
    have hbooks := bookEvents_booksOnly st input 0 events { resumed with executor := s }
    rw [hbook] at hbooks
    rw [hbooks.executor] at hnow
    exact hnow.bookSteps hbooks.ledger hlater hold
  · intro trade'' hrow'' hclosed
    obtain ⟨b, hrun, hstate⟩ := runCycle_cycleRun (run_returns (runCycle st input) answers resumed)
    obtain ⟨-, x, hx, hleft'⟩ := hresumed.evolves hrun.evolves hlater hold
    rw [hstate] at hrow''
    obtain rfl := Option.some.inj (hx.symm.trans hrow'')
    rcases hleft' with rfl | ⟨-, hreason, -⟩
    · have hshut := hclosed.1
      rw [hopen] at hshut
      contradiction
    · exact hclosed.2 hreason

/-- A session in which one position is opened. -/
def firstSession : Session := (0, [.cycle (cycleAt 0) (delivering [coinMarket] [headsEdge])])

/-- The process has stopped with an open position. -/
def stoppedAgent : AgentState := lifetime bold (fun _ => none) [firstSession]

/-- A minute later there is a new process. -/
def restartedAgent : AgentState := stoppedAgent.session bold (60000000, [])

/-- The price of heads has fallen below the stop-loss. -/
def crashedBooks : Dict MarketId BookData :=
  orderBooks [(coinMarket.1,
    some { midpoint := 41 / 100, bestBid := 40 / 100, bestAsk := 42 / 100, bids := [], asks := [] })]

lemma stoppedAgent_stopCrossed :
    ∃ trade, StopCrossed stoppedAgent restartedAgent (cycleAt 120000000) crashedBooks 0 trade := by
  have htrade : (stoppedAgent.tracker.getTrade 0).any (fun trade => trade.isOpen = true ∧
      trade.isFilled = true ∧ trade.localOrderId = some 0 ∧ trade.marketId = "coin" ∧
      trade.direction = .yes ∧ trade.stopLossPrice = some (96307 / 200000)) = true := by
    decide +kernel
  have hguard : (stoppedAgent.executor.orders.get? 3).any (fun o => o.orderKind = .stopLoss ∧
      o.status = .armed ∧ o.parentOrderId = some 0 ∧ o.isPastExpiry 120000000 = false) = true := by
    decide +kernel
  have hlater : (restartedAgent.tracker.getTrade 0).any (fun later => later.isOpen = true) = true := by
    decide +kernel
  have hbooks : (crashedBooks.get? "coin").any (fun data => data.bestAsk = 42 / 100) = true := by
    decide +kernel
  obtain ⟨trade, hrow, hfacts⟩ := (Option.any_eq_true _ _).mp htrade
  obtain ⟨hopen, hfilled, horder, hmarket, hdirection, hlevel⟩ := of_decide_eq_true hfacts
  obtain ⟨o, ho, hfacts⟩ := (Option.any_eq_true _ _).mp hguard
  obtain ⟨hkind, harmed, hparent, hexpiry⟩ := of_decide_eq_true hfacts
  obtain ⟨later, hlater, hfacts⟩ := (Option.any_eq_true _ _).mp hlater
  obtain ⟨data, hdata, hask⟩ := (Option.any_eq_true _ _).mp hbooks
  refine ⟨trade, hrow, hopen, hfilled, ⟨3, o, ho, ⟨hkind, harmed, 0, hparent, horder⟩, hexpiry⟩,
    ⟨later, hlater, of_decide_eq_true hfacts⟩, data, _, hmarket ▸ hdata, hlevel, ?_⟩
  rw [hdirection, of_decide_eq_true hask, contractPrice, if_pos rfl]
  norm_num

/-- The theorem after one session. -/
theorem restart_loses_stop_coin : ∃ trade,
    ((reconcileOrderLifecycle bold (cycleAt 120000000) crashedBooks).run (delivering [] [])
      restartedAgent).state.tracker.getTrade 0 = some trade ∧
    ∀ trade', ((runCycle bold (cycleAt 120000000)).run (delivering [] [])
      restartedAgent).state.tracker.getTrade 0 = some trade' → ¬ trade'.ClosedByExit := by
  obtain ⟨trade, hcrossed⟩ := stoppedAgent_stopCrossed
  exact ⟨trade, restart_loses_stop bold (fun _ => none) [firstSession] 60000000 []
    (cycleAt 120000000) crashedBooks (delivering [] []) 0 trade hcrossed⟩

/-- Without the restart the trade is closed when its level is crossed; after it, it stays open. -/
theorem restart_leaves_trade_open :
    (∃ trade, StopCrossed stoppedAgent restartedAgent (cycleAt 120000000) crashedBooks 0 trade) ∧
      (((reconcileOrderLifecycle bold (cycleAt 120000000) crashedBooks).run (delivering [] [])
        stoppedAgent).state.tracker.getTrade 0).any (·.isOpen) = false ∧
      (((reconcileOrderLifecycle bold (cycleAt 120000000) crashedBooks).run (delivering [] [])
        restartedAgent).state.tracker.getTrade 0).any (·.isOpen) = true :=
  ⟨stoppedAgent_stopCrossed, by decide +kernel, by decide +kernel⟩

end PolyCortex
