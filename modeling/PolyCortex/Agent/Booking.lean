import PolyCortex.Agent.Steps
import PolyCortex.Tracking.Rows

/-!
# What booking an event changes

Booking goes to the ledger and to the PnL of the day; everything else of the agent is left alone,
whichever database call fails. `BookStep` lists what it does to the ledger.
-/

namespace PolyCortex

open Relation

/-- The order of whose trade the ledger is told. -/
def Order.ledgerId (o : Order) : OrderId :=
  if o.orderKind = .entry then o.orderId else o.parentOrderId.getD o.orderId

/-- An id the executor has, or one that an order of the executor goes by in the ledger. -/
def Executor.Knows (s : Executor) (e : OrderId) : Prop :=
  ∃ id order, s.orders.get? id = some order ∧ (e = id ∨ e = order.ledgerId)

/-- What booking does to the ledger, next to the executor `s`. -/
inductive BookStep (s : Executor) (t : Tracker) : Tracker → Prop where
  | syncEntry {id : OrderId} {order : Order} (hget : s.orders.get? id = some order)
    (hkind : order.orderKind = .entry) : BookStep s t (t.syncEntryOrder order)
  | syncBracket {id : OrderId} {order : Order} (hget : s.orders.get? id = some order)
    (hkind : order.orderKind ≠ .entry) : BookStep s t (t.syncBracketState order)
  | fee {e : OrderId} {k : TradeId} (hknown : s.Knows e) (hfound : t.getTradeIdForOrder e = some k)
    (feeUsdc : ℚ) : BookStep s t (t.recordFee k feeUsdc 0)
  | close {id : OrderId} {order : Order} (hget : s.orders.get? id = some order)
    (hkind : order.orderKind ≠ .entry) (exitPrice : Option ℚ) (reason : String) (now : Time) :
    BookStep s t (t.closeTradeForOrder order exitPrice reason .closed now).2

abbrev BookSteps (s : Executor) : Tracker → Tracker → Prop := ReflTransGen (BookStep s)

/-- Booking goes to the rows of one order. -/
lemma BookStep.touches {s : Executor} {t t' : Tracker} (h : BookStep s t t') :
    ∃ e, s.Knows e ∧ t.Touches e t' := by
  cases h with
  | @syncEntry id order hget hkind =>
    exact ⟨order.orderId, ⟨id, order, hget, Or.inr (by simp [Order.ledgerId, hkind])⟩,
      t.syncEntryOrder_touches order⟩
  | @syncBracket id order hget hkind =>
    exact ⟨_, ⟨id, order, hget, Or.inr (by simp [Order.ledgerId, hkind])⟩,
      t.syncBracketState_touches order⟩
  | fee hknown hfound feeUsdc => exact ⟨_, hknown, Tracker.recordFee_touches (.refl _ t) hfound _ _⟩
  | @close id order hget hkind exitPrice reason now =>
    exact ⟨_, ⟨id, order, hget, Or.inr (by simp [Order.ledgerId, hkind])⟩,
      t.closeTradeForOrder_touches order exitPrice reason .closed now⟩

/-- Only the ledger and the PnL of the day may differ. -/
structure AgentState.BooksOnly (a a' : AgentState) : Prop where
  executor : a'.executor = a.executor
  ledger : BookSteps a.executor a.tracker a'.tracker
  drawdown : ∃ pnl day, a'.drawdown = { a.drawdown with dailyPnl := pnl, dailyResetDate := day }
  sizer : a'.sizer = a.sizer
  bankroll : a'.bankroll = a.bankroll
  files : a'.files = a.files
  failures : a'.consecutiveFailures = a.consecutiveFailures

namespace AgentState.BooksOnly

variable {a a' a'' : AgentState}

lemma refl (a : AgentState) : a.BooksOnly a := ⟨rfl, .refl, ⟨_, _, rfl⟩, rfl, rfl, rfl, rfl⟩

lemma trans (h : a.BooksOnly a') (h' : a'.BooksOnly a'') : a.BooksOnly a'' := by
  obtain ⟨h₁, hledger, ⟨pnl, day, h₂⟩, h₃, h₄, h₅, h₆⟩ := h
  obtain ⟨h₁', hledger', ⟨pnl', day', h₂'⟩, h₃', h₄', h₅', h₆'⟩ := h'
  rw [h₁] at hledger'
  exact ⟨h₁'.trans h₁, hledger.trans hledger', ⟨pnl', day', by rw [h₂', h₂]⟩, h₃'.trans h₃,
    h₄'.trans h₄, h₅'.trans h₅, h₆'.trans h₆⟩

lemma of_steps {tracker : Tracker} (h : BookSteps a.executor a.tracker tracker) :
    a.BooksOnly { a with tracker } :=
  ⟨rfl, h, ⟨_, _, rfl⟩, rfl, rfl, rfl, rfl⟩

end AgentState.BooksOnly

section Events

variable {st : Settings} {input : CycleInput} {order : Order} {id : OrderId} {a : AgentState}

lemma recordTradePnl_daily (now : Time) (pnl : ℚ) (d : DrawdownController) :
    ∃ dailyPnl day, d.recordTradePnl now pnl =
      { d with dailyPnl := dailyPnl, dailyResetDate := day } := by
  rw [DrawdownController.recordTradePnl]
  split_ifs
  · exact ⟨_, _, rfl⟩
  · exact ⟨_, _, rfl⟩

/-- Booking the event of an entry. -/
lemma bookEntry_booksOnly (st : Settings) (failure : Option DbCall)
    (hget : a.executor.orders.get? id = some order) (hkind : order.orderKind = .entry) :
    a.BooksOnly (bookEntry st failure order a).2 ∧
      (bookEntry st failure order a).2.drawdown = a.drawdown := by
  have hsync : BookSteps a.executor a.tracker (a.tracker.syncEntryOrder order) :=
    .single (.syncEntry hget hkind)
  have hknown : a.executor.Knows order.orderId := ⟨id, order, hget, Or.inr (by simp [Order.ledgerId, hkind])⟩
  rw [bookEntry]
  dsimp only
  split
  · exact ⟨.refl a, rfl⟩
  split
  · split
    · exact ⟨.of_steps hsync, rfl⟩
    split
    · exact ⟨.of_steps hsync, rfl⟩
    · next k hfound =>
      split_ifs
      · exact ⟨.of_steps hsync, rfl⟩
      · exact ⟨.of_steps (hsync.tail (.fee hknown hfound _)), rfl⟩
      · exact ⟨.of_steps hsync, rfl⟩
  · exact ⟨.of_steps hsync, rfl⟩

lemma chargeExitFee_steps (st : Settings) {s : Executor} (hget : s.orders.get? id = some order)
    (hkind : order.orderKind ≠ .entry) (t : Tracker) :
    BookSteps s t (chargeExitFee st order t) := by
  have hknown : s.Knows (order.parentOrderId.getD order.orderId) :=
    ⟨id, order, hget, Or.inr (by simp [Order.ledgerId, hkind])⟩
  rw [chargeExitFee]
  cases hfound : t.getTradeIdForOrder (order.parentOrderId.getD order.orderId) with
  | none => exact .refl
  | some k => exact .single (.fee hknown hfound _)

lemma closeForExit_booksOnly (input : CycleInput) (failure : Option DbCall)
    (event : OrderLifecycleEvent) (hget : a.executor.orders.get? id = some order)
    (hkind : order.orderKind ≠ .entry) : a.BooksOnly (closeForExit input failure event order a) := by
  rw [closeForExit]
  dsimp only
  generalize (if event.message = "" then order.orderKind.text else event.message) = reason
  have hclose : BookSteps a.executor a.tracker
      (a.tracker.closeTradeForOrder order event.fillPrice reason .closed input.bookingAt).2 :=
    .single (.close hget hkind _ _ _)
  split_ifs
  · exact .refl a
  · exact ⟨rfl, hclose, recordTradePnl_daily .., rfl, rfl, rfl, rfl⟩
  · exact .of_steps hclose

/-- Booking the event of another order. -/
lemma bookExit_booksOnly (st : Settings) (input : CycleInput) (failure : Option DbCall)
    (event : OrderLifecycleEvent) (hget : a.executor.orders.get? id = some order)
    (hkind : order.orderKind ≠ .entry) :
    a.BooksOnly (bookExit st input failure event order a).2 := by
  have hsync : BookSteps a.executor a.tracker (a.tracker.syncBracketState order) :=
    .single (.syncBracket hget hkind)
  have hfee := hsync.trans (chargeExitFee_steps st hget hkind (a.tracker.syncBracketState order))
  rw [bookExit]
  dsimp only
  split_ifs
  · exact .refl a
  · exact .of_steps hsync
  · exact .of_steps hsync
  · exact .of_steps hfee
  · exact (AgentState.BooksOnly.of_steps hfee).trans (closeForExit_booksOnly input failure event hget hkind)
  · exact .of_steps hsync

/-- Booking an event changes the ledger, and the PnL of the day. -/
theorem bookEvent_booksOnly (st : Settings) (input : CycleInput) (failure : Option DbCall)
    (event : OrderLifecycleEvent) (a : AgentState) :
    a.BooksOnly (bookEvent st input failure event a).2 := by
  rw [bookEvent]
  cases hget : a.executor.orders.get? event.orderSnapshot with
  | none => exact .refl a
  | some order =>
    dsimp only
    split_ifs with hkind
    · exact (bookEntry_booksOnly st failure hget hkind).1
    · exact bookExit_booksOnly st input failure event hget hkind

/-- What booking one event keeps, booking a list of events keeps. -/
theorem bookEvents_induction {P : AgentState → Prop}
    (hevent : ∀ failure event a, P a → P (bookEvent st input failure event a).2) (n : ℕ)
    (events : List OrderLifecycleEvent) (ha : P a) : P (bookEvents st input n events a).2 := by
  induction events generalizing n a with
  | nil => exact ha
  | cons event events ih =>
    have hfirst := hevent (input.failure n) event a ha
    rw [bookEvents]
    rcases hbook : bookEvent st input (input.failure n) event a with ⟨booked, a'⟩
    rw [hbook] at hfirst
    cases booked with
    | true => exact ih (n + 1) hfirst
    | false => exact hfirst

lemma bookEvents_booksOnly (st : Settings) (input : CycleInput) (n : ℕ)
    (events : List OrderLifecycleEvent) (a : AgentState) :
    a.BooksOnly (bookEvents st input n events a).2 :=
  bookEvents_induction (P := a.BooksOnly)
    (fun _ _ _ h => h.trans (bookEvent_booksOnly ..)) n events (.refl a)

end Events

/-! ### The executor of an agent -/

section Changes

variable {st : Settings} {input : CycleInput} {a b : AgentState}

/-- An operation, run alone, is a chain of changes. -/
lemma changes_of_returns {cfg : Config} (call : Call) {result : OpResult} {s s' : Executor}
    (h : (call.program cfg).Returns s result s') : Changes cfg s s' := by
  obtain ⟨_, hchanges, -⟩ :=
    h.meets (Call.byChanges cfg call ⟨s, []⟩) (fun _ => .refl) .trans
  exact hchanges

lemma Reconciles.changes {books : Dict MarketId BookData} {booked : Bool}
    (h : Reconciles st input books a b booked) : Changes st.cfg a.executor b.executor := by
  obtain ⟨events, s, hreturns, hbook⟩ := h
  have hbooks := bookEvents_booksOnly st input 0 events { a with executor := s }
  rw [hbook] at hbooks
  rw [hbooks.executor]
  exact changes_of_returns ⟨.reconcileOrders _, { now := _ }⟩ (hreturns.map OpResult.events)

lemma Places.changes {books : Dict MarketId BookData} {multiplier : ℚ} {n : ℕ} {edge : EdgeResult}
    {positions positions' : List Trade}
    (h : Places st input books multiplier n edge positions a positions' b) :
    Changes st.cfg a.executor b.executor := by
  cases h with
  | passed => exact .refl
  | refused hasked horder =>
    exact changes_of_returns ⟨.placeOrder _, _⟩ (horder.map OpResult.order)
  | placed hasked horder hrecord =>
    rw [hrecord, executor_recordPlacement]
    exact changes_of_returns ⟨.placeOrder _, _⟩ (horder.map OpResult.order)

/-- The ledger follows the orders that have expired; nothing else changes. -/
lemma syncExpired_frame (ids : List OrderId) (a : AgentState) :
    ∃ tracker, ids.foldl syncExpired a = { a with tracker } := by
  induction ids generalizing a with
  | nil => exact ⟨a.tracker, rfl⟩
  | cons id ids ih =>
    have hfirst : ∃ tracker, syncExpired a id = { a with tracker } := by
      rw [syncExpired]
      cases a.executor.orders.get? id with
      | none => exact ⟨a.tracker, rfl⟩
      | some order => exact ⟨_, rfl⟩
    obtain ⟨tracker, htracker⟩ := hfirst
    obtain ⟨tracker', htracker'⟩ := ih { a with tracker }
    exact ⟨tracker', by rw [List.foldl_cons, htracker, htracker']⟩

lemma Tidies.frame (h : Tidies st input a b) : ∃ executor tracker,
    Changes st.cfg a.executor executor ∧
      b = { a with executor, tracker, consecutiveFailures := 0 } := by
  obtain ⟨expired, s, hreturns, rfl⟩ := h
  obtain ⟨tracker, htracker⟩ := syncExpired_frame expired { a with executor := s }
  refine ⟨s, reconcilePositions st.autoClosePhantoms input.settleAt s tracker,
    changes_of_returns ⟨.cancelExpiredOrders, { now := _ }⟩ (hreturns.map OpResult.ids), ?_⟩
  dsimp only
  rw [htracker]

end Changes
end PolyCortex
