import PolyCortex.Agent.ExitBooking
import PolyCortex.Tracking.Days

/-!
# What the daily loss limit sees

The drawdown controller is told of the trades that are closed for an exit, and of no others, and its day
turns over only when it is told of one. At a sizing it has the PnL of the day exactly when it was told of
something on that day, or has nothing to forget (`sizing_seesLosses_iff`).
-/

namespace PolyCortex

open Coroutine

variable {st : Settings} {input : CycleInput} {a b : AgentState} {k : TradeId} {trade : Trade}
  {order : Order} {event : OrderLifecycleEvent} {failure : Option DbCall}

/-- The controller has the PnL of the day that it counts for, and no trade was closed later. -/
structure AgentState.SeesLosses (a : AgentState) : Prop where
  today : a.tracker.pnlClosedOn a.drawdown.dailyResetDate = a.drawdown.dailyPnl
  later : ∀ day, a.drawdown.dailyResetDate < day → a.tracker.pnlClosedOn day = 0

/-- A trade may be closed now: it is open, and if it earns or loses something, then on the day it is
filled, which the controller has not left behind. -/
def ClosesInTime (input : CycleInput) (pnl : ℚ) (order : Order) (trade : Trade) (a : AgentState) :
    Prop :=
  trade.isOpen = true ∧ (pnl = 0 ∨
    utcDay (order.lastFillAt.getD input.bookingAt) = utcDay input.bookingAt ∧
      a.drawdown.dailyResetDate ≤ utcDay input.bookingAt)

/-- If the event closes a trade, it does so in time. -/
def BookedInTime (st : Settings) (input : CycleInput) (failure : Option DbCall)
    (event : OrderLifecycleEvent) (a : AgentState) : Prop :=
  failure = none → event.eventType = .exitFilled →
    ∀ order ∈ a.executor.orders.get? event.orderSnapshot, order.orderKind ≠ .entry →
      ∀ k ∈ a.tracker.getTradeIdForOrder (order.parentOrderId.getD order.orderId),
        ∀ trade ∈ a.tracker.getTrade k,
          ClosesInTime input (exitPnl st event order trade) order trade a

/-- The same of a list of events, up to the first exception. -/
def AllBookedInTime (st : Settings) (input : CycleInput) :
    ℕ → List OrderLifecycleEvent → AgentState → Prop
  | _, [], _ => True
  | n, event :: events, a =>
    BookedInTime st input (input.failure n) event a ∧
      ((bookEvent st input (input.failure n) event a).1 = true →
        AllBookedInTime st input (n + 1) events (bookEvent st input (input.failure n) event a).2)

/-- What a cycle has to book closes trades in time. -/
def CycleBooksInTime (st : Settings) (input : CycleInput)
    (answers : Oracle AgentRequest AgentReply) (a : AgentState) : Prop :=
  ∀ x ∈ cycleEvents st input answers a, AllBookedInTime st input 0 x.1 x.2

/-- The phantoms that are closed at the end of a cycle have earned nothing. -/
def PhantomsWorthless (st : Settings) (report : CycleReport) (after : AgentState) : Prop :=
  st.autoClosePhantoms = true → ∀ t ∈ report.settled, ∀ trade ∈ t.trades,
    isPhantom after.executor trade = true → trade.closingPnl (trade.entryPrice.getD 0) = 0

/-- The trades that a move closes are closed in time, for an exit or without a PnL. -/
def Timely (st : Settings) (r : AgentRun) : AgentMove → Prop
  | .cycle input answers =>
    CycleBooksInTime st input answers r.state ∧
      PhantomsWorthless st ((runCycle st input).run answers r.state).result
        ((runCycle st input).run answers r.state).state
  | .pause | .changeFile _ _ => True

namespace AgentState.SeesLosses

/-- The day of the controller, and what was closed since, is what matters. -/
lemma congr (h : a.SeesLosses) (hpnl : b.drawdown.dailyPnl = a.drawdown.dailyPnl)
    (hday : b.drawdown.dailyResetDate = a.drawdown.dailyResetDate)
    (hclosed : ∀ day, b.tracker.pnlClosedOn day = a.tracker.pnlClosedOn day) : b.SeesLosses := by
  constructor
  · rw [hday, hclosed, h.today, hpnl]
  · intro day hlater
    rw [hclosed]
    exact h.later day (hday ▸ hlater)

/-- A PnL is recorded on the day on which the trade is closed. -/
lemma record {t : Tracker} {now : Time} {pnl : ℚ} (h : a.SeesLosses)
    (hday : a.drawdown.dailyResetDate ≤ utcDay now)
    (hclosed : ∀ day, t.pnlClosedOn day =
      a.tracker.pnlClosedOn day + if utcDay now = day then pnl else 0) :
    ({ a with tracker := t, drawdown := a.drawdown.recordTradePnl now pnl } : AgentState).SeesLosses := by
  by_cases hsame : utcDay now = a.drawdown.dailyResetDate
  · have hrecord : a.drawdown.recordTradePnl now pnl =
        { a.drawdown with dailyPnl := a.drawdown.dailyPnl + pnl } := by
      rw [DrawdownController.recordTradePnl, if_neg (not_not.mpr hsame)]
    rw [hrecord]
    constructor
    · show t.pnlClosedOn a.drawdown.dailyResetDate = a.drawdown.dailyPnl + pnl
      rw [hclosed, h.today, if_pos hsame]
    · intro day hlater
      have hlater : a.drawdown.dailyResetDate < day := hlater
      show t.pnlClosedOn day = 0
      rw [hclosed, h.later day hlater, if_neg (hsame.trans_lt hlater).ne, add_zero]
  · have hturned : a.drawdown.dailyResetDate < utcDay now := lt_of_le_of_ne hday (Ne.symm hsame)
    have hrecord : a.drawdown.recordTradePnl now pnl =
        { a.drawdown with dailyPnl := pnl, dailyResetDate := utcDay now } := by
      rw [DrawdownController.recordTradePnl, if_pos hsame]
    rw [hrecord]
    constructor
    · show t.pnlClosedOn (utcDay now) = pnl
      rw [hclosed, h.later _ hturned, if_pos rfl, zero_add]
    · intro day hlater
      have hlater : utcDay now < day := hlater
      show t.pnlClosedOn day = 0
      rw [hclosed, h.later day (hturned.trans hlater), if_neg hlater.ne, add_zero]

end AgentState.SeesLosses

/-! ### Booking -/

lemma bookEntry_pnlClosedOn (st : Settings) (failure : Option DbCall) (order : Order)
    (a : AgentState) (day : Day) :
    (bookEntry st failure order a).2.tracker.pnlClosedOn day = a.tracker.pnlClosedOn day := by
  rw [bookEntry]
  dsimp only
  split
  · rfl
  split
  · split
    · simp
    split
    · simp
    · split_ifs <;> simp
  · simp

lemma chargeExitFee_pnlClosedOn (st : Settings) (order : Order) (t : Tracker) (day : Day) :
    (chargeExitFee st order t).pnlClosedOn day = t.pnlClosedOn day := by
  rw [chargeExitFee]
  cases t.getTradeIdForOrder (order.parentOrderId.getD order.orderId) <;> simp

lemma closeForExit_seesLosses (h : a.SeesLosses)
    (hclose : failure ≠ some .close → ∀ k trade,
      a.tracker.getTradeIdForOrder (order.parentOrderId.getD order.orderId) = some k →
      a.tracker.getTrade k = some trade →
        ClosesInTime input (trade.closingPnl (Tracker.exitPriceOf event.fillPrice order)) order trade a) :
    (closeForExit input failure event order a).SeesLosses := by
  rw [closeForExit]
  generalize (if event.message = "" then order.orderKind.text else event.message) = reason
  split_ifs with hfailure
  · exact h
  · cases hfound : a.tracker.getTradeIdForOrder (order.parentOrderId.getD order.orderId) with
    | none =>
      have hnone : a.tracker.closeTradeForOrder order event.fillPrice reason .closed input.bookingAt =
          (0, a.tracker) := by
        rw [Tracker.closeTradeForOrder, hfound]
      dsimp only
      rw [hnone, if_neg (not_not.mpr rfl)]
      exact h
    | some k =>
      obtain ⟨trade, hrow, -⟩ := Tracker.getTrade_of_getTradeIdForOrder hfound
      obtain ⟨hopen, htime⟩ := hclose hfailure k trade hfound hrow
      obtain ⟨hvalue, -⟩ := Tracker.closeTradeForOrder_row hrow hfound event.fillPrice reason .closed
        input.bookingAt
      have hclosed := Tracker.pnlClosedOn_closeTradeForOrder hrow hfound hopen event.fillPrice reason
        input.bookingAt
      dsimp only
      rw [hvalue]
      split_ifs with hzero
      · obtain ⟨hday, hturned⟩ := htime.resolve_left hzero
        rw [hday] at hclosed
        exact h.record hturned hclosed
      · refine h.congr rfl rfl fun day => ?_
        rw [hclosed, not_not.mp hzero, ite_self, add_zero]

lemma bookExit_seesLosses (h : a.SeesLosses)
    (hclose : failure = none → event.eventType = .exitFilled → ∀ k trade,
      a.tracker.getTradeIdForOrder (order.parentOrderId.getD order.orderId) = some k →
      a.tracker.getTrade k = some trade → ClosesInTime input (exitPnl st event order trade) order trade a) :
    (bookExit st input failure event order a).2.SeesLosses := by
  have hsync : ({ a with tracker := a.tracker.syncBracketState order } : AgentState).SeesLosses :=
    h.congr rfl rfl fun day => Tracker.pnlClosedOn_syncBracketState order day
  have hfee : ({ a with tracker := chargeExitFee st order (a.tracker.syncBracketState order) } :
      AgentState).SeesLosses :=
    hsync.congr rfl rfl fun day => chargeExitFee_pnlClosedOn st order _ day
  rw [bookExit]
  dsimp only
  split_ifs with hfail hexit hlookup hrecord hcloseLookup
  · exact h
  · exact hsync
  · exact hsync
  · exact hfee
  · refine closeForExit_seesLosses hfee fun hfailure k row hfound hget => ?_
    have hfound₁ : (a.tracker.syncBracketState order).getTradeIdForOrder
        (order.parentOrderId.getD order.orderId) = some k := by
      have hcharged : (chargeExitFee st order (a.tracker.syncBracketState order)).getTradeIdForOrder
          (order.parentOrderId.getD order.orderId) = some k := hfound
      cases hnone : (a.tracker.syncBracketState order).getTradeIdForOrder
        (order.parentOrderId.getD order.orderId) with
      | none => rw [chargeExitFee, hnone, hnone] at hcharged; exact hcharged
      | some j =>
        rw [chargeExitFee, hnone] at hcharged
        dsimp only at hcharged
        rw [(Tracker.recordFee_touches (.refl _ _) hnone _ _).getTradeIdForOrder, hnone] at hcharged
        exact hcharged
    have hfound₀ : a.tracker.getTradeIdForOrder (order.parentOrderId.getD order.orderId) = some k := by
      rw [← (a.tracker.syncBracketState_touches order).getTradeIdForOrder]
      exact hfound₁
    -- with a row to close, nothing but the close itself can still fail
    have hnone : failure = none := by
      cases failure with
      | none => rfl
      | some call =>
        cases call with
        | recordFee => exact absurd ⟨rfl, by rw [hfound₁]; rfl⟩ hrecord
        | _ => simp_all
    obtain ⟨trade, hrow, -⟩ := Tracker.getTrade_of_getTradeIdForOrder hfound₀
    obtain ⟨row', hget', hsame, -, hpnl, -⟩ := chargeExitFee_row st hrow hfound₀
    obtain rfl := Option.some.inj (hget.symm.trans hget')
    obtain ⟨hopen, htime⟩ := hclose hnone hexit k trade hfound₀ hrow
    rw [hpnl]
    refine ⟨?_, htime⟩
    rw [Trade.isOpen, hsame.status]
    exact hopen
  · exact hsync

/-- An event that is booked in time. -/
lemma bookEvent_seesLosses (h : a.SeesLosses) (htime : BookedInTime st input failure event a) :
    (bookEvent st input failure event a).2.SeesLosses := by
  rw [bookEvent]
  cases hget : a.executor.orders.get? event.orderSnapshot with
  | none => exact h
  | some order =>
    dsimp only
    split_ifs with hkind
    · have hdrawdown := (bookEntry_booksOnly st failure hget hkind).2
      refine h.congr (by rw [hdrawdown]) (by rw [hdrawdown]) ?_
      exact fun day => bookEntry_pnlClosedOn st failure order a day
    · refine bookExit_seesLosses h fun hnone hexit k trade hfound hrow => ?_
      exact htime hnone hexit order hget hkind k hfound trade hrow

/-- Events that are booked in time. -/
lemma bookEvents_seesLosses {n : ℕ} {events : List OrderLifecycleEvent} (h : a.SeesLosses)
    (htime : AllBookedInTime st input n events a) : (bookEvents st input n events a).2.SeesLosses := by
  induction events generalizing n a with
  | nil => exact h
  | cons event events ih =>
    have hfirst := bookEvent_seesLosses h htime.1
    have hrest := htime.2
    rw [bookEvents]
    rcases hbook : bookEvent st input (input.failure n) event a with ⟨booked, a'⟩
    rw [hbook] at hfirst hrest
    cases booked with
    | true => exact ih hfirst (hrest rfl)
    | false => exact hfirst

/-! ### The rest of a cycle -/

variable {books : Dict MarketId BookData}

/-- Placing closes nothing, and the controller is not told of it. -/
lemma recordPlacement_seesLosses (now : Time) (edge : EdgeResult) (size : ℚ) (orderId : OrderId)
    (h : a.SeesLosses) : (recordPlacement st now edge size orderId a).SeesLosses := by
  obtain ⟨_, _, _, hframe⟩ := recordPlacement_frame st now edge size orderId a
  refine h.congr (by rw [hframe]) (by rw [hframe]) fun day => ?_
  clear hframe
  rw [recordPlacement]
  cases a.executor.orders.get? orderId with
  | none => rfl
  | some order =>
    dsimp only
    cases (a.tracker.insertTrade edge size order now).getTradeIdForOrder orderId with
    | none => split_ifs <;> simp
    | some k => split_ifs <;> simp

lemma PlacesAll.seesLosses {multiplier : ℚ} {n : ℕ} {edges : List EdgeResult}
    {positions positions' : List Trade}
    (h : PlacesAll st input books multiplier n edges positions a positions' b) (ha : a.SeesLosses) :
    b.SeesLosses := by
  induction h with
  | nil => exact ha
  | cons hplaces _ ih =>
    refine ih ?_
    cases hplaces with
    | passed => exact ha
    | refused => exact ha.congr rfl rfl fun _ => rfl
    | placed hasked horder hrecord =>
      rw [hrecord]
      exact recordPlacement_seesLosses _ _ _ _ (ha.congr rfl rfl fun _ => rfl)

lemma syncExpired_pnlClosedOn (ids : List OrderId) (a : AgentState) (day : Day) :
    (ids.foldl syncExpired a).tracker.pnlClosedOn day = a.tracker.pnlClosedOn day := by
  induction ids generalizing a with
  | nil => rfl
  | cons id ids ih =>
    rw [List.foldl_cons, ih, syncExpired]
    cases a.executor.orders.get? id with
    | none => rfl
    | some order =>
      dsimp only
      split_ifs <;> simp

/-- The row of a phantom is as it was before the orders expired. -/
lemma BookSteps.phantom_row {s : Executor} (hs : s.Related) {t t' : Tracker} (h : BookSteps s t t')
    (hrow : t'.getTrade k = some trade) (hphantom : isPhantom s trade = true) :
    t.getTrade k = some trade := by
  induction h with
  | refl => exact hrow
  | tail _ hstep ih =>
    obtain ⟨e, hknown, htouches⟩ := hstep.touches
    obtain ⟨o, hget⟩ := hs.key_of_knows hknown
    obtain ⟨row, hbefore, hterms, hother⟩ := htouches.row_before hrow
    have hne : row.localOrderId ≠ some e := by
      intro horder
      rw [isPhantom, hterms.localOrderId, horder, Option.any_some, hget] at hphantom
      simp at hphantom
    rw [← hother hne] at hbefore
    exact ih hbefore

lemma Tidies.seesLosses (h : Tidies st input a b) (ha : a.SeesLosses) (hb : b.executor.Related)
    (hphantoms : st.autoClosePhantoms = true → ∀ trade ∈ a.tracker.trades,
      isPhantom b.executor trade = true → trade.closingPnl (trade.entryPrice.getD 0) = 0) :
    b.SeesLosses := by
  obtain ⟨expired, s, -, rfl⟩ := h
  obtain ⟨tracker, htracker⟩ := syncExpired_frame expired { a with executor := s }
  have hsteps := syncExpired_steps expired { a with executor := s }
  have hpnl := syncExpired_pnlClosedOn expired { a with executor := s }
  rw [htracker] at hsteps hpnl hb hphantoms ⊢
  refine ha.congr rfl rfl fun day => ?_
  refine (Tracker.pnlClosedOn_reconcilePositions _ _ _ _ day ?_).trans (hpnl day)
  intro hauto k trade hrow hphantom
  have hbefore := hsteps.phantom_row hb hrow hphantom
  exact hphantoms hauto trade (List.mem_of_getElem? hbefore) hphantom

lemma Finishes.seesLosses {report : CycleReport} (h : Finishes st input books a report b)
    (ha : a.SeesLosses) : (∀ s, report.sizing = some s → s.SeesLosses) ∧
      (b.executor.Related → PhantomsWorthless st report b → b.SeesLosses) := by
  have hsizing : (beginSizing a).SeesLosses := ha.congr rfl rfl fun _ => rfl
  cases h with
  | unanalyzed => exact ⟨by simp, fun _ _ => ha.congr rfl rfl fun _ => rfl⟩
  | emergency hclose hcancels =>
    exact ⟨fun s hs => Option.some.inj hs ▸ hsizing, fun _ _ => hsizing.congr rfl rfl fun _ => rfl⟩
  | traded hclose htrades htidies =>
    obtain ⟨positions, c, hplaces, rfl⟩ := htrades
    have hsettled : (settleBankroll st positions c).SeesLosses :=
      (hplaces.seesLosses hsizing).congr rfl rfl fun _ => rfl
    refine ⟨fun s hs => Option.some.inj hs ▸ hsizing, fun hrelated hphantoms => ?_⟩
    exact htidies.seesLosses hsettled hrelated fun hauto => hphantoms hauto _ rfl

/-- A cycle that books in time. -/
lemma BooksCycle.seesLosses {answers : Oracle AgentRequest AgentReply} {report : CycleReport}
    (h : BooksCycle st input answers a report b) (ha : a.SeesLosses)
    (htime : CycleBooksInTime st input answers a) :
    (∀ s, report.sizing = some s → s.SeesLosses) ∧
      (b.executor.Related → PhantomsWorthless st report b → b.SeesLosses) := by
  have hbooked : ∀ {events a₁}, cycleEvents st input answers a = some (events, a₁) →
      (bookEvents st input 0 events a₁).2.SeesLosses := by
    intro events a₁ hevents
    obtain ⟨_, s, -, rfl⟩ := cycleEvents_returns hevents
    exact bookEvents_seesLosses (ha.congr rfl rfl fun _ => rfl) (htime _ hevents)
  cases h with
  | idle => exact ⟨by simp, fun _ _ => ha.congr rfl rfl fun _ => rfl⟩
  | unbooked hevents hbook =>
    have hafter := hbooked hevents
    rw [hbook] at hafter
    exact ⟨by simp, fun _ _ => hafter.congr rfl rfl fun _ => rfl⟩
  | booked hevents hbook hfinish =>
    have hafter := hbooked hevents
    rw [hbook] at hafter
    exact hfinish.seesLosses hafter

/-! ### Runs -/

/-- The controller sees the losses, and the orders hang together. -/
structure AgentRun.SeesLosses (r : AgentRun) : Prop where
  state : r.state.SeesLosses
  related : r.state.executor.Related

lemma AgentRun.perform_seesLosses {r : AgentRun} (hr : r.SeesLosses) {move : AgentMove}
    (htime : Timely st r move) : (r.perform st move).SeesLosses := by
  have hrelated : (r.perform st move).state.executor.Related :=
    (AgentRun.run_evolves st r [move]).changes.related hr.related
  refine ⟨?_, hrelated⟩
  cases move with
  | cycle input answers =>
    obtain ⟨b, hcycle, hstate⟩ := runCycle_booksCycle st input answers r.state
    obtain ⟨-, hafter⟩ := hcycle.seesLosses hr.state htime.1
    have hphantoms := htime.2
    change ((runCycle st input).run answers r.state).state.executor.Related at hrelated
    rw [hstate] at hphantoms hrelated
    have hb := hafter hrelated hphantoms
    show ((runCycle st input).run answers r.state).state.SeesLosses
    rw [hstate]
    exact hb.congr rfl rfl fun _ => rfl
  | pause => exact hr.state.congr rfl rfl fun _ => rfl
  | changeFile location file => exact hr.state.congr rfl rfl fun _ => rfl

/-- A process starts with nothing lost. -/
lemma restart_seesLosses (now : Time) (a : AgentState)
    (h : ∀ day, utcDay now ≤ day → a.tracker.pnlClosedOn day = 0) :
    AgentRun.SeesLosses ⟨a.restart st now, []⟩ := by
  refine ⟨?_, a.executor.restart_related⟩
  have hdaily : (a.restart st now).drawdown.dailyPnl = 0 ∧
      (a.restart st now).drawdown.dailyResetDate = utcDay now := by
    rw [AgentState.restart, AgentState.start]
    dsimp only
    split_ifs <;> exact ⟨rfl, rfl⟩
  obtain ⟨hpnl, hday⟩ := hdaily
  constructor
  · rw [hday, hpnl]
    exact h _ le_rfl
  · intro day hlater
    exact h day (hday ▸ hlater.le)

/-- At a sizing the controller has the PnL of the day exactly when it was told of something on that day,
or has nothing to forget, as long as the trades were closed in time. -/
theorem sizing_seesLosses_iff (st : Settings) (a : AgentState) (now : Time) (moves : List AgentMove)
    (input : CycleInput) (answers : Oracle AgentRequest AgentReply) {s : AgentState}
    (hstart : ∀ day, utcDay now ≤ day → a.tracker.pnlClosedOn day = 0)
    (hmoves : (⟨a.restart st now, []⟩ : AgentRun).Along st (Timely st) moves)
    (hlast : CycleBooksInTime st input answers
      ((⟨a.restart st now, []⟩ : AgentRun).run st moves).state)
    (hsizing : ((runCycle st input).run answers
      ((⟨a.restart st now, []⟩ : AgentRun).run st moves).state).result.sizing = some s)
    (hclock : s.drawdown.dailyResetDate ≤ utcDay input.sizingAt) :
    s.drawdown.dailyPnl = s.tracker.pnlClosedOn (utcDay input.sizingAt) ↔
      s.drawdown.dailyResetDate = utcDay input.sizingAt ∨ s.drawdown.dailyPnl = 0 := by
  have hrun : AgentRun.SeesLosses ((⟨a.restart st now, []⟩ : AgentRun).run st moves) :=
    AgentRun.along_induction (restart_seesLosses now a hstart) hmoves
      fun _ _ hr htime => AgentRun.perform_seesLosses hr htime
  obtain ⟨b, hcycle, -⟩ := runCycle_booksCycle st input answers
    ((⟨a.restart st now, []⟩ : AgentRun).run st moves).state
  have hs := (hcycle.seesLosses hrun.state hlast).1 s hsizing
  rcases eq_or_lt_of_le hclock with hday | hday
  · simp only [← hday, hs.today, true_or]
  · rw [hs.later _ hday]
    simp [hday.ne]

/-! ### A loss before midnight -/

instance (input : CycleInput) (pnl : ℚ) (order : Order) (trade : Trade) (a : AgentState) :
    Decidable (ClosesInTime input pnl order trade a) :=
  inferInstanceAs (Decidable (_ ∧ _))

instance : Decidable (BookedInTime st input failure event a) :=
  inferInstanceAs (Decidable (_ → _))

instance decidableAllBookedInTime (st : Settings) (input : CycleInput) : (n : ℕ) →
    (events : List OrderLifecycleEvent) → (a : AgentState) →
      Decidable (AllBookedInTime st input n events a)
  | _, [], _ => isTrue trivial
  | n, event :: events, a =>
    have := decidableAllBookedInTime st input (n + 1) events
      (bookEvent st input (input.failure n) event a).2
    inferInstanceAs (Decidable (_ ∧ (_ → _)))

instance (answers : Oracle AgentRequest AgentReply) : Decidable (CycleBooksInTime st input answers a) :=
  inferInstanceAs (Decidable (∀ x ∈ cycleEvents st input answers a, AllBookedInTime st input 0 x.1 x.2))

instance (report : CycleReport) : Decidable (PhantomsWorthless st report a) :=
  inferInstanceAs (Decidable (_ → _))

instance (r : AgentRun) : DecidablePred (Timely st r)
  | .cycle _ _ => inferInstanceAs (Decidable (_ ∧ _))
  | .pause | .changeFile _ _ => isTrue trivial

/-- The agent opens a position in its first cycle. -/
def investing : AgentMove := .cycle (cycleAt 0) (delivering [coinMarket] [headsEdge])

def crashedMarket : Market × Option OrderBookSnapshot :=
  (coinMarket.1,
    some { midpoint := 41 / 100, bestBid := 40 / 100, bestAsk := 42 / 100, bids := [], asks := [] })

/-- The price has fallen below the stop-loss. -/
def losing : Oracle AgentRequest AgentReply := delivering [crashedMarket] []

/-- The agent that has opened a position. -/
def holding : AgentState :=
  ((⟨(started bold).state.restart bold 0, []⟩ : AgentRun).run bold [investing]).state

/-- The theorem where the loss is booked and the positions are sized on one day. -/
theorem sizing_seesLosses_sameDay : ∃ s,
    ((runCycle bold (cycleAt 120000000)).run losing holding).result.sizing = some s ∧
      (s.drawdown.dailyPnl = s.tracker.pnlClosedOn 0 ↔
        s.drawdown.dailyResetDate = 0 ∨ s.drawdown.dailyPnl = 0) := by
  have h : (((runCycle bold (cycleAt 120000000)).run losing holding).result.sizing.any fun s =>
      s.drawdown.dailyResetDate ≤ 0) = true := by decide +kernel
  obtain ⟨s, hsizing, hclock⟩ := (Option.any_eq_true _ _).mp h
  exact ⟨s, hsizing, sizing_seesLosses_iff bold (started bold).state 0 [investing] (cycleAt 120000000)
    losing (fun _ _ => rfl) (by decide +kernel) (by decide +kernel) hsizing (of_decide_eq_true hclock)⟩

/-- A cycle that books its events in the last second of a day. -/
def midnightCycle : CycleInput :=
  { cycleAt 86400000000 with reconcileAt := 86399000000, bookingAt := 86399000000 }

/-- After midnight the loss of the day before still counts. -/
theorem sizing_seesLosses_midnight : ∃ s,
    ((runCycle bold midnightCycle).run losing holding).result.sizing = some s ∧
      s.drawdown.dailyPnl ≠ s.tracker.pnlClosedOn (utcDay midnightCycle.sizingAt) := by
  have h : (((runCycle bold midnightCycle).run losing holding).result.sizing.any fun s =>
      s.drawdown.dailyPnl ≠ s.tracker.pnlClosedOn (utcDay midnightCycle.sizingAt)) = true := by
    decide +kernel
  obtain ⟨s, hsizing, hne⟩ := (Option.any_eq_true _ _).mp h
  exact ⟨s, hsizing, of_decide_eq_true hne⟩

end PolyCortex
