import PolyCortex.Agent.Cycle
import PolyCortex.Coroutine.Returns

/-!
# What a cycle comes to

`CycleRun` lists the ways through a cycle, with the states at its stages: what the executor has done is
given by what its operations may return, the rest by the synchronous parts of the cycle.
`runCycle_cycleRun` is the one place where the cycle is taken apart.
-/

namespace PolyCortex

open Coroutine

/-- The agent has reconciled its orders and booked the events, up to the first exception. -/
def Reconciles (st : Settings) (input : CycleInput) (books : Dict MarketId BookData)
    (a a' : AgentState) (booked : Bool) : Prop :=
  ∃ events s, (reconcileOrders st.cfg (marketBooks books) input.reconcileAt).Returns a.executor events s ∧
    bookEvents st input 0 events { a with executor := s } = (booked, a')

/-- The size of the position an edge is worth. -/
def sizeFor (edge : EdgeResult) (positions : List Trade) (multiplier : ℚ) (a : AgentState) : ℚ :=
  a.sizer.calculatePosition edge (positions.map (·.held)) multiplier

/-- An opportunity is passed over without asking the executor. -/
def PassedOver (st : Settings) (books : Dict MarketId BookData) (multiplier : ℚ) (edge : EdgeResult)
    (positions : List Trade) (a : AgentState) : Prop :=
  sizeFor edge positions multiplier a ≤ 0 ∨
    slippageAccepted st (sizeFor edge positions multiplier a) (books.get? edge.marketId) = false

/-- The placement of an opportunity, as the executor is asked for it. -/
def placement (st : Settings) (input : CycleInput) (books : Dict MarketId BookData) (multiplier : ℚ)
    (n : ℕ) (edge : EdgeResult) (positions : List Trade) (a : AgentState) : Program (Option OrderId) :=
  placeOrder st.cfg (st.deployment.ambient a.files (input.placeAt n) input.ledgerWritable)
    (placeRequest st edge (sizeFor edge positions multiplier a) (books.get? edge.marketId))

/-- What comes of the `n`-th opportunity. -/
inductive Places (st : Settings) (input : CycleInput) (books : Dict MarketId BookData)
    (multiplier : ℚ) (n : ℕ) (edge : EdgeResult) (positions : List Trade) (a : AgentState) :
    List Trade → AgentState → Prop where
  | passed (hpassed : PassedOver st books multiplier edge positions a) :
    Places st input books multiplier n edge positions a positions a
  | refused {s : Executor} (hasked : ¬ PassedOver st books multiplier edge positions a)
    (horder : (placement st input books multiplier n edge positions a).Returns a.executor none s) :
    Places st input books multiplier n edge positions a positions { a with executor := s }
  | placed {orderId : OrderId} {s : Executor} {a' : AgentState}
    (hasked : ¬ PassedOver st books multiplier edge positions a)
    (horder : (placement st input books multiplier n edge positions a).Returns a.executor
      (some orderId) s)
    (hrecord : a' = recordPlacement st (input.placeAt n) edge (sizeFor edge positions multiplier a)
      orderId { a with executor := s }) :
    Places st input books multiplier n edge positions a a'.tracker.getOpenPositions a'

/-- What comes of a list of opportunities. -/
inductive PlacesAll (st : Settings) (input : CycleInput) (books : Dict MarketId BookData)
    (multiplier : ℚ) : ℕ → List EdgeResult → List Trade → AgentState → List Trade → AgentState →
    Prop where
  | nil {n : ℕ} {positions : List Trade} {a : AgentState} :
    PlacesAll st input books multiplier n [] positions a positions a
  | cons {n : ℕ} {edge : EdgeResult} {edges : List EdgeResult}
    {positions positions₁ positions₂ : List Trade} {a a₁ a₂ : AgentState}
    (hplaces : Places st input books multiplier n edge positions a positions₁ a₁)
    (hrest : PlacesAll st input books multiplier (n + 1) edges positions₁ a₁ positions₂ a₂) :
    PlacesAll st input books multiplier n (edge :: edges) positions a positions₂ a₂

/-- The positions that are sized in the state `a` come to the state `a'`, settled on its ledger. -/
def Trades (st : Settings) (input : CycleInput) (books : Dict MarketId BookData)
    (edges : List EdgeResult) (a a' : AgentState) : Prop :=
  ∃ positions a₁, PlacesAll st input books (a.drawdown.getMultiplier a.bankroll) 0
    (topOpportunities st edges) a.tracker.getOpenPositions a positions a₁ ∧
    a' = settleBankroll st positions a₁

/-- The end of a cycle: expired orders are cancelled, the positions reconciled. -/
def Tidies (st : Settings) (input : CycleInput) (a a' : AgentState) : Prop :=
  ∃ expired s, (cancelExpiredOrders st.cfg input.settleAt).Returns a.executor expired s ∧
    a' =
      let a := expired.foldl syncExpired { a with executor := s }
      { a with
        tracker := reconcilePositions st.autoClosePhantoms input.settleAt a.executor a.tracker
        consecutiveFailures := 0 }

def AgentState.fail (a : AgentState) : AgentState :=
  { a with consecutiveFailures := a.consecutiveFailures + 1 }

/-- The `try` block of a cycle, from the state `a`. -/
inductive CycleRun (st : Settings) (input : CycleInput) (a : AgentState) :
    CycleReport → AgentState → Prop where
  | halted (hhalted : st.deployment.Halted a.files) : CycleRun st input a {} a
  | unscanned (hrunning : ¬ st.deployment.Halted a.files) : CycleRun st input a {} a.fail
  | failed {scanned : List (Market × Option OrderBookSnapshot)} {b : AgentState} {booked : Bool}
    (hrunning : ¬ st.deployment.Halted a.files)
    (hreconciles : Reconciles st input (orderBooks scanned) a b booked) :
    CycleRun st input a {} b.fail
  | emergency {scanned : List (Market × Option OrderBookSnapshot)} {b : AgentState}
    {cancelled : ℕ} {s : Executor} (hrunning : ¬ st.deployment.Halted a.files)
    (hreconciles : Reconciles st input (orderBooks scanned) a b true)
    (hclose : (beginSizing b).drawdown.shouldCloseAll (beginSizing b).bankroll = true)
    (hcancels : (cancelAllOpenOrders st.cfg).Returns b.executor cancelled s) :
    CycleRun st input a { sizing := some (beginSizing b) }
      { beginSizing b with
        executor := s
        files := st.deployment.halt input.timestamp "Emergency drawdown threshold breached" b.files }
  | traded {scanned : List (Market × Option OrderBookSnapshot)} {edges : List EdgeResult}
    {b c d : AgentState} (hrunning : ¬ st.deployment.Halted a.files)
    (hreconciles : Reconciles st input (orderBooks scanned) a b true)
    (hclose : (beginSizing b).drawdown.shouldCloseAll (beginSizing b).bankroll = false)
    (htrades : Trades st input (orderBooks scanned) edges (beginSizing b) c)
    (htidies : Tidies st input c d) :
    CycleRun st input a { sizing := some (beginSizing b), settled := some c.tracker } d

/-- The rest of the `try` block, from the state `b` in which the events are booked. -/
inductive Finishes (st : Settings) (input : CycleInput) (books : Dict MarketId BookData)
    (b : AgentState) : CycleReport → AgentState → Prop where
  | unanalyzed : Finishes st input books b {} b.fail
  | emergency {cancelled : ℕ} {s : Executor}
    (hclose : (beginSizing b).drawdown.shouldCloseAll (beginSizing b).bankroll = true)
    (hcancels : (cancelAllOpenOrders st.cfg).Returns b.executor cancelled s) :
    Finishes st input books b { sizing := some (beginSizing b) }
      { beginSizing b with
        executor := s
        files := st.deployment.halt input.timestamp "Emergency drawdown threshold breached" b.files }
  | traded {edges : List EdgeResult} {c d : AgentState}
    (hclose : (beginSizing b).drawdown.shouldCloseAll (beginSizing b).bankroll = false)
    (htrades : Trades st input books edges (beginSizing b) c) (htidies : Tidies st input c d) :
    Finishes st input books b { sizing := some (beginSizing b), settled := some c.tracker } d

/-- The events a cycle has to book, and the state in which it books them. -/
def cycleEvents (st : Settings) (input : CycleInput) (answers : Oracle AgentRequest AgentReply)
    (a : AgentState) : Option (List OrderLifecycleEvent × AgentState) :=
  if st.deployment.Halted a.files then none
  else
    (answers 0 .scan).map fun scanned =>
      let outcome := (onExecutor (reconcileOrders st.cfg (marketBooks (orderBooks scanned))
        input.reconcileAt)).run (fun n => answers (n + 1)) a
      (outcome.result, outcome.state)

/-- A cycle, by the events it has to book. -/
inductive BooksCycle (st : Settings) (input : CycleInput) (answers : Oracle AgentRequest AgentReply)
    (a : AgentState) : CycleReport → AgentState → Prop where
  | idle {failures : ℕ} (hevents : cycleEvents st input answers a = none) :
    BooksCycle st input answers a {} { a with consecutiveFailures := failures }
  | unbooked {events : List OrderLifecycleEvent} {a₁ a₂ : AgentState}
    (hevents : cycleEvents st input answers a = some (events, a₁))
    (hbook : bookEvents st input 0 events a₁ = (false, a₂)) : BooksCycle st input answers a {} a₂.fail
  | booked {events : List OrderLifecycleEvent} {a₁ a₂ b : AgentState}
    {books : Dict MarketId BookData} {report : CycleReport}
    (hevents : cycleEvents st input answers a = some (events, a₁))
    (hbook : bookEvents st input 0 events a₁ = (true, a₂))
    (hfinish : Finishes st input books a₂ report b) : BooksCycle st input answers a report b

/-! ### Taking the cycle apart -/

section Inversion

variable {st : Settings} {input : CycleInput} {books : Dict MarketId BookData} {a a' : AgentState}

lemma onExecutor_returns {α : Type} {p : Program α} {r : α} (h : (onExecutor p).Returns a r a') :
    ∃ s, p.Returns a.executor r s ∧ a' = { a with executor := s } :=
  h.of_zoom

lemma reconcileOrderLifecycle_reconciles {booked : Bool}
    (h : (reconcileOrderLifecycle st input books).Returns a booked a') :
    Reconciles st input books a a' booked := by
  obtain ⟨events, a₁, hevents, hbook⟩ := h.of_bind
  obtain ⟨s, hreturns, rfl⟩ := onExecutor_returns hevents
  exact ⟨events, s, hreturns, hbook.of_modifyGet⟩

lemma placeOpportunity_places {multiplier : ℚ} {n : ℕ} {edge : EdgeResult}
    {positions positions' : List Trade}
    (h : (placeOpportunity st input books multiplier n edge positions).Returns a positions' a') :
    Places st input books multiplier n edge positions a positions' a' := by
  replace h := h.of_get
  dsimp only at h
  split_ifs at h with hsize hslippage
  · obtain ⟨rfl, rfl⟩ := h.of_pure
    exact .passed (Or.inl hsize)
  · have hasked : ¬ PassedOver st books multiplier edge positions a :=
      not_or.mpr ⟨hsize, by simpa [sizeFor] using hslippage⟩
    obtain ⟨orderId, a₁, horder, h⟩ := h.of_bind
    obtain ⟨s, hreturns, rfl⟩ := onExecutor_returns horder
    cases orderId with
    | none =>
      obtain ⟨rfl, rfl⟩ := h.of_pure
      exact .refused hasked hreturns
    | some orderId =>
      obtain ⟨rfl, rfl⟩ := Prod.ext_iff.mp h.of_modifyGet
      exact .placed hasked hreturns rfl
  · obtain ⟨rfl, rfl⟩ := h.of_pure
    exact .passed (Or.inr (by simpa [sizeFor] using hslippage))

lemma placeOpportunities_placesAll {multiplier : ℚ} {n : ℕ} {edges : List EdgeResult}
    {positions positions' : List Trade}
    (h : (placeOpportunities st input books multiplier n edges positions).Returns a positions' a') :
    PlacesAll st input books multiplier n edges positions a positions' a' := by
  induction edges generalizing n positions a with
  | nil =>
    obtain ⟨rfl, rfl⟩ := h.of_pure
    exact .nil
  | cons edge edges ih =>
    obtain ⟨positions₁, a₁, hfirst, hrest⟩ := h.of_bind
    exact .cons (placeOpportunity_places hfirst) (ih hrest)

lemma tidyUp_tidies {u : Unit} (h : (tidyUp st input).Returns a u a') : Tidies st input a a' := by
  obtain ⟨expired, a₁, hexpired, h⟩ := h.of_bind
  obtain ⟨s, hreturns, rfl⟩ := onExecutor_returns hexpired
  exact ⟨expired, s, hreturns, h.of_modify.of_pure.2.symm⟩

lemma failCycle_fails {report : CycleReport} (h : failCycle.Returns a report a') :
    report = {} ∧ a' = a.fail := by
  obtain ⟨hreport, hstate⟩ := h.of_modify.of_pure
  exact ⟨hreport.symm, hstate.symm⟩

lemma BooksCycle.of_fails {answers : Oracle AgentRequest AgentReply} {a₁ a₂ b : AgentState}
    {events : List OrderLifecycleEvent} {report : CycleReport}
    (hevents : cycleEvents st input answers a = some (events, a₁))
    (hbook : bookEvents st input 0 events a₁ = (false, a₂)) (h : report = {} ∧ b = a₂.fail) :
    BooksCycle st input answers a report b := by
  obtain ⟨rfl, rfl⟩ := h
  exact .unbooked hevents hbook

/-- What follows when the events are booked. -/
lemma analyze_finishes {report : CycleReport}
    (h : (analyzeMarkets.bind fun edges => match edges with
      | none => failCycle
      | some edges => sizeAndExecute st input books edges).Returns a report a') :
    Finishes st input books a report a' := by
  obtain ⟨edges, b₁, hedges, h⟩ := h.of_bind
  obtain rfl := hedges.of_ask
  cases edges with
  | none =>
    obtain ⟨rfl, rfl⟩ := failCycle_fails h
    exact .unanalyzed
  | some edges =>
    replace h := h.of_modify.of_get
    split_ifs at h with hclose
    · obtain ⟨_, c, hexit, h⟩ := h.of_bind
      obtain ⟨rfl, rfl⟩ := h.of_pure
      obtain ⟨cancelled, c₁, hcancel, hexit⟩ := hexit.of_bind
      obtain ⟨s, hreturns, rfl⟩ := onExecutor_returns hcancel
      obtain ⟨_, rfl⟩ := hexit.of_modify.of_pure
      exact .emergency hclose hreturns
    · obtain ⟨positions, c, hplace, h⟩ := h.of_bind
      replace h := h.of_modify.of_get
      obtain ⟨_, d, htidy, h⟩ := h.of_bind
      obtain ⟨rfl, rfl⟩ := h.of_pure
      exact .traded (by simpa using hclose)
        ⟨positions, c, placeOpportunities_placesAll hplace, rfl⟩ (tidyUp_tidies htidy)

/-- Every way through the `try` block is listed. -/
lemma attemptCycle_cycleRun {report : CycleReport}
    (h : (attemptCycle st input).Returns a report a') : CycleRun st input a report a' := by
  replace h := h.of_get
  split_ifs at h with hhalted
  · obtain ⟨rfl, rfl⟩ := h.of_pure
    exact .halted hhalted
  obtain ⟨scanned, a₁, hscan, h⟩ := h.of_bind
  obtain rfl := hscan.of_ask
  cases scanned with
  | none =>
    obtain ⟨rfl, rfl⟩ := failCycle_fails h
    exact .unscanned hhalted
  | some scanned =>
    obtain ⟨booked, b, hbooked, h⟩ := h.of_bind
    have hreconciles := reconcileOrderLifecycle_reconciles hbooked
    cases booked with
    | false =>
      obtain ⟨rfl, rfl⟩ := failCycle_fails h
      exact .failed hhalted hreconciles
    | true =>
      cases analyze_finishes h with
      | unanalyzed => exact .failed hhalted hreconciles
      | emergency hclose hcancels => exact .emergency hhalted hreconciles hclose hcancels
      | traded hclose htrades htidies => exact .traded hhalted hreconciles hclose htrades htidies

/-- The same, by the events that were to be booked. -/
lemma attemptCycle_booksCycle (st : Settings) (input : CycleInput)
    (answers : Oracle AgentRequest AgentReply) (a : AgentState) :
    BooksCycle st input answers a ((attemptCycle st input).run answers a).result
      ((attemptCycle st input).run answers a).state := by
  rw [attemptCycle, bind_def, run_get_bind]
  split_ifs with hhalted
  · exact .idle (by rw [cycleEvents, if_pos hhalted])
  have hevents : ∀ scanned, answers 0 .scan = some scanned →
      let outcome := (onExecutor (reconcileOrders st.cfg (marketBooks (orderBooks scanned))
        input.reconcileAt)).run (fun n => answers (n + 1)) a
      cycleEvents st input answers a = some (outcome.result, outcome.state) := by
    intro scanned hscan
    rw [cycleEvents, if_neg hhalted, hscan, Option.map_some]
  rw [scanMarkets, bind_def, ask, await_bind, run_await]
  simp only [Coroutine.pure_bind]
  cases hscan : answers 0 AgentRequest.scan with
  | none => exact .idle (by rw [cycleEvents, if_neg hhalted, hscan, Option.map_none])
  | some scanned =>
    have hrest := bind_returns (reconcileOrderLifecycle st input (orderBooks scanned))
      (fun booked => if booked = true then analyzeMarkets.bind fun edges => match edges with
        | none => failCycle
        | some edges => sizeAndExecute st input (orderBooks scanned) edges
      else failCycle) (fun n => answers (n + 1)) a
    have hbook := (bind_returns (onExecutor (reconcileOrders st.cfg
      (marketBooks (orderBooks scanned)) input.reconcileAt))
      (fun events => modifyGet (bookEvents st input 0 events)) (fun n => answers (n + 1)) a).of_modifyGet
    change bookEvents .. = (((reconcileOrderLifecycle st input (orderBooks scanned)).run _ a).result,
      ((reconcileOrderLifecycle st input (orderBooks scanned)).run _ a).state) at hbook
    cases hbooked : ((reconcileOrderLifecycle st input (orderBooks scanned)).run
      (fun n => answers (n + 1)) a).result with
    | false =>
      rw [hbooked] at hbook
      simp only [hbooked] at hrest
      exact .of_fails (hevents scanned hscan) hbook (failCycle_fails hrest)
    | true =>
      rw [hbooked] at hbook
      simp only [hbooked] at hrest
      exact .booked (hevents scanned hscan) hbook (analyze_finishes hrest)

/-- A cycle is an attempt, and what is always done at its end. -/
theorem runCycle_cycleRun {report : CycleReport} (h : (runCycle st input).Returns a report a') :
    ∃ b, CycleRun st input a report b ∧ a' = concludeCycle st input b := by
  obtain ⟨report', b, hrun, h⟩ := h.of_bind
  obtain ⟨rfl, rfl⟩ := h.of_modify.of_pure
  exact ⟨b, attemptCycle_cycleRun hrun, rfl⟩

theorem runCycle_booksCycle (st : Settings) (input : CycleInput)
    (answers : Oracle AgentRequest AgentReply) (a : AgentState) :
    ∃ b, BooksCycle st input answers a ((runCycle st input).run answers a).result b ∧
      ((runCycle st input).run answers a).state = concludeCycle st input b := by
  have hconclude := bind_returns (attemptCycle st input)
    (fun report => (modify (concludeCycle st input)).bind fun _ => .pure report) answers a
  obtain ⟨hreport, hstate⟩ := hconclude.of_modify.of_pure
  refine ⟨_, ?_, hstate.symm⟩
  have hattempt := attemptCycle_booksCycle st input answers a
  rw [hreport] at hattempt
  exact hattempt

end Inversion

/-- To the events it has to book a cycle comes by a reconciliation. -/
lemma cycleEvents_returns {st : Settings} {input : CycleInput}
    {answers : Oracle AgentRequest AgentReply} {a a₁ : AgentState}
    {events : List OrderLifecycleEvent} (h : cycleEvents st input answers a = some (events, a₁)) :
    ∃ books s, (reconcileOrders st.cfg books input.reconcileAt).Returns a.executor events s ∧
      a₁ = { a with executor := s } := by
  rw [cycleEvents] at h
  split_ifs at h
  obtain ⟨scanned, -, hpass⟩ := Option.map_eq_some_iff.mp h
  obtain ⟨rfl, rfl⟩ := Prod.ext_iff.mp hpass
  exact ⟨_, onExecutor_returns (run_returns ..)⟩

/-! ### What the parts leave alone -/

section Frames

variable {st : Settings} {now : Time} {edge : EdgeResult} {size : ℚ} {orderId : OrderId}

/-- Recording a placement changes the tracker, the bankroll and the sizer. -/
lemma recordPlacement_frame (st : Settings) (now : Time) (edge : EdgeResult) (size : ℚ)
    (orderId : OrderId) (a : AgentState) : ∃ tracker bankroll sizer,
    recordPlacement st now edge size orderId a = { a with tracker, bankroll, sizer } := by
  rw [recordPlacement]
  cases a.executor.orders.get? orderId with
  | none => exact ⟨a.tracker, a.bankroll, a.sizer, rfl⟩
  | some order =>
    dsimp only
    split_ifs <;> exact ⟨_, _, _, rfl⟩

@[simp] lemma executor_recordPlacement (a : AgentState) :
    (recordPlacement st now edge size orderId a).executor = a.executor := by
  obtain ⟨_, _, _, h⟩ := recordPlacement_frame st now edge size orderId a
  rw [h]

end Frames

/-! ### Runs -/

/-- What a move of the agent does, with the report of a cycle. -/
inductive Moves (st : Settings) (a : AgentState) :
    AgentMove → Option CycleReport → AgentState → Prop where
  | cycle {input : CycleInput} {answers : Oracle AgentRequest AgentReply} {report : CycleReport}
    {b : AgentState} (hrun : CycleRun st input a report b) :
    Moves st a (.cycle input answers) (some report) (concludeCycle st input b)
  | pause : Moves st a .pause none { a with consecutiveFailures := 0 }
  | changeFile {location : Location} {file : Option File} :
    Moves st a (.changeFile location file) none { a with files := a.files.set location file }

lemma AgentRun.perform_moves (st : Settings) (r : AgentRun) (move : AgentMove) :
    ∃ report a, Moves st r.state move report a ∧
      r.perform st move = ⟨a, r.reports ++ report.toList⟩ := by
  cases move with
  | cycle input answers =>
    obtain ⟨b, hrun, hstate⟩ :=
      runCycle_cycleRun ((runCycle st input).run_returns answers r.state)
    refine ⟨_, _, .cycle hrun, ?_⟩
    rw [AgentRun.perform, hstate]
    rfl
  | pause => exact ⟨none, _, .pause, by simp [AgentRun.perform]⟩
  | changeFile location file => exact ⟨none, _, .changeFile, by simp [AgentRun.perform]⟩

/-- What holds of a run and is kept by the moves `C` admits holds after all of them. -/
theorem AgentRun.run_induction {st : Settings} {P : AgentRun → Prop} {C : AgentMove → Prop}
    {r : AgentRun} (hr : P r) {moves : List AgentMove} (hmoves : ∀ move ∈ moves, C move)
    (hstep : ∀ r move report a, P r → C move → Moves st r.state move report a →
      P ⟨a, r.reports ++ report.toList⟩) : P (r.run st moves) := by
  induction moves generalizing r with
  | nil => exact hr
  | cons move moves ih =>
    obtain ⟨report, a, hmove, hperform⟩ := r.perform_moves st move
    refine ih ?_ fun move' hmove' => hmoves move' (List.mem_cons_of_mem _ hmove')
    rw [hperform]
    exact hstep r move report a hr (hmoves move List.mem_cons_self) hmove

/-- Every move meets `C` in the run it finds. -/
def AgentRun.Along (st : Settings) (C : AgentRun → AgentMove → Prop) :
    AgentRun → List AgentMove → Prop
  | _, [] => True
  | r, move :: moves => C r move ∧ AgentRun.Along st C (r.perform st move) moves

instance AgentRun.decidableAlong (st : Settings) (C : AgentRun → AgentMove → Prop)
    [∀ r move, Decidable (C r move)] :
    (r : AgentRun) → (moves : List AgentMove) → Decidable (r.Along st C moves)
  | _, [] => isTrue trivial
  | r, move :: moves =>
    @instDecidableAnd _ _ _ (decidableAlong st C (r.perform st move) moves)

/-- What the moves that meet `C` keep holds after all of them. -/
theorem AgentRun.along_induction {st : Settings} {P : AgentRun → Prop}
    {C : AgentRun → AgentMove → Prop} {r : AgentRun} (hr : P r) {moves : List AgentMove}
    (h : r.Along st C moves) (hstep : ∀ r move, P r → C r move → P (r.perform st move)) :
    P (r.run st moves) := by
  induction moves generalizing r with
  | nil => exact hr
  | cons move moves ih => exact ih (hstep r move hr h.1) h.2

end PolyCortex
