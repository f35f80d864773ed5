import PolyCortex.Agent.Steps
import PolyCortex.Execution.Withdrawal

/-!
# The emergency branch

At a drawdown of `emergencyAt` the cycle cancels all open orders and engages the kill switch. Nothing is
sold: the stop-losses of the open positions are cancelled with the other orders, and no later cycle
looks at them (`emergency_leavesNothing_iff`).
-/

namespace PolyCortex

open Coroutine

variable {st : Settings}

/-! ### What protects a position -/

/-- The trade has a positive filled size. -/
def Trade.isFilled (t : Trade) : Bool := t.filledSizeUsdc.any (0 < ·)

/-- A SELL order for the trade, placed since the ids had come to `since`. -/
structure Order.Sells (since : OrderId) (trade : Trade) (id : OrderId) (o : Order) : Prop where
  new : since ≤ id
  side : o.side = .sell
  marketId : o.marketId = trade.marketId
  direction : o.direction = trade.direction

/-- An armed stop-loss of the entry of the trade. -/
structure Order.Guards (trade : Trade) (o : Order) : Prop where
  kind : o.orderKind = .stopLoss
  armed : o.status = .armed
  parent : ∃ entryId, o.parentOrderId = some entryId ∧ trade.localOrderId = some entryId

/-- The trade is sold, or still guarded. -/
def Executor.Covers (since : OrderId) (s : Executor) (trade : Trade) : Prop :=
  ∃ id o, s.orders.get? id = some o ∧ (o.Sells since trade id ∨ o.Guards trade)

/-- The operator leaves the files alone. -/
def AgentMove.Undisturbed : AgentMove → Prop
  | .cycle _ _ | .pause => True
  | .changeFile _ _ => False

/-- Every filled position that is open is sold or guarded, and may be closed without the operator. -/
structure AgentState.LeavesNothing (st : Settings) (since : OrderId) (a : AgentState) : Prop where
  covered : ∀ trade ∈ a.tracker.getOpenPositions, trade.isFilled = true →
    a.executor.Covers since trade
  closable : ∀ k trade, a.tracker.getTrade k = some trade → trade.isOpen = true →
    trade.isFilled = true → ∃ moves : List AgentMove, (∀ move ∈ moves, move.Undisturbed) ∧
      ∀ later, (AgentRun.run st ⟨a, []⟩ moves).state.tracker.getTrade k = some later →
        later.isOpen = false

/-! ### The branch -/

/-- What the emergency branch has come to. -/
lemma runCycle_emergency {input : CycleInput} {answers : Oracle AgentRequest AgentReply}
    {a s : AgentState} (hsizing : ((runCycle st input).run answers a).result.sizing = some s)
    (hclose : s.drawdown.shouldCloseAll s.bankroll = true) :
    let a' := ((runCycle st input).run answers a).state
    a'.tracker = s.tracker ∧ st.deployment.Halted a'.files ∧
      ∃ cancelled, (cancelAllOpenOrders st.cfg).Returns s.executor cancelled a'.executor := by
  obtain ⟨b, hrun, hstate⟩ := runCycle_cycleRun ((runCycle st input).run_returns answers a)
  rw [hstate]
  generalize ((runCycle st input).run answers a).result = report at hsizing hrun
  cases hrun with
  | halted hhalted => contradiction
  | unscanned hrunning => contradiction
  | failed hrunning hreconciles => contradiction
  | emergency hrunning hreconciles hemergency hcancels =>
    obtain rfl := Option.some.inj hsizing
    refine ⟨rfl, ?_, _, hcancels⟩
    show st.deployment.Halted (st.deployment.concludeCycle _ _ _)
    rw [Deployment.concludeCycle]
    split_ifs
    · apply Deployment.halted_halt
    · apply Deployment.halted_halt
  | traded hrunning hreconciles hcalm htrades htidies =>
    obtain rfl := Option.some.inj hsizing
    rw [hcalm] at hclose
    contradiction

/-- After the withdrawal nothing is covered: nothing was sold, and no stop-loss is armed. -/
lemma not_covers_of_withdrawn {s s' : Executor} {cancelled : ℕ} {cfg : Config}
    (h : (cancelAllOpenOrders cfg).Returns s cancelled s') (trade : Trade) :
    ¬ s'.Covers s.nextId trade := by
  obtain ⟨t, -, hsubsides, hopen⟩ :=
    h.meets (cancelAllOpenOrders_withdraws ⟨s, []⟩) (fun _ => trivial) fun _ _ => trivial
  rintro ⟨id, o, hget, hsells | hguards⟩
  · obtain ⟨o', hget', -⟩ := hsubsides id o hget
    exact (Executor.lt_nextId hget').not_ge hsells.new
  · obtain ⟨⟨-, -, hentry⟩, -⟩ := hopen id o hget (by rw [hguards.armed]; rfl)
    rw [hguards.kind] at hentry
    contradiction

/-- A halted agent does nothing, until the operator removes the file. -/
theorem run_of_halted {a : AgentState} (hhalted : st.deployment.Halted a.files) (reports)
    {moves : List AgentMove} (hmoves : ∀ move ∈ moves, move.Undisturbed) :
    let later := ((⟨a, reports⟩ : AgentRun).run st moves).state
    later.executor = a.executor ∧ later.tracker = a.tracker ∧ st.deployment.Halted later.files := by
  refine AgentRun.run_induction (P := fun r => r.state.executor = a.executor ∧
    r.state.tracker = a.tracker ∧ st.deployment.Halted r.state.files) ⟨rfl, rfl, hhalted⟩ hmoves ?_
  rintro r move report b ⟨hexecutor, htracker, hfiles⟩ hquiet hmove
  cases hmove with
  | cycle hrun =>
    cases hrun with
    | halted =>
      refine ⟨hexecutor, htracker, ?_⟩
      show st.deployment.Halted (st.deployment.concludeCycle _ _ _)
      rw [Deployment.concludeCycle]
      split_ifs
      · apply Deployment.halted_halt
      · exact hfiles
    | unscanned hrunning => contradiction
    | failed hrunning => contradiction
    | emergency hrunning => contradiction
    | traded hrunning => contradiction
  | pause => exact ⟨hexecutor, htracker, hfiles⟩
  | changeFile => exact hquiet.elim

/-- The emergency branch leaves nothing exposed exactly when there is no filled position. -/
theorem emergency_leavesNothing_iff (input : CycleInput) (answers : Oracle AgentRequest AgentReply)
    (a s : AgentState) (hsizing : ((runCycle st input).run answers a).result.sizing = some s)
    (hclose : s.drawdown.shouldCloseAll s.bankroll = true) :
    (((runCycle st input).run answers a).state.LeavesNothing st s.executor.nextId) ↔
      ∀ trade ∈ s.tracker.getOpenPositions, trade.isFilled = false := by
  obtain ⟨htracker, -, _, hcancels⟩ := runCycle_emergency hsizing hclose
  constructor
  · intro h trade htrade
    by_contra hfilled
    rw [Bool.not_eq_false] at hfilled
    exact not_covers_of_withdrawn hcancels trade (h.covered trade (htracker ▸ htrade) hfilled)
  · intro h
    have hnone : ∀ trade ∈ s.tracker.getOpenPositions, trade.isFilled ≠ true := by simpa using h
    constructor
    · intro trade htrade hfilled
      exact absurd hfilled (hnone trade (htracker ▸ htrade))
    · intro k trade hget hopen hfilled
      refine absurd hfilled (hnone trade (List.mem_filter.mpr ⟨?_, hopen⟩))
      rw [htracker] at hget
      exact List.mem_of_getElem? hget

/-- An agent that puts a quarter of its bankroll into a position. -/
def bold : Settings where
  deployment := { cfg := {}, projectRoot := ["app"], cwd := ["app"] }
  sizing := { kellyFraction := 1 / 2, maxPositionPct := 1 / 4, maxPortfolioPct := 1 / 4 }

/-- The agent at its first start. -/
def started (st : Settings) : AgentRun := ⟨AgentState.start st 0 .init {} fun _ => none, []⟩

/-- A cycle within one moment. -/
def cycleAt (now : Time) : CycleInput where
  reconcileAt := now
  bookingAt := now
  sizingAt := now
  placeAt := fun _ => now
  settleAt := now

def coinMarket : Market × Option OrderBookSnapshot :=
  (⟨"coin", ["heads", "tails"]⟩,
    some { midpoint := 1 / 2, bestBid := 49 / 100, bestAsk := 51 / 100, bids := [], asks := [] })

/-- Heads is underrated. -/
def headsEdge : EdgeResult where
  marketId := "coin"
  direction := .yes
  edge := 4 / 10
  confidence := 1
  estimatedProb := 9 / 10
  marketPrice := 1 / 2

/-- The scan and the models deliver, the exchange is out of reach. -/
def delivering (scanned : List (Market × Option OrderBookSnapshot)) (edges : List EdgeResult) :
    Oracle AgentRequest AgentReply := fun n q =>
  match q with
  | .scan => some scanned
  | .analyze => some edges
  | .exec q => unreachable n q

/-- The agent has one position open. -/
def invested : AgentState :=
  ((started bold).run bold [.cycle (cycleAt 0) (delivering [coinMarket] [headsEdge])]).state

/-- The next cycle takes the open position for a loss. -/
def nextCycle : Outcome AgentState AgentRequest AgentReply CycleReport :=
  (runCycle bold (cycleAt 60000000)).run (delivering [coinMarket] []) invested

lemma nextCycle_sizing : ∃ s, nextCycle.result.sizing = some s ∧
    s.drawdown.shouldCloseAll s.bankroll = true ∧
      s.tracker.getOpenPositions.any (·.isFilled) = true := by
  have h : nextCycle.result.sizing.any (fun s => s.drawdown.shouldCloseAll s.bankroll = true ∧
      s.tracker.getOpenPositions.any (·.isFilled) = true) = true := by decide +kernel
  obtain ⟨s, hsizing, hfacts⟩ := (Option.any_eq_true _ _).mp h
  exact ⟨s, hsizing, of_decide_eq_true hfacts⟩

/-- The theorem at the next cycle. -/
theorem emergency_leavesNothing_nextCycle : ∃ s, nextCycle.result.sizing = some s ∧
    s.drawdown.shouldCloseAll s.bankroll = true ∧
      (nextCycle.state.LeavesNothing bold s.executor.nextId ↔
        ∀ trade ∈ s.tracker.getOpenPositions, trade.isFilled = false) := by
  obtain ⟨s, hsizing, hclose, -⟩ := nextCycle_sizing
  exact ⟨s, hsizing, hclose, emergency_leavesNothing_iff _ _ _ s hsizing hclose⟩

/-- The open position is left without anything that could close it. -/
theorem emergency_leaves_position : ∃ s, nextCycle.result.sizing = some s ∧
    s.drawdown.shouldCloseAll s.bankroll = true ∧
      ¬ nextCycle.state.LeavesNothing bold s.executor.nextId := by
  obtain ⟨s, hsizing, hclose, hopen⟩ := nextCycle_sizing
  refine ⟨s, hsizing, hclose, fun h => ?_⟩
  obtain ⟨htracker, -, _, hcancels⟩ := runCycle_emergency hsizing hclose
  obtain ⟨trade, htrade, hfilled⟩ := List.any_eq_true.mp hopen
  exact not_covers_of_withdrawn hcancels trade (h.covered trade (htracker ▸ htrade) hfilled)

end PolyCortex
