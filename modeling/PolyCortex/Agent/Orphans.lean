import PolyCortex.Agent.DailyLosses
import PolyCortex.Tracking.Issues

/-!
# Orphans

At the end of a cycle an entry of the executor is looked for among the open trades alone. A trade that
was exited is not among them, while its entry stays in the executor as filled; from then on it is
reported as an order that the ledger does not know (`along_noFalseOrphans_iff`).
-/

namespace PolyCortex

open Coroutine PositionReconciler

variable {st : Settings} {input : CycleInput} {a : AgentState}

/-- The reconciler of the agent; only the check for stale positions depends on its hours. -/
def Settings.reconciler (st : Settings) : PositionReconciler :=
  { autoClosePhantoms := st.autoClosePhantoms }

/-- The cycle has come to its end, in the state `a`, and has reported the issues. -/
def CycleReports (st : Settings) (input : CycleInput) (report : CycleReport) (a : AgentState)
    (issues : List ReconciliationIssue) : Prop :=
  report.settled.isSome = true ∧
    ∃ t, st.reconciler.reconcile input.settleAt a.executor t = (issues, a.tracker)

/-- No order that a trade names is reported as an orphan. -/
def NoFalseOrphans (t : Tracker) (issues : List ReconciliationIssue) : Prop :=
  ∀ orderId, Reported .orphanOrder (.order orderId) issues →
    ∀ k trade, t.getTrade k = some trade → trade.localOrderId ≠ some orderId

/-- A trade that is no longer open has an entry that was cancelled or has expired, shares it with a
trade that is open, or the executor does not have it. -/
def EntriesLetGo (s : Executor) (t : Tracker) : Prop :=
  ∀ k trade orderId order, t.getTrade k = some trade → trade.isOpen = false →
    trade.localOrderId = some orderId → s.orders.get? orderId = some order →
    order.orderKind = .entry →
    (order.status = .cancelled ∨ order.status = .expired) ∨ orderId ∈ trackedOrderIds t

/-- What the cycles of a run report is free of false orphans. -/
def ReportsNoFalseOrphans (st : Settings) (r : AgentRun) : AgentMove → Prop
  | .cycle input answers =>
    let outcome := (runCycle st input).run answers r.state
    ∀ issues, CycleReports st input outcome.result outcome.state issues →
      NoFalseOrphans outcome.state.tracker issues
  | .pause | .changeFile _ _ => True

/-- The entries are let go of by the time a cycle has come to its end. -/
def CycleLetsGo (st : Settings) (r : AgentRun) : AgentMove → Prop
  | .cycle input answers =>
    let outcome := (runCycle st input).run answers r.state
    outcome.result.settled.isSome = true →
      EntriesLetGo outcome.state.executor outcome.state.tracker
  | .pause | .changeFile _ _ => True

/-! ### The check -/

lemma mem_trackedOrderIds {t : Tracker} {k : TradeId} {trade : Trade} {orderId : OrderId}
    (hrow : t.getTrade k = some trade) (hopen : trade.isOpen = true)
    (horder : trade.localOrderId = some orderId) : orderId ∈ trackedOrderIds t := by
  refine List.mem_filterMap.mpr ⟨trade, ?_, horder⟩
  exact List.mem_filter.mpr ⟨List.mem_of_getElem? hrow, hopen⟩

/-- The report is free of false orphans just when the entries of the trades that are no longer open are
let go of. -/
lemma noFalseOrphans_iff {issues : List ReconciliationIssue} {report : CycleReport}
    (h : CycleReports st input report a issues) :
    NoFalseOrphans a.tracker issues ↔ EntriesLetGo a.executor a.tracker := by
  obtain ⟨-, t, hreconcile⟩ := h
  have hreported : ∀ orderId, Reported .orphanOrder (.order orderId) issues ↔
      ∃ order, a.executor.orders.get? orderId = some order ∧
        isOrphan a.tracker orderId order = true := by
    intro orderId
    have hiff := @reported_orphan_iff st.reconciler input.settleAt a.executor t orderId
    rwa [hreconcile] at hiff
  constructor
  · intro hclean k trade orderId order hrow hclosed horder hget hentry
    by_contra hlive
    rw [not_or] at hlive
    refine hclean orderId ((hreported orderId).mpr ⟨order, hget, ?_⟩) k trade hrow horder
    exact decide_eq_true ⟨hlive.1, hentry, hlive.2⟩
  · intro hgone orderId horphan k trade hrow horder
    obtain ⟨order, hget, hisOrphan⟩ := (hreported orderId).mp horphan
    obtain ⟨hlive, hentry, huntracked⟩ := of_decide_eq_true hisOrphan
    cases hopen : trade.isOpen with
    | true => exact huntracked (mem_trackedOrderIds hrow hopen horder)
    | false =>
      exact (hgone k trade orderId order hrow hopen horder hget hentry).elim hlive huntracked

/-- A cycle that comes to its end reports what its reconciliation has found. -/
lemma exists_cycleReports {answers : Oracle AgentRequest AgentReply}
    (h : ((runCycle st input).run answers a).result.settled.isSome = true) :
    ∃ issues, CycleReports st input ((runCycle st input).run answers a).result
      ((runCycle st input).run answers a).state issues := by
  obtain ⟨b, hrun, hstate⟩ := runCycle_cycleRun ((runCycle st input).run_returns answers a)
  rw [hstate]
  generalize ((runCycle st input).run answers a).result = report at hrun h
  cases hrun with
  | halted => cases h
  | unscanned => cases h
  | failed => cases h
  | emergency => cases h
  | traded _ _ _ _ htidies =>
    obtain ⟨expired, s, -, rfl⟩ := htidies
    exact ⟨_, h, _, Prod.ext rfl (reconcile_snd ..)⟩

/-! ### Runs -/

lemma AgentRun.along_congr {C C' : AgentRun → AgentMove → Prop} (h : ∀ r move, C r move ↔ C' r move)
    (r : AgentRun) (moves : List AgentMove) : r.Along st C moves ↔ r.Along st C' moves := by
  induction moves generalizing r with
  | nil => rfl
  | cons move moves ih => rw [AgentRun.Along, AgentRun.Along, h, ih]

/-- In a run no cycle reports a false orphan, just when at the end of every cycle the entries of the
trades that are no longer open are let go of. -/
theorem along_noFalseOrphans_iff (st : Settings) (r : AgentRun) (moves : List AgentMove) :
    r.Along st (ReportsNoFalseOrphans st) moves ↔ r.Along st (CycleLetsGo st) moves := by
  refine AgentRun.along_congr (fun r move => ?_) r moves
  cases move with
  | cycle input answers =>
    constructor
    · intro hreports hsettled
      obtain ⟨issues, hissues⟩ := exists_cycleReports hsettled
      exact (noFalseOrphans_iff hissues).mp (hreports issues hissues)
    · intro hgone issues hissues
      exact (noFalseOrphans_iff hissues).mpr (hgone hissues.1)
  | pause => rfl
  | changeFile location file => rfl

/-- An agent whose positions are small. -/
def modest : Settings :=
  { bold with sizing := { kellyFraction := 1 / 2, maxPositionPct := 1 / 20, maxPortfolioPct := 1 / 4 } }

/-- A position is opened, and closed by its stop-loss in the next cycle. -/
def stoppedRun : List AgentMove := [investing, .cycle (cycleAt 120000000) losing]

/-- The entry of the position that was stopped is reported as unknown. -/
theorem not_along_noFalseOrphans_stoppedRun :
    ¬(started modest).Along modest (ReportsNoFalseOrphans modest) stoppedRun := by
  rintro ⟨-, hreports, -⟩
  have hsettled : ((runCycle modest (cycleAt 120000000)).run losing
      ((started modest).perform modest investing).state).result.settled.isSome = true := by
    decide +kernel
  obtain ⟨issues, hissues⟩ := exists_cycleReports hsettled
  have hgone := (noFalseOrphans_iff hissues).mp (hreports issues hissues)
  have hentry : (((runCycle modest (cycleAt 120000000)).run losing
      ((started modest).perform modest investing).state).state.tracker.getTrade 0).any (fun trade =>
        trade.isOpen = false ∧ trade.localOrderId = some 0) = true ∧
      (((runCycle modest (cycleAt 120000000)).run losing
        ((started modest).perform modest investing).state).state.executor.orders.get? 0).any (fun order =>
          order.orderKind = .entry ∧ order.status = .filled) = true ∧
      0 ∉ trackedOrderIds ((runCycle modest (cycleAt 120000000)).run losing
        ((started modest).perform modest investing).state).state.tracker := by
    decide +kernel
  obtain ⟨htrade, horder, huntracked⟩ := hentry
  obtain ⟨trade, hrow, htrade⟩ := (Option.any_eq_true _ _).mp htrade
  obtain ⟨order, hget, horder⟩ := (Option.any_eq_true _ _).mp horder
  obtain ⟨hclosed, hnames⟩ := of_decide_eq_true htrade
  obtain ⟨hkind, hfilled⟩ := of_decide_eq_true horder
  obtain (hcancelled | hexpired) | htracked := hgone 0 trade 0 order hrow hclosed hnames hget hkind
  · exact absurd (hfilled.symm.trans hcancelled) (by decide)
  · exact absurd (hfilled.symm.trans hexpired) (by decide)
  · exact huntracked htracked

end PolyCortex
