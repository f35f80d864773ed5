import PolyCortex.Agent.Bankroll
import PolyCortex.Agent.Sessions

/-!
# The first sizing of a new process

A new process starts from the configured bankroll with nothing lost today, whatever the trades in the
database say. When it sizes as the old one would have is `restart_sizesAlike_iff`.
-/

namespace PolyCortex

open Coroutine

variable {st : Settings} {input : CycleInput} {books : Dict MarketId BookData} {a b : AgentState}

/-- The state in which positions are sized next, in the course of some moves. -/
def AgentRun.nextSizing (st : Settings) (r : AgentRun) (moves : List AgentMove) : Option AgentState :=
  ((r.run st moves).reports.drop r.reports.length).findSome? (·.sizing)

/-- Two sizings go by the same bankroll and take the same decisions. -/
structure SizesAlike (u v : AgentState) : Prop where
  bankroll : v.bankroll = u.bankroll
  multiplier : v.drawdown.getMultiplier v.bankroll = u.drawdown.getMultiplier u.bankroll
  closeAll : v.drawdown.shouldCloseAll v.bankroll = u.drawdown.shouldCloseAll u.bankroll

/-! ### The next sizing -/

lemma AgentRun.run_reports (st : Settings) (r : AgentRun) (moves : List AgentMove) :
    r.reports <+: (r.run st moves).reports := by
  refine AgentRun.run_induction (P := fun r' => r.reports <+: r'.reports) (C := fun _ => True)
    (List.prefix_refl _) (fun _ _ => trivial) ?_
  exact fun r' move report a h _ _ => h.trans (List.prefix_append _ _)

lemma capitals_append_unsettled (reports : List CycleReport) {extra : List CycleReport}
    (h : ∀ report ∈ extra, report.settled = none) :
    capitals st (reports ++ extra) = capitals st reports := by
  have hnone : extra.reverse.filterMap (·.settled) = [] := by
    rw [List.filterMap_eq_nil_iff]
    exact fun report hmem => h report (List.mem_reverse.mp hmem)
  rw [capitals, capitals, List.reverse_append, List.filterMap_append, hnone, List.nil_append]

/-- The next sizing goes by what was settled before. -/
lemma AgentRun.Funded.nextSizing {r : AgentRun} (hr : r.Funded st) {moves : List AgentMove}
    {s : AgentState} (h : r.nextSizing st moves = some s) :
    ∃ extra, capitals st (r.reports ++ extra) = capitals st r.reports ∧
      s.Funded st (r.reports ++ extra) := by
  obtain ⟨later, hlater⟩ := r.run_reports st moves
  rw [AgentRun.nextSizing, ← hlater, List.drop_left] at h
  obtain ⟨extra, report, rest, rfl, hsizing, hextra⟩ := List.findSome?_eq_some_iff.mp h
  have hrun := hr.run moves
  refine ⟨extra, capitals_append_unsettled _ fun report' hmem => ?_, ?_⟩
  · refine hrun.settled report' ?_ (hextra report' hmem)
    rw [← hlater]
    exact List.mem_append_right _ (List.mem_append_left _ hmem)
  · exact hrun.sizings (r.reports ++ extra) report rest (by rw [← hlater, List.append_assoc]) s hsizing

/-! ### A process without orders -/

/-- No order was placed by this process, and it has booked no PnL. -/
structure AgentState.Fresh (a : AgentState) : Prop where
  orders : a.executor.orders = .empty
  dailyPnl : a.drawdown.dailyPnl = 0

/-- A pass over no orders has nothing to report. -/
lemma reconcileOrders_empty {cfg : Config} {books : MarketBooks} {now : Time} {s s' : Executor}
    {events : List OrderLifecycleEvent} (hs : s.orders = .empty)
    (h : (reconcileOrders cfg books now).Returns s events s') : events = [] ∧ s' = s := by
  replace h := h.of_get
  rw [hs] at h
  obtain ⟨rfl, rfl⟩ := h.of_pure
  exact ⟨rfl, rfl⟩

lemma Reconciles.fresh {booked : Bool} (h : Reconciles st input books a b booked) (ha : a.Fresh) :
    b.Fresh := by
  obtain ⟨events, s, hreturns, hbook⟩ := h
  obtain ⟨rfl, rfl⟩ := reconcileOrders_empty ha.orders hreturns
  obtain ⟨-, rfl⟩ := Prod.ext_iff.mp hbook
  exact ha

/-- Until the first sizing a process stays without orders. -/
lemma CycleRun.fresh {report : CycleReport} (h : CycleRun st input a report b) (ha : a.Fresh) :
    (report.sizing = none → b.Fresh) ∧ ∀ s, report.sizing = some s → s.drawdown.dailyPnl = 0 := by
  cases h with
  | halted => exact ⟨fun _ => ha, by simp⟩
  | unscanned => exact ⟨fun _ => ⟨ha.orders, ha.dailyPnl⟩, by simp⟩
  | failed hrunning hreconciles =>
    have hb := hreconciles.fresh ha
    exact ⟨fun _ => ⟨hb.orders, hb.dailyPnl⟩, by simp⟩
  | emergency hrunning hreconciles hclose hcancels =>
    have hb := hreconciles.fresh ha
    exact ⟨by simp, fun s hs => Option.some.inj hs ▸ hb.dailyPnl⟩
  | traded hrunning hreconciles hclose htrades htidies =>
    have hb := hreconciles.fresh ha
    exact ⟨by simp, fun s hs => Option.some.inj hs ▸ hb.dailyPnl⟩

/-- The first sizing of a process without orders knows of no PnL. -/
lemma AgentState.Fresh.nextSizing (ha : a.Fresh) {moves : List AgentMove} {s : AgentState}
    (h : (⟨a, []⟩ : AgentRun).nextSizing st moves = some s) : s.drawdown.dailyPnl = 0 := by
  have hrun : ∀ r : AgentRun, r = (⟨a, []⟩ : AgentRun).run st moves →
      (r.reports.findSome? (·.sizing) = none → r.state.Fresh) ∧
      ∀ s, r.reports.findSome? (·.sizing) = some s → s.drawdown.dailyPnl = 0 := by
    rintro r rfl
    refine AgentRun.run_induction (P := fun r => (r.reports.findSome? (·.sizing) = none →
      r.state.Fresh) ∧ ∀ s, r.reports.findSome? (·.sizing) = some s → s.drawdown.dailyPnl = 0)
      (C := fun _ => True) ⟨fun _ => ha, by simp⟩ (fun _ _ => trivial) ?_
    rintro r move report b ⟨hfresh, hsized⟩ - hmove
    cases hmove with
    | pause =>
      rw [Option.toList_none, List.append_nil]
      exact ⟨fun h => ⟨(hfresh h).orders, (hfresh h).dailyPnl⟩, hsized⟩
    | changeFile =>
      rw [Option.toList_none, List.append_nil]
      exact ⟨fun h => ⟨(hfresh h).orders, (hfresh h).dailyPnl⟩, hsized⟩
    | @cycle input _ report b hcycle =>
      rw [Option.toList_some, List.findSome?_append, List.findSome?_singleton]
      cases hold : r.reports.findSome? (·.sizing) with
      | some s =>
        rw [Option.some_or]
        exact ⟨by simp, fun s' hs' => Option.some.inj hs' ▸ hsized s hold⟩
      | none =>
        rw [Option.none_or]
        obtain ⟨hafter, hsizing⟩ := hcycle.fresh (hfresh hold)
        exact ⟨fun h => ⟨(hafter h).orders, (hafter h).dailyPnl⟩, hsizing⟩
  exact (hrun _ rfl).2 s (by simpa [AgentRun.nextSizing] using h)

lemma AgentState.restart_fresh (st : Settings) (now : Time) (a : AgentState) :
    (a.restart st now).Fresh := by
  refine ⟨rfl, ?_⟩
  rw [AgentState.restart, AgentState.start]
  split_ifs <;> rfl

/-! ### The two sizings -/

lemma freeCapital_eq_bankroll_iff (st : Settings) (t : Tracker) :
    freeCapital st t = st.bankroll ↔ t.totalPnl = Tracker.openCapital t.getOpenPositions := by
  have hpos := st.bankroll_pos
  rw [freeCapital]
  constructor
  · intro h
    rcases max_choice 0 (st.bankroll + t.totalPnl - Tracker.openCapital t.getOpenPositions) with
      hmax | hmax
    · rw [hmax] at h
      exact absurd h hpos.ne
    · rw [hmax] at h
      linarith
  · intro h
    rw [h, add_sub_cancel_right, max_eq_right hpos.le]

/-- What the first sizing of a new process decides. -/
lemma firstSizing_decisions (st : Settings) (now : Time) (a : AgentState) {moves : List AgentMove}
    {v : AgentState} (h : (⟨a.restart st now, []⟩ : AgentRun).nextSizing st moves = some v) :
    v.bankroll = st.bankroll ∧ v.drawdown.shouldCloseAll v.bankroll = false ∧
      v.drawdown.getMultiplier v.bankroll = if st.dailyLossLimitUsdc = some 0 then 0 else 1 := by
  have hpnl := (a.restart_fresh st now).nextSizing h
  have hfunded := AgentRun.funded_start (start_funded st now a.executor.restart a.tracker a.files)
  obtain ⟨extra, hcapitals, hv⟩ := hfunded.nextSizing h
  replace hcapitals : capitals st extra = [st.bankroll] := hcapitals
  rw [List.nil_append] at hv
  have hbankroll : v.bankroll = st.bankroll := by
    rw [hv.bankroll, capitalNow, hcapitals]
    rfl
  have hpeak : v.drawdown.peak = st.bankroll := by
    have hmem := hv.peak_mem
    rwa [hcapitals, List.mem_singleton] at hmem
  have hpos := st.bankroll_pos
  have hlimit : v.drawdown.dailyLimitHit = true ↔ st.dailyLossLimitUsdc = some 0 := by
    rw [DrawdownController.dailyLimitHit, hv.dailyLossLimit, hpnl]
    cases st.dailyLossLimitUsdc with
    | none => simp
    | some limit => simp
  refine ⟨hbankroll, ?_, ?_⟩
  · rw [DrawdownController.shouldCloseAll_eq_false_iff hv.peak_pos, hpeak, hbankroll]
    exact mul_lt_of_lt_one_left hpos (by linarith [hv.ordered.reduce_pos, hv.ordered.reduce_lt,
      hv.ordered.stop_lt])
  · split_ifs with hzero
    · exact (DrawdownController.getMultiplier_eq_zero_iff hv.ordered hv.peak_pos).mpr
        (Or.inl (hlimit.mpr hzero))
    · rw [DrawdownController.getMultiplier_eq_one_iff hv.ordered hv.peak_pos, hpeak, hbankroll]
      refine ⟨Bool.eq_false_iff.mpr fun hhit => hzero (hlimit.mp hhit), ?_⟩
      exact mul_le_of_le_one_left hpos.le (by linarith [hv.ordered.reduce_pos])

/-- The first sizing of a new process decides as the old process would have exactly when what was
realized by the last completed cycle is what is in open positions, and neither the drawdown from any
earlier free capital nor the loss of the day, of which only the old process knows, makes a difference. -/
theorem restart_sizesAlike_iff (st : Settings) (start : Time) (executor : Executor)
    (tracker : Tracker) (files : Files) (moves : List AgentMove) {before : List CycleReport}
    {last : CycleReport} {ledger : Tracker} (now : Time) (later later' : List AgentMove)
    {u v : AgentState} :
    let r := (⟨AgentState.start st start executor tracker files, []⟩ : AgentRun).run st moves
    r.reports = before ++ [last] → last.settled = some ledger →
    r.nextSizing st later = some u →
    (⟨r.state.restart st now, []⟩ : AgentRun).nextSizing st later' = some v →
    (SizesAlike u v ↔
      ledger.totalPnl = Tracker.openCapital ledger.getOpenPositions ∧
      (∀ c ∈ capitals st r.reports, (1 - st.drawdownEmergency) * c < st.bankroll) ∧
      if st.dailyLossLimitUsdc = some 0 then
        u.drawdown.dailyLimitHit = true ∨
          ∃ c ∈ capitals st r.reports, st.bankroll ≤ (1 - st.drawdownStop) * c
      else u.drawdown.dailyLimitHit = false ∧
        ∀ c ∈ capitals st r.reports, (1 - st.drawdownReduce) * c ≤ st.bankroll) := by
  intro r hreports hsettled hu hv
  have hr : r.Funded st := (AgentRun.funded_start (start_funded st start executor tracker files)).run moves
  obtain ⟨extra, hcapitals, hfunded⟩ := hr.nextSizing hu
  obtain ⟨hbankroll, hclose, hmultiplier⟩ := firstSizing_decisions st now r.state hv
  have hnow : u.bankroll = freeCapital st ledger := by
    rw [hfunded.bankroll, capitalNow, hcapitals, hreports, capitals_concat, hsettled]
    rfl
  have hnonneg : 0 ≤ 1 - st.drawdownEmergency := by linarith [st.emergency_lt]
  have hbound := st.stop_lt
  have hbound' := st.reduce_lt
  rw [← hcapitals, hfunded.forall_capitals_lt_iff hnonneg, hfunded.forall_capitals_iff (by linarith),
    hfunded.exists_capitals_iff (by linarith), ← hfunded.emergencyAt, ← hfunded.stopAt,
    ← hfunded.reduceAt, ← freeCapital_eq_bankroll_iff st, ← hnow]
  -- with one bankroll the decisions are those of the controller at it
  have hdecisions : u.bankroll = st.bankroll → (SizesAlike u v ↔
      u.drawdown.shouldCloseAll st.bankroll = false ∧ u.drawdown.getMultiplier st.bankroll =
        if st.dailyLossLimitUsdc = some 0 then 0 else 1) := by
    intro heq
    constructor
    · rintro ⟨-, hmul, hcls⟩
      rw [heq] at hmul hcls
      exact ⟨hcls ▸ hclose, hmul ▸ hmultiplier⟩
    · rintro ⟨hcls, hmul⟩
      exact ⟨hbankroll.trans heq.symm, by rw [hmultiplier, heq, hmul], by rw [hclose, heq, hcls]⟩
  have hcontroller : (u.drawdown.shouldCloseAll st.bankroll = false ∧
      u.drawdown.getMultiplier st.bankroll = if st.dailyLossLimitUsdc = some 0 then 0 else 1) ↔
      (1 - u.drawdown.emergencyAt) * u.drawdown.peak < st.bankroll ∧
      if st.dailyLossLimitUsdc = some 0 then
        u.drawdown.dailyLimitHit = true ∨ st.bankroll ≤ (1 - u.drawdown.stopAt) * u.drawdown.peak
      else u.drawdown.dailyLimitHit = false ∧
        (1 - u.drawdown.reduceAt) * u.drawdown.peak ≤ st.bankroll := by
    rw [DrawdownController.shouldCloseAll_eq_false_iff hfunded.peak_pos]
    split_ifs
    · rw [DrawdownController.getMultiplier_eq_zero_iff hfunded.ordered hfunded.peak_pos]
    · rw [DrawdownController.getMultiplier_eq_one_iff hfunded.ordered hfunded.peak_pos]
  constructor
  · intro h
    have heq : u.bankroll = st.bankroll := h.bankroll.symm.trans hbankroll
    exact ⟨heq, hcontroller.mp ((hdecisions heq).mp h)⟩
  · rintro ⟨heq, h⟩
    exact (hdecisions heq).mpr (hcontroller.mpr h)

/-- A cycle in which some edges are found. -/
def tradingCycle (now : Time) (edges : List EdgeResult) : AgentMove :=
  .cycle (cycleAt now) (delivering [coinMarket] edges)

/-- The agent after a first cycle. -/
def afterFirst (edges : List EdgeResult) : AgentRun := (started bold).run bold [tradingCycle 0 edges]

/-- The theorem for an agent that has not traded. -/
theorem restart_sizesAlike_idle : ∃ u v, (afterFirst []).nextSizing bold [tradingCycle 60000000 []] = some u ∧
    (⟨(afterFirst []).state.restart bold 30000000, []⟩ : AgentRun).nextSizing bold
      [tradingCycle 60000000 []] = some v ∧ SizesAlike u v := by
  have hlast : ((afterFirst []).reports.length = 1 ∧ ((afterFirst []).reports.head?.any fun report =>
      report.settled.any fun ledger => ledger.totalPnl = Tracker.openCapital ledger.getOpenPositions) =
        true) := by decide +kernel
  have hold : ((afterFirst []).nextSizing bold [tradingCycle 60000000 []]).any (fun u =>
      u.drawdown.dailyLimitHit = false) = true := by decide +kernel
  have hnew : ((⟨(afterFirst []).state.restart bold 30000000, []⟩ : AgentRun).nextSizing bold
      [tradingCycle 60000000 []]).isSome = true := by decide +kernel
  have hcapitals : (capitals bold (afterFirst []).reports).all (fun c => c = 100) = true := by
    decide +kernel
  obtain ⟨hlength, hhead⟩ := hlast
  obtain ⟨report, hreport⟩ := List.length_eq_one_iff.mp hlength
  rw [hreport, List.head?_cons, Option.any_some] at hhead
  obtain ⟨ledger, hsettled, hledger⟩ := (Option.any_eq_true _ _).mp hhead
  obtain ⟨u, hu, hlimit⟩ := (Option.any_eq_true _ _).mp hold
  obtain ⟨v, hv⟩ := Option.isSome_iff_exists.mp hnew
  have hcapital : ∀ c ∈ capitals bold (afterFirst []).reports, c = 100 := by simpa using hcapitals
  refine ⟨u, v, hu, hv, ?_⟩
  have hreport' : (afterFirst []).reports = [] ++ report :: [] := hreport
  refine (restart_sizesAlike_iff bold 0 .init {} (fun _ => none) [tradingCycle 0 []] 30000000
    [tradingCycle 60000000 []] [tradingCycle 60000000 []] hreport' hsettled hu hv).mpr ?_
  refine ⟨of_decide_eq_true hledger, fun c hc => ?_, ?_⟩
  · rw [hcapital c hc]
    norm_num [bold]
  · rw [if_neg (by simp [bold])]
    refine ⟨of_decide_eq_true hlimit, fun c hc => ?_⟩
    rw [hcapital c hc]
    norm_num [bold]

/-- The open position is free capital again after a restart. -/
theorem restart_sizes_differently : ∃ u v,
    (afterFirst [headsEdge]).nextSizing bold [tradingCycle 60000000 []] = some u ∧
    (⟨(afterFirst [headsEdge]).state.restart bold 30000000, []⟩ : AgentRun).nextSizing bold
      [tradingCycle 60000000 []] = some v ∧
    (∃ before last, (afterFirst [headsEdge]).reports = before ++ [last] ∧ last.settled.isSome = true) ∧
    ¬ SizesAlike u v := by
  have hlast : (afterFirst [headsEdge]).reports.length = 1 ∧
      ((afterFirst [headsEdge]).reports.head?.any fun report => report.settled.isSome) = true := by
    decide +kernel
  have hold : ((afterFirst [headsEdge]).nextSizing bold [tradingCycle 60000000 []]).any (fun u =>
      u.bankroll = 75) = true := by decide +kernel
  have hnew : ((⟨(afterFirst [headsEdge]).state.restart bold 30000000, []⟩ : AgentRun).nextSizing bold
      [tradingCycle 60000000 []]).any (fun v => v.bankroll = 100) = true := by decide +kernel
  obtain ⟨hlength, hhead⟩ := hlast
  obtain ⟨report, hreport⟩ := List.length_eq_one_iff.mp hlength
  rw [hreport, List.head?_cons, Option.any_some] at hhead
  obtain ⟨u, hu, hbankroll⟩ := (Option.any_eq_true _ _).mp hold
  obtain ⟨v, hv, hbankroll'⟩ := (Option.any_eq_true _ _).mp hnew
  refine ⟨u, v, hu, hv, ⟨[], report, hreport, hhead⟩, fun halike => ?_⟩
  have hsame := halike.bankroll
  rw [of_decide_eq_true hbankroll, of_decide_eq_true hbankroll'] at hsame
  norm_num at hsame

end PolyCortex
