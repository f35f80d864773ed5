import PolyCortex.Agent.Booking
import PolyCortex.Agent.Emergency

/-!
# What the bankroll means

At the end of a cycle the bankroll is the free capital: what was there at first and was realized since,
less what is in open positions. The drawdown controller compares it with the highest free capital it was
shown, so that it takes an open position for a loss (`run_calm_iff`), and a new process, which is shown
the configured bankroll, sizes by another one (`restart_sizesAlike_iff`).
-/

namespace PolyCortex

open Coroutine

variable {st : Settings} {input : CycleInput} {books : Dict MarketId BookData} {a b : AgentState}

/-- What is left to be invested. -/
def freeCapital (st : Settings) (t : Tracker) : ℚ :=
  max 0 (st.bankroll + t.totalPnl - Tracker.openCapital t.getOpenPositions)

/-- The free capital after the cycles that have come to an end, the latest first, and at the start. -/
def capitals (st : Settings) (reports : List CycleReport) : List ℚ :=
  (reports.reverse.filterMap (·.settled)).map (freeCapital st) ++ [st.bankroll]

/-- The latest of them. -/
def capitalNow (st : Settings) (reports : List CycleReport) : ℚ := (capitals st reports).headD 0

lemma capitals_concat (reports : List CycleReport) (report : CycleReport) :
    capitals st (reports ++ [report]) =
      (report.settled.map (freeCapital st)).toList ++ capitals st reports := by
  cases h : report.settled <;> simp [capitals, h]

lemma capitalNow_mem (st : Settings) (reports : List CycleReport) :
    capitalNow st reports ∈ capitals st reports := by
  rw [capitalNow]
  cases h : capitals st reports with
  | nil => simp [capitals] at h
  | cons x xs => simp

lemma bankroll_mem_capitals (st : Settings) (reports : List CycleReport) :
    st.bankroll ∈ capitals st reports := by
  simp [capitals]

/-- The agent goes by the free capital, after the cycles `reports`. -/
structure AgentState.Funded (st : Settings) (reports : List CycleReport) (a : AgentState) : Prop where
  bankroll : a.bankroll = capitalNow st reports
  peak_mem : a.drawdown.peak ∈ capitals st reports
  le_peak : ∀ c ∈ capitals st reports, c ≤ a.drawdown.peak
  reduceAt : a.drawdown.reduceAt = st.drawdownReduce
  stopAt : a.drawdown.stopAt = st.drawdownStop
  emergencyAt : a.drawdown.emergencyAt = st.drawdownEmergency
  dailyLossLimit : a.drawdown.dailyLossLimitUsdc = st.dailyLossLimitUsdc

namespace AgentState.Funded

variable {reports : List CycleReport}

lemma ordered (h : a.Funded st reports) : a.drawdown.Ordered := by
  constructor
  · rw [h.reduceAt]
    exact st.reduce_pos
  · rw [h.reduceAt, h.stopAt]
    exact st.reduce_lt
  · rw [h.stopAt, h.emergencyAt]
    exact st.stop_lt
  · rw [h.emergencyAt]
    exact st.emergency_lt

lemma peak_pos (h : a.Funded st reports) : 0 < a.drawdown.peak :=
  st.bankroll_pos.trans_le (h.le_peak _ (bankroll_mem_capitals st reports))

/-- A bound for the peak is one for all that was shown. -/
lemma forall_capitals_iff (h : a.Funded st reports) {x y : ℚ} (hx : 0 ≤ x) :
    (∀ c ∈ capitals st reports, x * c ≤ y) ↔ x * a.drawdown.peak ≤ y := by
  constructor
  · exact fun hall => hall _ h.peak_mem
  · exact fun hpeak c hc => (mul_le_mul_of_nonneg_left (h.le_peak c hc) hx).trans hpeak

/-- The bankroll and the controller, but for the PnL of the day, are what matters. -/
lemma congr (h : a.Funded st reports) (hbankroll : b.bankroll = a.bankroll)
    (hdrawdown : ∃ pnl day, b.drawdown = { a.drawdown with dailyPnl := pnl, dailyResetDate := day }) :
    b.Funded st reports := by
  obtain ⟨pnl, day, hd⟩ := hdrawdown
  obtain ⟨h₁, h₂, h₃, h₄, h₅, h₆, h₇⟩ := h
  constructor
  · exact hbankroll.trans h₁
  all_goals rw [hd]; assumption

lemma forall_capitals_lt_iff (h : a.Funded st reports) {x y : ℚ} (hx : 0 ≤ x) :
    (∀ c ∈ capitals st reports, x * c < y) ↔ x * a.drawdown.peak < y := by
  constructor
  · exact fun hall => hall _ h.peak_mem
  · exact fun hpeak c hc => (mul_le_mul_of_nonneg_left (h.le_peak c hc) hx).trans_lt hpeak

lemma exists_capitals_iff (h : a.Funded st reports) {x y : ℚ} (hx : 0 ≤ x) :
    (∃ c ∈ capitals st reports, y ≤ x * c) ↔ y ≤ x * a.drawdown.peak := by
  rw [← not_iff_not, not_le, ← h.forall_capitals_lt_iff hx]
  simp

/-- Showing the controller what it was shown last. -/
lemma beginSizing (h : a.Funded st reports) : (beginSizing a).Funded st reports := by
  have hpeak : (PolyCortex.beginSizing a).drawdown.peak = a.drawdown.peak := by
    rw [PolyCortex.beginSizing, DrawdownController.update_peak, h.bankroll]
    exact max_eq_left (h.le_peak _ (capitalNow_mem st reports))
  refine ⟨h.bankroll, ?_, ?_, h.reduceAt, h.stopAt, h.emergencyAt, h.dailyLossLimit⟩
  · exact hpeak ▸ h.peak_mem
  · exact hpeak ▸ h.le_peak

/-- Showing the controller the free capital. -/
lemma settle (h : a.Funded st reports) {t : Tracker} {report : CycleReport}
    (hsettled : report.settled = some t) (hbankroll : b.bankroll = freeCapital st t)
    (hdrawdown : b.drawdown = a.drawdown.update (freeCapital st t)) :
    b.Funded st (reports ++ [report]) := by
  have hcapitals : capitals st (reports ++ [report]) = freeCapital st t :: capitals st reports := by
    rw [capitals_concat, hsettled]
    rfl
  have hpeak : b.drawdown.peak = max a.drawdown.peak (freeCapital st t) := by
    rw [hdrawdown, DrawdownController.update_peak]
  constructor
  · rw [hbankroll, capitalNow, hcapitals]
    rfl
  · rw [hpeak, hcapitals]
    rcases max_choice a.drawdown.peak (freeCapital st t) with hmax | hmax
    · rw [hmax]
      exact List.mem_cons_of_mem _ h.peak_mem
    · rw [hmax]
      exact List.mem_cons_self
  · rw [hpeak, hcapitals, List.forall_mem_cons]
    exact ⟨le_max_right _ _, fun c hc => (h.le_peak c hc).trans (le_max_left _ _)⟩
  · exact hdrawdown ▸ h.reduceAt
  · exact hdrawdown ▸ h.stopAt
  · exact hdrawdown ▸ h.emergencyAt
  · exact hdrawdown ▸ h.dailyLossLimit

/-- A cycle that does not come to its end settles nothing. -/
lemma unsettled (h : a.Funded st reports) {report : CycleReport} (hreport : report.settled = none) :
    a.Funded st (reports ++ [report]) := by
  have hcapitals : capitals st (reports ++ [report]) = capitals st reports := by
    rw [capitals_concat, hreport]
    rfl
  have hnow : capitalNow st (reports ++ [report]) = capitalNow st reports := by
    rw [capitalNow, capitalNow, hcapitals]
  exact ⟨hnow ▸ h.bankroll, hcapitals ▸ h.peak_mem, hcapitals ▸ h.le_peak, h.reduceAt, h.stopAt,
    h.emergencyAt, h.dailyLossLimit⟩

end AgentState.Funded

/-! ### The parts of a cycle -/

lemma start_funded (st : Settings) (now : Time) (executor : Executor) (tracker : Tracker)
    (files : Files) : (AgentState.start st now executor tracker files).Funded st [] := by
  have hcapitals : capitals st [] = [st.bankroll] := rfl
  rw [AgentState.start]
  constructor
  · rfl
  · rw [hcapitals, List.mem_singleton]
    split_ifs <;> simp [DrawdownController.resetPeak]
  · rw [hcapitals]
    split_ifs <;> simp [DrawdownController.resetPeak]
  all_goals split_ifs <;> rfl

lemma Reconciles.funded {reports : List CycleReport} {booked : Bool}
    (h : Reconciles st input books a b booked) (ha : a.Funded st reports) : b.Funded st reports := by
  obtain ⟨events, s, -, hbook⟩ := h
  have hbooks := bookEvents_booksOnly st input 0 events { a with executor := s }
  rw [hbook] at hbooks
  exact ha.congr hbooks.bankroll hbooks.drawdown

/-- Placing leaves the controller alone, and the list of the open positions up to date. -/
lemma Places.frame {multiplier : ℚ} {n : ℕ} {edge : EdgeResult} {positions positions' : List Trade}
    (h : Places st input books multiplier n edge positions a positions' b)
    (hpositions : positions = a.tracker.getOpenPositions) :
    b.drawdown = a.drawdown ∧ positions' = b.tracker.getOpenPositions := by
  cases h with
  | passed => exact ⟨rfl, hpositions⟩
  | refused => exact ⟨rfl, hpositions⟩
  | placed hasked horder hrecord =>
    obtain ⟨_, _, _, hframe⟩ := recordPlacement_frame st (input.placeAt n) edge
      (sizeFor edge positions multiplier a) _ { a with executor := _ }
    rw [hrecord, hframe]
    exact ⟨rfl, rfl⟩

lemma PlacesAll.frame {multiplier : ℚ} {n : ℕ} {edges : List EdgeResult}
    {positions positions' : List Trade}
    (h : PlacesAll st input books multiplier n edges positions a positions' b)
    (hpositions : positions = a.tracker.getOpenPositions) :
    b.drawdown = a.drawdown ∧ positions' = b.tracker.getOpenPositions := by
  induction h with
  | nil => exact ⟨rfl, hpositions⟩
  | cons hplaces _ ih =>
    obtain ⟨hdrawdown, hpositions₁⟩ := hplaces.frame hpositions
    obtain ⟨hdrawdown', hpositions₂⟩ := ih hpositions₁
    exact ⟨hdrawdown'.trans hdrawdown, hpositions₂⟩

/-- After the placements the bankroll is the free capital. -/
lemma Trades.settles {edges : List EdgeResult} (h : Trades st input books edges a b) :
    b.bankroll = freeCapital st b.tracker ∧
      b.drawdown = a.drawdown.update (freeCapital st b.tracker) := by
  obtain ⟨positions, a₁, hplaces, rfl⟩ := h
  obtain ⟨hdrawdown, rfl⟩ := hplaces.frame rfl
  refine ⟨rfl, ?_⟩
  rw [settleBankroll, hdrawdown]
  rfl

/-- A cycle sizes by the free capital, and goes by it at its end. -/
lemma CycleRun.funded {reports : List CycleReport} {report : CycleReport}
    (h : CycleRun st input a report b) (ha : a.Funded st reports) :
    b.Funded st (reports ++ [report]) ∧ ∀ s, report.sizing = some s → s.Funded st reports := by
  cases h with
  | halted => exact ⟨ha.unsettled rfl, by simp⟩
  | unscanned => exact ⟨(ha.unsettled rfl).congr rfl ⟨_, _, rfl⟩, by simp⟩
  | failed hrunning hreconciles =>
    exact ⟨((hreconciles.funded ha).unsettled rfl).congr rfl ⟨_, _, rfl⟩, by simp⟩
  | emergency hrunning hreconciles hclose hcancels =>
    have hsizing := (hreconciles.funded ha).beginSizing
    exact ⟨(hsizing.unsettled rfl).congr rfl ⟨_, _, rfl⟩, fun s hs => Option.some.inj hs ▸ hsizing⟩
  | traded hrunning hreconciles hclose htrades htidies =>
    have hsizing := (hreconciles.funded ha).beginSizing
    obtain ⟨hbankroll, hdrawdown⟩ := htrades.settles
    obtain ⟨_, _, -, rfl⟩ := htidies.frame
    exact ⟨(hsizing.settle rfl hbankroll hdrawdown).congr rfl ⟨_, _, rfl⟩,
      fun s hs => Option.some.inj hs ▸ hsizing⟩

/-! ### Runs -/

/-- Every sizing of the run went by the free capital. -/
structure AgentRun.Funded (st : Settings) (r : AgentRun) : Prop where
  state : r.state.Funded st r.reports
  sizings : ∀ before report after, r.reports = before ++ report :: after →
    ∀ s, report.sizing = some s → s.Funded st before
  settled : ∀ report ∈ r.reports, report.sizing = none → report.settled = none

lemma AgentRun.funded_start (h : a.Funded st []) : AgentRun.Funded st ⟨a, []⟩ :=
  ⟨h, by simp, by simp⟩

lemma CycleRun.settled_of_unsized {report : CycleReport} (h : CycleRun st input a report b)
    (hsizing : report.sizing = none) : report.settled = none := by
  cases h with
  | traded => cases hsizing
  | _ => rfl

lemma AgentRun.Funded.run {r : AgentRun} (hr : r.Funded st) (moves : List AgentMove) :
    (r.run st moves).Funded st := by
  refine AgentRun.run_induction (P := AgentRun.Funded st) (C := fun _ => True) hr
    (fun _ _ => trivial) ?_
  rintro r move report b ⟨hstate, hsizings, hsettled⟩ - hmove
  cases hmove with
  | pause =>
    rw [Option.toList_none, List.append_nil]
    exact ⟨hstate.congr rfl ⟨_, _, rfl⟩, hsizings, hsettled⟩
  | changeFile =>
    rw [Option.toList_none, List.append_nil]
    exact ⟨hstate.congr rfl ⟨_, _, rfl⟩, hsizings, hsettled⟩
  | @cycle input _ report b hrun =>
    obtain ⟨hafter, hsizing⟩ := hrun.funded hstate
    refine ⟨hafter.congr rfl ⟨_, _, rfl⟩, ?_, ?_⟩
    · intro before report' after heq s hs
      rcases List.eq_nil_or_concat after with rfl | ⟨after', last, rfl⟩
      · obtain ⟨rfl, hlast⟩ := List.append_inj' heq rfl
        obtain rfl := List.singleton_inj.mp hlast
        exact hsizing s hs
      · have heq' : r.reports ++ [report] = (before ++ report' :: after') ++ [last] := by
          simpa using heq
        exact hsizings before report' after' (List.append_inj' heq' rfl).1 s hs
    · intro report' hmem hunsized
      rcases List.mem_append.mp hmem with hold | hnew
      · exact hsettled report' hold hunsized
      · obtain rfl := List.mem_singleton.mp hnew
        exact hrun.settled_of_unsized hunsized

/-! ### Losses and investments -/

/-- Every sizing of the run is done at full size, and none is an emergency. -/
def AgentRun.Calm (r : AgentRun) : Prop :=
  ∀ report ∈ r.reports, ∀ s, report.sizing = some s →
    s.drawdown.getMultiplier s.bankroll = 1 ∧ s.drawdown.shouldCloseAll s.bankroll = false

/-- When a sizing is calm. -/
lemma AgentState.Funded.calm_iff {reports : List CycleReport} (h : a.Funded st reports) :
    a.drawdown.getMultiplier a.bankroll = 1 ∧ a.drawdown.shouldCloseAll a.bankroll = false ↔
      a.drawdown.dailyLimitHit = false ∧
        ∀ c ∈ capitals st reports, (1 - st.drawdownReduce) * c ≤ capitalNow st reports := by
  have hnonneg : 0 ≤ 1 - st.drawdownReduce := by
    linarith [st.reduce_lt, st.stop_lt, st.emergency_lt]
  rw [h.forall_capitals_iff hnonneg, ← h.reduceAt, ← h.bankroll,
    ← DrawdownController.getMultiplier_eq_one_iff h.ordered h.peak_pos]
  constructor
  · exact And.left
  · intro hone
    have hwithin := (DrawdownController.getMultiplier_eq_one_iff h.ordered h.peak_pos).mp hone
    exact ⟨hone, DrawdownController.shouldCloseAll_eq_false h.ordered h.peak_pos hwithin.2⟩

/-- The drawdown controller stays calm exactly when at every sizing the daily limit is not hit and the
free capital is within `drawdownReduce` of what it ever was. -/
theorem run_calm_iff (st : Settings) (now : Time) (executor : Executor) (tracker : Tracker)
    (files : Files) (moves : List AgentMove) :
    let r := (⟨AgentState.start st now executor tracker files, []⟩ : AgentRun).run st moves
    r.Calm ↔ ∀ before report after, r.reports = before ++ report :: after →
      ∀ s, report.sizing = some s → s.drawdown.dailyLimitHit = false ∧
        ∀ c ∈ capitals st before, (1 - st.drawdownReduce) * c ≤ capitalNow st before := by
  intro r
  have hr : r.Funded st := (AgentRun.funded_start (start_funded st now executor tracker files)).run moves
  constructor
  · intro hcalm before report after heq s hs
    have hmem : report ∈ r.reports := by
      rw [heq]
      exact List.mem_append_right before List.mem_cons_self
    exact (hr.sizings before report after heq s hs).calm_iff.mp (hcalm report hmem s hs)
  · intro h report hmem s hs
    obtain ⟨before, after, heq⟩ := List.append_of_mem hmem
    exact (hr.sizings before report after heq s hs).calm_iff.mpr (h before report after heq s hs)

/-- Two cycles of an agent that has invested a quarter of its capital. -/
def investedRun : AgentRun :=
  (started bold).run bold
    [.cycle (cycleAt 0) (delivering [coinMarket] [headsEdge]),
      .cycle (cycleAt 60000000) (delivering [coinMarket] [])]

/-- Nothing was lost, but the open position is taken for a loss. -/
theorem run_not_calm : (∀ trade ∈ investedRun.state.tracker.trades, 0 ≤ trade.realizedPnl) ∧
    ¬ investedRun.Calm := by
  have hpnl : investedRun.state.tracker.trades.all (fun trade => 0 ≤ trade.realizedPnl) = true := by
    decide +kernel
  have hsizing : investedRun.reports.any (fun report => report.sizing.any fun s =>
      s.drawdown.shouldCloseAll s.bankroll) = true := by decide +kernel
  constructor
  · simpa using hpnl
  · intro hcalm
    obtain ⟨report, hmem, hreport⟩ := List.any_eq_true.mp hsizing
    obtain ⟨s, hs, hclose⟩ := (Option.any_eq_true _ _).mp hreport
    rw [(hcalm report hmem s hs).2] at hclose
    contradiction

end PolyCortex
