import Mathlib.Algebra.BigOperators.Group.List.Basic
import PolyCortex.Risk.Drawdown

/-!
# Two guards of the daily loss

`DailyLossTracker` rolls its day over whenever it is asked, `DrawdownController` only when a PnL is
recorded. Fed with the same trades they agree at the moments at which the day has not changed since, or
at which nothing was earned or lost on the last day (`daily_guards_agree_iff`).
-/

namespace PolyCortex

/-- `DailyLossTracker`; its constructor refuses a limit that is not positive. -/
structure DailyLossTracker where
  dailyLossLimitUsdc : ℚ
  dailyPnl : ℚ := 0
  resetDate : Day
  limit_pos : 0 < dailyLossLimitUsdc

namespace DailyLossTracker

/-- `_maybe_reset`. -/
def maybeReset (now : Time) (t : DailyLossTracker) : DailyLossTracker :=
  if utcDay now ≠ t.resetDate then { t with dailyPnl := 0, resetDate := utcDay now } else t

/-- `record_pnl`. -/
def recordPnl (now : Time) (pnl : ℚ) (t : DailyLossTracker) : DailyLossTracker :=
  let t := t.maybeReset now
  { t with dailyPnl := t.dailyPnl + pnl }

/-- The property `daily_pnl`; reading it may roll the day over. -/
def readDailyPnl (now : Time) (t : DailyLossTracker) : ℚ × DailyLossTracker :=
  let t := t.maybeReset now
  (t.dailyPnl, t)

/-- The property `is_limit_hit`. -/
def readIsLimitHit (now : Time) (t : DailyLossTracker) : Bool × DailyLossTracker :=
  let t := t.maybeReset now
  (if 0 ≤ t.dailyPnl then false else t.dailyLossLimitUsdc ≤ |t.dailyPnl|, t)

variable {t : DailyLossTracker} {now : Time} {pnl : ℚ}

@[simp] lemma maybeReset_dailyPnl :
    (t.maybeReset now).dailyPnl = if utcDay now = t.resetDate then t.dailyPnl else 0 := by
  rw [maybeReset]
  split_ifs <;> first | rfl | contradiction

@[simp] lemma maybeReset_resetDate : (t.maybeReset now).resetDate = utcDay now := by
  rw [maybeReset]
  split_ifs with hday
  · rfl
  · exact (not_not.mp hday).symm

@[simp] lemma maybeReset_limit :
    (t.maybeReset now).dailyLossLimitUsdc = t.dailyLossLimitUsdc := by
  rw [maybeReset]
  split_ifs <;> rfl

end DailyLossTracker

/-- A realized PnL, with the time at which it is recorded. -/
abbrev RealizedPnl := Time × ℚ

/-- The controller after the trades. -/
def DrawdownController.recordAll (d : DrawdownController) (trades : List RealizedPnl) :
    DrawdownController :=
  trades.foldl (fun d trade => d.recordTradePnl trade.1 trade.2) d

/-- The tracker after the trades. -/
def DailyLossTracker.recordAll (t : DailyLossTracker) (trades : List RealizedPnl) : DailyLossTracker :=
  trades.foldl (fun t trade => t.recordPnl trade.1 trade.2) t

/-! ### The same trades -/

/-- Controller and tracker have the same limit, day and PnL. -/
structure GuardsAlike (d : DrawdownController) (t : DailyLossTracker) : Prop where
  limit : d.dailyLossLimitUsdc = some t.dailyLossLimitUsdc
  pnl : d.dailyPnl = t.dailyPnl
  day : d.dailyResetDate = t.resetDate

variable {d : DrawdownController} {t : DailyLossTracker} {trades : List RealizedPnl}
  {start now : Time}

lemma GuardsAlike.record (h : GuardsAlike d t) (now : Time) (pnl : ℚ) :
    GuardsAlike (d.recordTradePnl now pnl) (t.recordPnl now pnl) := by
  rw [DrawdownController.recordTradePnl]
  split_ifs with hday
  · rw [h.day] at hday
    exact ⟨by simp [DailyLossTracker.recordPnl, h.limit],
      by simp [DailyLossTracker.recordPnl, hday], by simp [DailyLossTracker.recordPnl]⟩
  · rw [not_not, h.day] at hday
    exact ⟨by simp [DailyLossTracker.recordPnl, h.limit],
      by simp [DailyLossTracker.recordPnl, hday, h.pnl],
      by simp [DailyLossTracker.recordPnl, hday, h.day]⟩

lemma GuardsAlike.recordAll (h : GuardsAlike d t) (trades : List RealizedPnl) :
    GuardsAlike (d.recordAll trades) (t.recordAll trades) := by
  induction trades generalizing d t with
  | nil => exact h
  | cons trade trades ih => exact ih (h.record trade.1 trade.2)

/-- While the day lasts, or when it has brought nothing, the two say the same; otherwise the PnL is
that of a day that is over. -/
lemma GuardsAlike.agree_iff (h : GuardsAlike d t) (now : Time) :
    (d.dailyLimitHit = (t.readIsLimitHit now).1 ∧ d.dailyPnl = (t.readDailyPnl now).1) ↔
      utcDay now = d.dailyResetDate ∨ d.dailyPnl = 0 := by
  have hlimit : d.dailyLimitHit = decide (d.dailyPnl ≤ -t.dailyLossLimitUsdc) := by
    rw [DrawdownController.dailyLimitHit, h.limit]
    dsimp only
    rw [abs_of_pos t.limit_pos]
  have hpos := t.limit_pos
  rw [hlimit, DailyLossTracker.readIsLimitHit, DailyLossTracker.readDailyPnl]
  dsimp only
  rw [DailyLossTracker.maybeReset_dailyPnl, DailyLossTracker.maybeReset_limit, ← h.day, ← h.pnl]
  by_cases hday : utcDay now = d.dailyResetDate
  · simp only [hday, if_true, true_or, iff_true, and_true]
    split_ifs with hgain
    · rw [decide_eq_false_iff_not, not_le]
      linarith
    · rw [abs_of_neg (not_le.mp hgain), decide_eq_decide]
      exact le_neg
  · simp only [hday, if_false, false_or, le_refl, if_true]
    constructor
    · exact fun hagree => hagree.2
    · intro hzero
      refine ⟨?_, hzero⟩
      rw [hzero, decide_eq_false_iff_not, not_le]
      linarith

/-! ### The last day -/

/-- The day of the last trade, or of the start. -/
def lastDay (start : Time) (trades : List RealizedPnl) : Day :=
  utcDay ((trades.map (·.1)).getLastD start)

/-- The PnL of the trades of a day. -/
def pnlOfDay (day : Day) (trades : List RealizedPnl) : ℚ :=
  ((trades.filter (utcDay ·.1 = day)).map (·.2)).sum

lemma utcDay_mono {x y : Time} (h : x ≤ y) : utcDay x ≤ utcDay y :=
  Int.ediv_le_ediv (by norm_num) h

/-- The PnL of the controller is that of its day, and no trade is later. -/
structure Tallies (d : DrawdownController) (trades : List RealizedPnl) : Prop where
  pnl : d.dailyPnl = pnlOfDay d.dailyResetDate trades
  day_le : ∀ trade ∈ trades, utcDay trade.1 ≤ d.dailyResetDate

@[simp] lemma recordTradePnl_dailyResetDate (d : DrawdownController) (now : Time) (pnl : ℚ) :
    (d.recordTradePnl now pnl).dailyResetDate = utcDay now := by
  rw [DrawdownController.recordTradePnl]
  split_ifs with hday
  · rfl
  · exact (not_not.mp hday).symm

lemma Tallies.record (h : Tallies d trades) (hnow : d.dailyResetDate ≤ utcDay now) (pnl : ℚ) :
    Tallies (d.recordTradePnl now pnl) (trades ++ [(now, pnl)]) := by
  have hpnl : (d.recordTradePnl now pnl).dailyPnl = pnlOfDay (utcDay now) trades + pnl := by
    rw [DrawdownController.recordTradePnl]
    split_ifs with hday
    · -- a new day has no trades yet
      have hnone : trades.filter (utcDay ·.1 = utcDay now) = [] := by
        refine List.filter_eq_nil_iff.mpr fun trade htrade hsame => hday ?_
        exact le_antisymm (of_decide_eq_true hsame ▸ h.day_le trade htrade) hnow
      simp [pnlOfDay, hnone]
    · rw [not_not.mp hday, ← h.pnl]
  constructor
  · rw [hpnl, recordTradePnl_dailyResetDate]
    simp [pnlOfDay]
  · intro trade htrade
    rw [recordTradePnl_dailyResetDate]
    rcases List.mem_append.mp htrade with hold | hnew
    · exact (h.day_le trade hold).trans hnow
    · rw [List.mem_singleton.mp hnew]

lemma Tallies.recordAll {before : List RealizedPnl} (h : Tallies d before)
    (hstart : d.dailyResetDate = utcDay start)
    (hsorted : (start :: trades.map (·.1)).Pairwise (· ≤ ·)) :
    Tallies (d.recordAll trades) (before ++ trades) ∧
      (d.recordAll trades).dailyResetDate = lastDay start trades := by
  induction trades generalizing d before start with
  | nil => exact ⟨by rwa [List.append_nil], hstart⟩
  | cons trade trades ih =>
    obtain ⟨hfirst, hrest⟩ := List.pairwise_cons.mp hsorted
    have hnow : d.dailyResetDate ≤ utcDay trade.1 :=
      hstart ▸ utcDay_mono (hfirst _ List.mem_cons_self)
    obtain ⟨htallies, hday⟩ := ih (h.record hnow trade.2) (recordTradePnl_dailyResetDate ..) hrest
    refine ⟨?_, ?_⟩
    · rw [List.append_assoc] at htallies
      exact htallies
    · rw [lastDay, List.map_cons, List.getLastD_cons]
      exact hday

/-- A controller and a tracker that start at the same time with the same limit. -/
def DrawdownController.limited (d : DrawdownController) (limit : ℚ) (start : Time) :
    DrawdownController :=
  { d with dailyLossLimitUsdc := some limit, dailyPnl := 0, dailyResetDate := utcDay start }

def DailyLossTracker.started {limit : ℚ} (hlimit : 0 < limit) (start : Time) : DailyLossTracker where
  dailyLossLimitUsdc := limit
  resetDate := utcDay start
  limit_pos := hlimit

/-- Fed with the same trades the two guards report the same, exactly when the query is on the day of
the last trade, or when the trades of that day add up to nothing. -/
theorem daily_guards_agree_iff (d : DrawdownController) {limit : ℚ} (hlimit : 0 < limit)
    (hsorted : (start :: trades.map (·.1)).Pairwise (· ≤ ·)) (now : Time) :
    let controller := (d.limited limit start).recordAll trades
    let tracker := (DailyLossTracker.started hlimit start).recordAll trades
    (controller.dailyLimitHit = (tracker.readIsLimitHit now).1 ∧
      controller.dailyPnl = (tracker.readDailyPnl now).1) ↔
      utcDay now = lastDay start trades ∨ pnlOfDay (lastDay start trades) trades = 0 := by
  intro controller tracker
  have hlike : GuardsAlike controller tracker := GuardsAlike.recordAll ⟨rfl, rfl, rfl⟩ trades
  have hnone : Tallies (d.limited limit start) [] := ⟨rfl, by simp⟩
  have hstart : (d.limited limit start).dailyResetDate = utcDay start := rfl
  obtain ⟨htallies, hday⟩ := hnone.recordAll hstart hsorted
  rw [hlike.agree_iff now, htallies.pnl, hday, List.nil_append]

lemma ten_pos : (0 : ℚ) < 10 := by norm_num

/-- A loss of 12, with a limit of 10. -/
def oneLoss : List RealizedPnl := [(3600000000, -12)]

/-- On the same day both guards halt the trading. -/
theorem daily_guards_agree_sameDay :
    (((({ dailyResetDate := 0 } : DrawdownController).limited 10 0).recordAll oneLoss).dailyLimitHit =
      (((DailyLossTracker.started ten_pos 0).recordAll oneLoss).readIsLimitHit 7200000000).1) :=
  ((daily_guards_agree_iff { dailyResetDate := 0 } ten_pos (by decide +kernel) 7200000000).mpr
    (Or.inl (by decide +kernel))).1

/-- After midnight the tracker lets the trading go on, and the controller does not. -/
theorem midnight_halts_on :
    let controller := (({ dailyResetDate := 0 } : DrawdownController).limited 10 0).recordAll oneLoss
    let tracker := (DailyLossTracker.started ten_pos 0).recordAll oneLoss
    controller.dailyLimitHit = true ∧ controller.dailyPnl = -12 ∧
      (tracker.readIsLimitHit 86400000000).1 = false ∧ (tracker.readDailyPnl 86400000000).1 = 0 := by
  decide +kernel

end PolyCortex
