import PolyCortex.Execution.Order

/-!
# The drawdown controller

`DrawdownController` remembers the highest bankroll it was shown and scales positions down by how far
the bankroll is below it. The daily loss limit is kept next to it; its day turns over only when a PnL
is recorded.
-/

namespace PolyCortex

open Rounding

/-- A day of UTC. -/
abbrev Day := ℤ

/-- `datetime.now(UTC).strftime("%Y-%m-%d")`. -/
def utcDay (now : Time) : Day := now / 86400000000

structure DrawdownController where
  reduceAt : ℚ := 8 / 100
  stopAt : ℚ := 15 / 100
  emergencyAt : ℚ := 20 / 100
  peak : ℚ := 0
  dailyLossLimitUsdc : Option ℚ := none
  dailyPnl : ℚ := 0
  dailyResetDate : Day
  deriving DecidableEq, Repr

inductive DrawdownTier where
  | normal
  | reducing
  | stopped
  | emergency
  deriving DecidableEq, Repr

structure DrawdownStatus where
  drawdownPct : ℚ
  multiplier : ℚ
  tier : DrawdownTier
  dailyPnl : ℚ
  dailyLimitHit : Bool
  deriving DecidableEq, Repr

namespace DrawdownController

def update (currentBankroll : ℚ) (d : DrawdownController) : DrawdownController :=
  { d with peak := max d.peak currentBankroll }

def resetPeak (currentBankroll : ℚ) (d : DrawdownController) : DrawdownController :=
  { d with peak := currentBankroll }

def recordTradePnl (now : Time) (pnl : ℚ) (d : DrawdownController) : DrawdownController :=
  if utcDay now ≠ d.dailyResetDate then { d with dailyPnl := pnl, dailyResetDate := utcDay now }
  else { d with dailyPnl := d.dailyPnl + pnl }

def dailyLimitHit (d : DrawdownController) : Bool :=
  match d.dailyLossLimitUsdc with
  | none => false
  | some limit => d.dailyPnl ≤ -|limit|

def getDrawdown (currentBankroll : ℚ) (d : DrawdownController) : ℚ :=
  if d.peak ≤ 0 then 0 else (d.peak - currentBankroll) / d.peak

def getMultiplier (currentBankroll : ℚ) (d : DrawdownController) : ℚ :=
  if d.peak ≤ 0 then 1
  else if d.dailyLimitHit then 0
  else
    let drawdown := (d.peak - currentBankroll) / d.peak
    if d.emergencyAt ≤ drawdown then 0
    else if d.stopAt ≤ drawdown then 0
    else if d.reduceAt ≤ drawdown then 1 - (drawdown - d.reduceAt) / (d.stopAt - d.reduceAt)
    else 1

def shouldCloseAll (currentBankroll : ℚ) (d : DrawdownController) : Bool :=
  if d.peak ≤ 0 then false else d.emergencyAt ≤ (d.peak - currentBankroll) / d.peak

def getStatus (currentBankroll : ℚ) (d : DrawdownController) : DrawdownStatus :=
  let drawdown := d.getDrawdown currentBankroll
  { drawdownPct := roundTo 2 (drawdown * 100)
    multiplier := roundTo 4 (d.getMultiplier currentBankroll)
    tier :=
      if d.emergencyAt ≤ drawdown then .emergency
      else if d.stopAt ≤ drawdown then .stopped
      else if d.reduceAt ≤ drawdown then .reducing
      else .normal
    dailyPnl := roundTo 2 d.dailyPnl
    dailyLimitHit := d.dailyLimitHit }

/-- The PnL that counts for the day of `now`. -/
def pnlOn (now : Time) (d : DrawdownController) : ℚ :=
  if utcDay now = d.dailyResetDate then d.dailyPnl else 0

variable {d : DrawdownController} {bankroll : ℚ}

@[simp] lemma pnlOn_recordTradePnl (now : Time) (pnl : ℚ) :
    (d.recordTradePnl now pnl).pnlOn now = d.pnlOn now + pnl := by
  rw [recordTradePnl, pnlOn, pnlOn]
  by_cases hday : utcDay now = d.dailyResetDate
  · simp [hday]
  · simp [hday]

@[simp] lemma update_peak : (d.update bankroll).peak = max d.peak bankroll := rfl

@[simp] lemma dailyLimitHit_update : (d.update bankroll).dailyLimitHit = d.dailyLimitHit := rfl

/-- The thresholds as the settings have them: positive, in their order, below one. -/
structure Ordered (d : DrawdownController) : Prop where
  reduce_pos : 0 < d.reduceAt
  reduce_lt : d.reduceAt < d.stopAt
  stop_lt : d.stopAt < d.emergencyAt
  emergency_lt : d.emergencyAt < 1

/-- Positions are not scaled down exactly when the bankroll is within `reduceAt` of the peak and the
daily limit is not hit. -/
lemma getMultiplier_eq_one_iff (hd : d.Ordered) (hpeak : 0 < d.peak) :
    d.getMultiplier bankroll = 1 ↔
      d.dailyLimitHit = false ∧ (1 - d.reduceAt) * d.peak ≤ bankroll := by
  have hdrawdown : (1 - d.reduceAt) * d.peak ≤ bankroll ↔
      (d.peak - bankroll) / d.peak ≤ d.reduceAt := by
    rw [div_le_iff₀ hpeak]
    constructor <;> intro h <;> linarith
  rw [hdrawdown, getMultiplier, if_neg (not_le.mpr hpeak)]
  have := hd.reduce_lt
  have := hd.stop_lt
  dsimp only
  split_ifs with hlimit hemergency hstop hreduce
  · simp [hlimit]
  · simp only [zero_ne_one, false_iff, not_and, not_le]
    intro _
    linarith
  · simp only [zero_ne_one, false_iff, not_and, not_le]
    intro _
    linarith
  · have hwidth : 0 < d.stopAt - d.reduceAt := sub_pos.mpr hd.reduce_lt
    rw [sub_eq_self, div_eq_zero_iff, sub_eq_zero, or_iff_left hwidth.ne']
    constructor
    · exact fun h => ⟨by simpa using hlimit, h.le⟩
    · exact fun h => le_antisymm h.2 hreduce
  · simp only [true_iff]
    exact ⟨by simpa using hlimit, (not_le.mp hreduce).le⟩

/-- Nothing is bought when the daily limit is hit or the bankroll has fallen by `stopAt`. -/
lemma getMultiplier_eq_zero_iff (hd : d.Ordered) (hpeak : 0 < d.peak) :
    d.getMultiplier bankroll = 0 ↔
      d.dailyLimitHit = true ∨ bankroll ≤ (1 - d.stopAt) * d.peak := by
  have hdrawdown : bankroll ≤ (1 - d.stopAt) * d.peak ↔ d.stopAt ≤ (d.peak - bankroll) / d.peak := by
    rw [le_div_iff₀ hpeak]
    constructor <;> intro h <;> linarith
  rw [hdrawdown, getMultiplier, if_neg (not_le.mpr hpeak)]
  have := hd.stop_lt
  dsimp only
  split_ifs with hlimit hemergency hstop hreduce
  · simp [hlimit]
  · simp only [true_iff]
    exact Or.inr (by linarith)
  · simp [hstop]
  · have hwidth : 0 < d.stopAt - d.reduceAt := sub_pos.mpr hd.reduce_lt
    have hshare : ((d.peak - bankroll) / d.peak - d.reduceAt) / (d.stopAt - d.reduceAt) < 1 := by
      rw [div_lt_one hwidth]
      linarith
    simp only [hlimit, hstop, or_self, iff_false, Bool.false_eq_true]
    linarith
  · simp [hlimit, hstop]

/-- The emergency starts when the bankroll has fallen by `emergencyAt`. -/
lemma shouldCloseAll_eq_false_iff (hpeak : 0 < d.peak) :
    d.shouldCloseAll bankroll = false ↔ (1 - d.emergencyAt) * d.peak < bankroll := by
  rw [shouldCloseAll, if_neg (not_le.mpr hpeak), decide_eq_false_iff_not, not_le, div_lt_iff₀ hpeak]
  constructor <;> intro h <;> linarith

/-- A bankroll within `reduceAt` of the peak is no emergency. -/
lemma shouldCloseAll_eq_false (hd : d.Ordered) (hpeak : 0 < d.peak)
    (h : (1 - d.reduceAt) * d.peak ≤ bankroll) : d.shouldCloseAll bankroll = false := by
  rw [shouldCloseAll_eq_false_iff hpeak]
  have := mul_lt_mul_of_pos_right (hd.reduce_lt.trans hd.stop_lt) hpeak
  linarith

end DrawdownController
end PolyCortex
