import PolyCortex.Risk.Drawdown

/-!
# The drawdown throttle

Over any sequence of calls the peak stays positive and above the bankrolls that were shown since it was
reset. The multiplier falls in a straight line from one at `reduce_at` to zero at `stop_at`
(`getMultiplier_eq`), and everything that is read off the drawdown agrees about it.
-/

namespace PolyCortex

/-- A call that changes the controller. -/
inductive DrawdownCall where
  | update (currentBankroll : ℚ)
  | resetPeak (currentBankroll : ℚ)
  | recordTradePnl (now : Time) (pnl : ℚ)
  deriving DecidableEq, Repr

namespace DrawdownController

variable {d : DrawdownController} {calls : List DrawdownCall} {call : DrawdownCall}
  {bankroll bankroll' : ℚ}

def perform (d : DrawdownController) : DrawdownCall → DrawdownController
  | .update currentBankroll => d.update currentBankroll
  | .resetPeak currentBankroll => d.resetPeak currentBankroll
  | .recordTradePnl now pnl => d.recordTradePnl now pnl

def runCalls (d : DrawdownController) (calls : List DrawdownCall) : DrawdownController :=
  calls.foldl perform d

/-- The peak is only ever reset to a positive bankroll. -/
def ResetsPositive (calls : List DrawdownCall) : Prop :=
  ∀ bankroll, DrawdownCall.resetPeak bankroll ∈ calls → 0 < bankroll

/-- The thresholds are in their order, and there is a peak to fall from. -/
structure Throttles (d : DrawdownController) : Prop where
  reduce_pos : 0 < d.reduceAt
  reduce_lt : d.reduceAt < d.stopAt
  stop_le : d.stopAt ≤ d.emergencyAt
  peak_pos : 0 < d.peak

/-! ### Calls -/

@[simp] lemma recordTradePnl_peak (now : Time) (pnl : ℚ) : (d.recordTradePnl now pnl).peak = d.peak := by
  rw [recordTradePnl]
  split_ifs <;> rfl

/-- No call moves a threshold. -/
lemma perform_thresholds (d : DrawdownController) (call : DrawdownCall) :
    (d.perform call).reduceAt = d.reduceAt ∧ (d.perform call).stopAt = d.stopAt ∧
      (d.perform call).emergencyAt = d.emergencyAt := by
  cases call with
  | update currentBankroll => exact ⟨rfl, rfl, rfl⟩
  | resetPeak currentBankroll => exact ⟨rfl, rfl, rfl⟩
  | recordTradePnl now pnl =>
    rw [perform, recordTradePnl]
    split_ifs <;> exact ⟨rfl, rfl, rfl⟩

lemma Throttles.perform (h : d.Throttles) (hcall : ∀ b, call = .resetPeak b → 0 < b) :
    (d.perform call).Throttles := by
  obtain ⟨hreduce, hstop, hemergency⟩ := d.perform_thresholds call
  refine ⟨hreduce ▸ h.reduce_pos, ?_, ?_, ?_⟩
  · rw [hreduce, hstop]
    exact h.reduce_lt
  · rw [hstop, hemergency]
    exact h.stop_le
  · cases call with
    | update b => exact lt_max_of_lt_left h.peak_pos
    | resetPeak b => exact hcall b rfl
    | recordTradePnl now pnl =>
      rw [DrawdownController.perform, recordTradePnl_peak]
      exact h.peak_pos

lemma Throttles.runCalls (h : d.Throttles) (hcalls : ResetsPositive calls) :
    (d.runCalls calls).Throttles := by
  induction calls generalizing d with
  | nil => exact h
  | cons call calls ih =>
    refine ih (h.perform fun b hb => hcalls b (by simp [hb])) fun b hb => hcalls b ?_
    exact List.mem_cons_of_mem _ hb

/-- Without a reset the peak does not fall. -/
lemma peak_le_runCalls (hreset : ∀ b, DrawdownCall.resetPeak b ∉ calls) :
    d.peak ≤ (d.runCalls calls).peak := by
  induction calls generalizing d with
  | nil => exact le_rfl
  | cons call calls ih =>
    have hstep : d.peak ≤ (d.perform call).peak := by
      cases call with
      | update b => exact le_max_left _ _
      | resetPeak b => exact absurd List.mem_cons_self (hreset b)
      | recordTradePnl now pnl => exact (recordTradePnl_peak now pnl).ge
    exact hstep.trans (ih fun b hb => hreset b (List.mem_cons_of_mem _ hb))

/-- The peak is at least what was shown since it was reset. -/
lemma le_peak_runCalls {before after : List DrawdownCall}
    (hreset : ∀ b, DrawdownCall.resetPeak b ∉ after) :
    bankroll ≤ (d.runCalls (before ++ .update bankroll :: after)).peak := by
  rw [runCalls, List.foldl_append, List.foldl_cons]
  exact (le_max_right _ _).trans (peak_le_runCalls hreset)

/-! ### Readings -/

lemma getDrawdown_eq (h : d.Throttles) (bankroll : ℚ) :
    d.getDrawdown bankroll = (d.peak - bankroll) / d.peak := if_neg (not_le.mpr h.peak_pos)

lemma getDrawdown_anti (h : d.Throttles) (hle : bankroll ≤ bankroll') :
    d.getDrawdown bankroll' ≤ d.getDrawdown bankroll := by
  rw [getDrawdown_eq h, getDrawdown_eq h]
  exact div_le_div_of_nonneg_right (by linarith) h.peak_pos.le

/-- The line from one at `reduceAt` to zero at `stopAt`, and level outside. -/
def throttle (d : DrawdownController) (drawdown : ℚ) : ℚ :=
  max 0 (min 1 ((d.stopAt - drawdown) / (d.stopAt - d.reduceAt)))

lemma throttle_anti (h : d.Throttles) {x y : ℚ} (hxy : x ≤ y) : d.throttle y ≤ d.throttle x := by
  have hwidth := sub_pos.mpr h.reduce_lt
  refine max_le_max le_rfl (min_le_min le_rfl ?_)
  exact div_le_div_of_nonneg_right (by linarith) hwidth.le

lemma throttle_of_stop_le (h : d.Throttles) {drawdown : ℚ} (hstop : d.stopAt ≤ drawdown) :
    d.throttle drawdown = 0 := by
  have hwidth := sub_pos.mpr h.reduce_lt
  apply max_eq_left
  exact (min_le_right _ _).trans (div_nonpos_of_nonpos_of_nonneg (by linarith) hwidth.le)

lemma throttle_lt_one (h : d.Throttles) {drawdown : ℚ} (hreduce : d.reduceAt < drawdown) :
    d.throttle drawdown < 1 := by
  have hwidth := sub_pos.mpr h.reduce_lt
  refine max_lt zero_lt_one (min_lt_of_right_lt ?_)
  rw [div_lt_one hwidth]
  linarith

/-- The multiplier is the throttle, unless the daily limit is hit. -/
lemma getMultiplier_eq (h : d.Throttles) (bankroll : ℚ) :
    d.getMultiplier bankroll = if d.dailyLimitHit then 0 else d.throttle (d.getDrawdown bankroll) := by
  have hwidth := sub_pos.mpr h.reduce_lt
  rw [getMultiplier, if_neg (not_le.mpr h.peak_pos), getDrawdown_eq h]
  dsimp only
  split_ifs with hlimit hemergency hstop hreduce
  · rfl
  · exact (throttle_of_stop_le h (h.stop_le.trans hemergency)).symm
  · exact (throttle_of_stop_le h hstop).symm
  · have hline : (d.stopAt - (d.peak - bankroll) / d.peak) / (d.stopAt - d.reduceAt) =
        1 - ((d.peak - bankroll) / d.peak - d.reduceAt) / (d.stopAt - d.reduceAt) := by
      field_simp
      ring
    have hle : (d.stopAt - (d.peak - bankroll) / d.peak) / (d.stopAt - d.reduceAt) ≤ 1 := by
      rw [div_le_one hwidth]
      linarith
    rw [throttle, min_eq_right hle, max_eq_right, hline]
    exact div_nonneg (by linarith) hwidth.le
  · have hle : 1 ≤ (d.stopAt - (d.peak - bankroll) / d.peak) / (d.stopAt - d.reduceAt) := by
      rw [le_div_iff₀ hwidth]
      linarith
    rw [throttle, min_eq_left hle, max_eq_right zero_le_one]

lemma shouldCloseAll_iff (h : d.Throttles) (bankroll : ℚ) :
    d.shouldCloseAll bankroll = true ↔ d.emergencyAt ≤ d.getDrawdown bankroll := by
  rw [shouldCloseAll, if_neg (not_le.mpr h.peak_pos), getDrawdown_eq h, decide_eq_true_iff]

/-- What the readings of a controller have to do with each other. -/
structure Consistent (d : DrawdownController) : Prop where
  nonneg : ∀ bankroll, 0 ≤ d.getMultiplier bankroll
  le_one : ∀ bankroll, d.getMultiplier bankroll ≤ 1
  mono : ∀ bankroll bankroll', bankroll ≤ bankroll' →
    d.getMultiplier bankroll ≤ d.getMultiplier bankroll'
  zero_of_stop : ∀ bankroll, d.stopAt ≤ d.getDrawdown bankroll ∨ d.dailyLimitHit = true →
    d.getMultiplier bankroll = 0
  one_only : ∀ bankroll, d.getMultiplier bankroll = 1 → d.dailyLimitHit = false ∧
    d.getDrawdown bankroll < d.stopAt ∧ d.getDrawdown bankroll ≤ d.reduceAt
  zero_of_closeAll : ∀ bankroll, d.shouldCloseAll bankroll = true → d.getMultiplier bankroll = 0
  emergency_iff : ∀ bankroll, (d.getStatus bankroll).tier = .emergency ↔
    d.shouldCloseAll bankroll = true
  stopped_iff : ∀ bankroll, (d.getStatus bankroll).tier = .stopped ↔
    d.stopAt ≤ d.getDrawdown bankroll ∧ d.getDrawdown bankroll < d.emergencyAt
  reducing_iff : ∀ bankroll, (d.getStatus bankroll).tier = .reducing ↔
    d.reduceAt ≤ d.getDrawdown bankroll ∧ d.getDrawdown bankroll < d.stopAt
  normal_iff : ∀ bankroll, (d.getStatus bankroll).tier = .normal ↔
    d.getDrawdown bankroll < d.reduceAt

lemma Throttles.consistent (h : d.Throttles) : d.Consistent := by
  have hreduce := h.reduce_lt
  have hstop := h.stop_le
  have hzero : ∀ bankroll, d.stopAt ≤ d.getDrawdown bankroll ∨ d.dailyLimitHit = true →
      d.getMultiplier bankroll = 0 := by
    intro bankroll hcause
    rw [getMultiplier_eq h]
    split_ifs with hlimit
    · rfl
    · exact throttle_of_stop_le h (hcause.resolve_right hlimit)
  constructor
  case nonneg =>
    intro bankroll
    rw [getMultiplier_eq h]
    split_ifs
    · exact le_rfl
    · exact le_max_left _ _
  case le_one =>
    intro bankroll
    rw [getMultiplier_eq h]
    split_ifs
    · exact zero_le_one
    · exact max_le zero_le_one (min_le_left _ _)
  case mono =>
    intro bankroll bankroll' hle
    rw [getMultiplier_eq h, getMultiplier_eq h]
    split_ifs
    · exact le_rfl
    · exact throttle_anti h (getDrawdown_anti h hle)
  case zero_of_stop => exact hzero
  case one_only =>
    intro bankroll hone
    have hnot : ¬ (d.stopAt ≤ d.getDrawdown bankroll ∨ d.dailyLimitHit = true) := fun hcause => by
      rw [hzero bankroll hcause] at hone
      exact zero_ne_one hone
    obtain ⟨hfree, hlimit⟩ := not_or.mp hnot
    refine ⟨by simpa using hlimit, not_le.mp hfree, not_lt.mp fun hbeyond => ?_⟩
    rw [getMultiplier_eq h, if_neg hlimit] at hone
    exact (throttle_lt_one h hbeyond).ne hone
  case zero_of_closeAll =>
    intro bankroll hclose
    exact hzero bankroll (Or.inl (hstop.trans ((shouldCloseAll_iff h bankroll).mp hclose)))
  case emergency_iff =>
    intro bankroll
    rw [shouldCloseAll_iff h, getStatus]
    dsimp only
    split_ifs with h₁ h₂ h₃ <;> simp [h₁]
  case stopped_iff =>
    intro bankroll
    rw [getStatus]
    dsimp only
    split_ifs with h₁ h₂ h₃ <;> simp_all
  case reducing_iff =>
    intro bankroll
    rw [getStatus]
    dsimp only
    split_ifs with h₁ h₂ h₃
    · simp only [false_iff, not_and, not_lt]
      exact fun _ => hstop.trans h₁
    · simp [h₂]
    · simp [h₃, not_le.mp h₂]
    · simp [h₃]
  case normal_iff =>
    intro bankroll
    rw [getStatus]
    dsimp only
    split_ifs with h₁ h₂ h₃
    · simp only [false_iff, not_lt]
      exact hreduce.le.trans (hstop.trans h₁)
    · simp only [false_iff, not_lt]
      exact hreduce.le.trans h₂
    · simp [h₃]
    · simp [not_le.mp h₃]

/-- After any sequence of calls the readings are consistent, and the peak is at least every bankroll
that was shown since it was reset. -/
theorem runCalls_consistent (h : d.Throttles) (hcalls : ResetsPositive calls) :
    (d.runCalls calls).Consistent ∧
      ∀ before bankroll after, calls = before ++ .update bankroll :: after →
        (∀ b, DrawdownCall.resetPeak b ∉ after) → bankroll ≤ (d.runCalls calls).peak := by
  refine ⟨(h.runCalls hcalls).consistent, ?_⟩
  rintro before bankroll after rfl hreset
  exact le_peak_runCalls hreset

/-- A bankroll of 1000 that falls to 900. -/
theorem runCalls_consistent_fallen :
    (({ peak := 1000, dailyResetDate := 0 } : DrawdownController).runCalls
      [.resetPeak 1000, .update 900]).Consistent := by
  refine (runCalls_consistent ?_ ?_).1
  · constructor <;> norm_num
  · intro bankroll hreset
    obtain rfl : bankroll = 1000 := by simpa using hreset
    norm_num

end DrawdownController
end PolyCortex
