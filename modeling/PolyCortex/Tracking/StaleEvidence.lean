import PolyCortex.Numeric.Drift
import PolyCortex.Tracking.SignalWeights

/-!
# Stale evidence

The agent calls `check_and_adjust` in every cycle with the metrics of all closed trades, and nothing
records what was already acted on. Calls with the same metrics leave the learner to its decay only where
the metrics have nothing more to change (`usesEvidenceOnce_iff`).
-/

namespace PolyCortex

namespace LearnerMetrics

variable {m : LearnerMetrics ℚ}

lemma highBrier_lowBrier (h : m.highBrier = true) : m.lowBrier = false := by
  rw [highBrier, lowBrier] at *
  cases hbrier : m.brierScore with
  | none => rfl
  | some brier =>
    rw [hbrier, Option.any_some, decide_eq_true_eq] at h
    rw [Option.any_some, decide_eq_false_iff_not, not_lt]
    norm_num at h ⊢
    linarith

lemma lowWinRate_highWinRate (h : m.lowWinRate = true) : m.highWinRate = false := by
  rw [lowWinRate, highWinRate] at *
  cases hrate : m.winRate with
  | none => rfl
  | some winRate =>
    rw [hrate, Option.any_some, Bool.and_eq_true, decide_eq_true_eq] at h
    rw [Option.any_some, Bool.and_eq_false_iff, decide_eq_false_iff_not, not_lt]
    obtain ⟨hlow, -⟩ := h
    refine Or.inl ?_
    norm_num at hlow ⊢
    linarith

end LearnerMetrics

namespace SelfAdjuster

variable {m : LearnerMetrics ℚ} {l l' : SelfAdjuster ℚ} {weights : Dict String ℚ} {due : Bool}

/-! ### The least edge -/

/-- The adjustments that are due and the bounds. -/
def stepMinEdge (m : LearnerMetrics ℚ) (due : Bool) (minEdge : ℚ) : ℚ :=
  boundMinEdge (if due then adjustMinEdge m minEdge else minEdge)

/-- The bounds of the values that these leave as they are. -/
def idleEdges (m : LearnerMetrics ℚ) (due : Bool) : ℚ × ℚ :=
  if due ∧ m.highBrier ∧ m.highWinRate then (39 / 200, 39 / 200)
  else if due ∧ m.lowBrier ∧ m.lowWinRate then (3 / 50, 1 / 5)
  else if due ∧ (m.highBrier ∨ m.lowWinRate) then (1 / 5, 1 / 5)
  else if due ∧ (m.lowBrier ∨ m.highWinRate) then (1 / 20, 1 / 20)
  else (1 / 25, 1 / 5)

lemma boundMinEdge_rat (minEdge : ℚ) : boundMinEdge minEdge = max (1 / 25) (min minEdge (1 / 5)) := by
  rw [← pyMin_eq, ← pyMax_eq]
  norm_num [boundMinEdge, minEdgeFloor, minEdgeCeiling]

lemma adjustMinEdge_rat (m : LearnerMetrics ℚ) (minEdge : ℚ) :
    adjustMinEdge m minEdge =
      let minEdge := if m.highBrier then min (minEdge + 1 / 50) (1 / 5) else minEdge
      let minEdge := if m.lowBrier then max (minEdge - 1 / 100) (1 / 20) else minEdge
      let minEdge := if m.lowWinRate then min (minEdge + 1 / 100) (1 / 5) else minEdge
      if m.highWinRate then max (minEdge - 1 / 200) (1 / 20) else minEdge := by
  simp only [adjustMinEdge, ← pyMin_eq, ← pyMax_eq]
  norm_num

lemma bounded_eq_iff (x : ℚ) : max (1 / 25) (min x (1 / 5)) = x ↔ 1 / 25 ≤ x ∧ x ≤ 1 / 5 := by
  constructor
  · intro h
    exact ⟨(le_max_left _ _).trans h.le, h.ge.trans (max_le (by norm_num) (min_le_right _ _))⟩
  · rintro ⟨hlow, hhigh⟩
    rw [min_eq_left hhigh, max_eq_right hlow]

/-- Two raises under one ceiling are one. -/
lemma raise_raise {a b ceiling : ℚ} (hb : 0 ≤ b) (x : ℚ) :
    min (min (x + a) ceiling + b) ceiling = min (x + (a + b)) ceiling := by
  rw [min_add, min_assoc, min_eq_right (le_add_of_nonneg_right hb), add_assoc]

lemma lower_lower {a b floor : ℚ} (hb : 0 ≤ b) (x : ℚ) :
    max (max (x - a) floor - b) floor = max (x - (a + b)) floor := by
  rw [← max_sub_sub_right, max_assoc, max_eq_right (sub_le_self floor hb), sub_sub]

/-- A raise has nothing to change at the ceiling only. -/
lemma raised_eq_iff {a : ℚ} (ha : 0 < a) (x : ℚ) :
    max (1 / 25) (min (min (x + a) (1 / 5)) (1 / 5)) = x ↔ 1 / 5 ≤ x ∧ x ≤ 1 / 5 := by
  rw [min_assoc, min_self]
  constructor
  · intro h
    refine ⟨?_, h.ge.trans (max_le (by norm_num) (min_le_right _ _))⟩
    by_contra hlow
    have hraised : x < max (1 / 25) (min (x + a) (1 / 5)) :=
      lt_max_of_lt_right (lt_min (lt_add_of_pos_right x ha) (not_le.mp hlow))
    exact hraised.ne' h
  · rintro ⟨hlow, hhigh⟩
    obtain rfl := le_antisymm hhigh hlow
    rw [min_eq_right (le_add_of_nonneg_right ha.le), max_eq_right (by norm_num)]

lemma lowered_eq_iff {a : ℚ} (ha : 0 < a) (x : ℚ) :
    max (1 / 25) (min (max (x - a) (1 / 20)) (1 / 5)) = x ↔ 1 / 20 ≤ x ∧ x ≤ 1 / 20 := by
  constructor
  · intro h
    refine ⟨(le_max_of_le_right (le_min (le_max_right _ _) (by norm_num))).trans h.le, ?_⟩
    by_contra hhigh
    have hhigh := not_le.mp hhigh
    have hlowered : max (1 / 25) (min (max (x - a) (1 / 20)) (1 / 5)) < x :=
      max_lt (by linarith) (min_lt_of_left_lt (max_lt (sub_lt_self x ha) hhigh))
    exact hlowered.ne h
  · rintro ⟨hlow, hhigh⟩
    obtain rfl := le_antisymm hhigh hlow
    rw [max_eq_right (sub_le_self _ ha.le), min_eq_left (by norm_num), max_eq_right (by norm_num)]

/-- Lowered by less than it is raised, it comes to rest below the ceiling. -/
lemma raised_lowered_eq_iff (x : ℚ) :
    max (1 / 25) (min (max (min (x + 1 / 50) (1 / 5) - 1 / 200) (1 / 20)) (1 / 5)) = x ↔
      39 / 200 ≤ x ∧ x ≤ 39 / 200 := by
  constructor
  · intro h
    have hceiling := min_le_right (x + 1 / 50) (1 / 5)
    refine ⟨?_, h.ge.trans (max_le (by norm_num)
      ((min_le_left _ _).trans (max_le (by linarith) (by norm_num))))⟩
    by_contra hlow
    have hlow := not_le.mp hlow
    have hraised : x + 1 / 200 < min (x + 1 / 50) (1 / 5) := lt_min (by linarith) (by linarith)
    have hmoved : x < max (1 / 25)
        (min (max (min (x + 1 / 50) (1 / 5) - 1 / 200) (1 / 20)) (1 / 5)) :=
      lt_max_of_lt_right (lt_min (lt_max_of_lt_left (lt_sub_iff_add_lt.mpr hraised)) (by linarith))
    exact hmoved.ne' h
  · rintro ⟨hlow, hhigh⟩
    obtain rfl := le_antisymm hhigh hlow
    norm_num

/-- Raised by what it was lowered, it rests anywhere above the lower limit. -/
lemma lowered_raised_eq_iff (x : ℚ) :
    max (1 / 25) (min (min (max (x - 1 / 100) (1 / 20) + 1 / 100) (1 / 5)) (1 / 5)) = x ↔
      3 / 50 ≤ x ∧ x ≤ 1 / 5 := by
  rw [min_assoc, min_self]
  constructor
  · intro h
    have hfloor := le_max_right (x - 1 / 100) (1 / 20)
    exact ⟨(le_max_of_le_right (le_min (by linarith) (by norm_num))).trans h.le,
      h.ge.trans (max_le (by norm_num) (min_le_right _ _))⟩
  · rintro ⟨hlow, hhigh⟩
    have hlowered : max (x - 1 / 100) (1 / 20) = x - 1 / 100 := max_eq_left (by linarith)
    rw [hlowered, sub_add_cancel, min_eq_left hhigh, max_eq_right (by linarith)]

lemma stepMinEdge_eq_iff (x : ℚ) :
    stepMinEdge m due x = x ↔ x ∈ Set.Icc (idleEdges m due).1 (idleEdges m due).2 := by
  rw [stepMinEdge, boundMinEdge_rat, adjustMinEdge_rat, idleEdges, Set.mem_Icc]
  cases due with
  | false => exact bounded_eq_iff x
  | true =>
    cases hhigh : m.highBrier with
    | true =>
      have hlow := LearnerMetrics.highBrier_lowBrier hhigh
      cases hlowRate : m.lowWinRate with
      | true =>
        have hhighRate := LearnerMetrics.lowWinRate_highWinRate hlowRate
        simp only [hlow, hhighRate, reduceCtorEq, and_false, true_and, or_true, if_true, if_false]
        rw [raise_raise (by norm_num)]
        exact raised_eq_iff (by norm_num) x
      | false =>
        cases hhighRate : m.highWinRate with
        | true =>
          simp only [hlow, reduceCtorEq, and_self, if_true, if_false]
          exact raised_lowered_eq_iff x
        | false =>
          simp only [hlow, reduceCtorEq, and_false, true_and, or_false, if_true, if_false]
          exact raised_eq_iff (by norm_num) x
    | false =>
      cases hlow : m.lowBrier with
      | true =>
        cases hlowRate : m.lowWinRate with
        | true =>
          have hhighRate := LearnerMetrics.lowWinRate_highWinRate hlowRate
          simp only [hhighRate, reduceCtorEq, and_false, and_self, if_true, if_false]
          exact lowered_raised_eq_iff x
        | false =>
          cases hhighRate : m.highWinRate with
          | true =>
            simp only [reduceCtorEq, and_false, false_and, or_false, or_true, true_and, if_true,
              if_false]
            rw [lower_lower (by norm_num)]
            exact lowered_eq_iff (by norm_num) x
          | false =>
            simp only [reduceCtorEq, and_false, or_false, and_self, if_true, if_false]
            exact lowered_eq_iff (by norm_num) x
      | false =>
        cases hlowRate : m.lowWinRate with
        | true =>
          have hhighRate := LearnerMetrics.lowWinRate_highWinRate hlowRate
          simp only [hhighRate, reduceCtorEq, and_false, false_and, or_true, true_and, if_true, if_false]
          exact raised_eq_iff (by norm_num) x
        | false =>
          cases hhighRate : m.highWinRate with
          | true =>
            simp only [reduceCtorEq, and_false, false_and, or_false, or_true, true_and, if_true,
              if_false]
            exact lowered_eq_iff (by norm_num) x
          | false =>
            simp only [reduceCtorEq, and_false, or_false, if_false]
            exact bounded_eq_iff x

/-! ### The weights -/

/-- The metrics leave the weights as they are: they act on none of them, or scale all by the same factor
where they are renormalized, or by none where they are not. -/
def IdleWeights (m : LearnerMetrics ℚ) (weights : Dict String ℚ) : Prop :=
  (∀ signal ∈ weights.keys, ¬ ActsOn m signal) ∨
  (weights.values.sum = 1 ∧ ∃ r > 0, ∀ signal weight, weights.get? signal = some weight →
    scaledWeight m signal weight = r * weight) ∨
  (weights.values.sum ≤ 0 ∧ ∀ signal weight, weights.get? signal = some weight →
    scaledWeight m signal weight = weight)

lemma totalWeight_of_scaled {r : ℚ} (h : ∀ signal weight, weights.get? signal = some weight →
    scaledWeight m signal weight = r * weight) :
    totalWeight (weights.mapValues (scaledWeight m)) = r * weights.values.sum := by
  have hscaled : weights.mapValues (scaledWeight m) = weights.mapValues fun _ weight => r * weight :=
    Dict.mapValues_congr h
  rw [totalWeight_eq, hscaled, Dict.values_mapValues, List.sum_map_mul_left, List.map_id']

lemma adjustWeights_eq_self_iff : adjustWeights m weights = weights ↔ IdleWeights m weights := by
  by_cases hacts : ∃ signal ∈ weights.keys, ActsOn m signal
  · have hsome : ¬ ∀ signal ∈ weights.keys, ¬ ActsOn m signal := by simpa using hacts
    rw [adjustWeights_of_acts hacts, IdleWeights, or_iff_right hsome]
    by_cases htotal : 0 < totalWeight (weights.mapValues (scaledWeight m))
    · rw [renormalize_of_pos htotal, Dict.mapValues_mapValues, Dict.mapValues_eq_self_iff]
      constructor
      · intro h
        have hscaled : ∀ signal weight, weights.get? signal = some weight → scaledWeight m signal weight =
            totalWeight (weights.mapValues (scaledWeight m)) * weight := by
          intro signal weight hget
          exact ((div_eq_iff htotal.ne').mp (h signal weight hget)).trans (mul_comm _ _)
        have hsum := totalWeight_of_scaled hscaled
        exact Or.inl ⟨(mul_eq_left₀ htotal.ne').mp hsum.symm, _, htotal, hscaled⟩
      · rintro (⟨hsum, r, hr, h⟩ | ⟨hsum, h⟩) signal weight hget
        · rw [totalWeight_of_scaled h, hsum, mul_one, h signal weight hget,
            mul_div_cancel_left₀ _ hr.ne']
        · have hsame := totalWeight_of_scaled (r := 1) fun signal weight hget =>
            (h signal weight hget).trans (one_mul weight).symm
          linarith
    · rw [renormalize, if_neg htotal, Dict.mapValues_eq_self_iff]
      constructor
      · intro h
        have hsame := totalWeight_of_scaled (r := 1) fun signal weight hget =>
          (h signal weight hget).trans (one_mul weight).symm
        exact Or.inr ⟨by linarith, h⟩
      · rintro (⟨hsum, r, hr, h⟩ | ⟨-, h⟩)
        · rw [totalWeight_of_scaled h, hsum, mul_one] at htotal
          exact absurd hr htotal
        · exact h
  · have hnone : ∀ signal ∈ weights.keys, ¬ ActsOn m signal := by simpa using hacts
    exact iff_of_true (adjustWeights_of_not_acts hnone) (Or.inl hnone)

/-! ### Repeated calls -/

/-- The learner after `n` calls with the same metrics. -/
def afterRepeats (m : LearnerMetrics ℚ) (n : ℕ) (l : SelfAdjuster ℚ) : SelfAdjuster ℚ :=
  l.afterCalls (List.replicate n m)

/-- The calls after the first leave the weights as the first has left them, and the least edge to its
decay. -/
def UsesEvidenceOnce (m : LearnerMetrics ℚ) (l : SelfAdjuster ℚ) : Prop :=
  ∀ n l', (l.afterRepeats m (n + 1)).checkAndAdjust m = some l' →
    l'.signalWeights = (l.afterCall m).signalWeights ∧
      l'.minEdge = decay l.baselineMinEdge (l.afterRepeats m (n + 1)).minEdge

lemma decay_rat (baseline minEdge : ℚ) :
    decay baseline minEdge = Drift.drift (1 / 100) baseline minEdge := by
  rw [decay, Drift.drift]
  norm_num [decayRate]

lemma decay_inj {baseline x y : ℚ} (h : decay baseline x = decay baseline y) : x = y := by
  rw [decay_rat, decay_rat, Drift.drift, Drift.drift] at h
  linarith

lemma afterRepeats_succ (m : LearnerMetrics ℚ) (n : ℕ) (l : SelfAdjuster ℚ) :
    l.afterRepeats m (n + 1) = (l.afterRepeats m n).afterCall m := by
  rw [afterRepeats, afterRepeats, afterCalls, List.replicate_succ', List.foldl_append]
  rfl

lemma checkAndAdjust_of_due (h : m.isDue l.brierCheckInterval = some due) :
    l.checkAndAdjust m = some
      { l with
        minEdge := decay l.baselineMinEdge (stepMinEdge m due l.minEdge)
        signalWeights := adjustWeights m l.signalWeights } := by
  rw [checkAndAdjust, h]
  rfl

/-- What the calls with the same metrics leave of the learner, apart from what they adjust. -/
lemma afterRepeats_settings (m : LearnerMetrics ℚ) (n : ℕ) (l : SelfAdjuster ℚ) :
    (l.afterRepeats m n).baselineMinEdge = l.baselineMinEdge ∧
      (l.afterRepeats m n).brierCheckInterval = l.brierCheckInterval := by
  refine afterCalls_induction (P := fun l' => l'.baselineMinEdge = l.baselineMinEdge ∧
    l'.brierCheckInterval = l.brierCheckInterval) ⟨rfl, rfl⟩ ?_ _
  intro m l₁ l₂ h hcall
  obtain ⟨due, -, rfl⟩ := checkAndAdjust_cases hcall
  exact h

/-- A call when the adjustments are due. -/
lemma afterRepeats_succ_of_due (h : m.isDue l.brierCheckInterval = some due) (n : ℕ) :
    (l.afterRepeats m n).checkAndAdjust m = some (l.afterRepeats m (n + 1)) ∧
      (l.afterRepeats m (n + 1)).minEdge =
        decay l.baselineMinEdge (stepMinEdge m due (l.afterRepeats m n).minEdge) ∧
      (l.afterRepeats m (n + 1)).signalWeights =
        adjustWeights m (l.afterRepeats m n).signalWeights := by
  obtain ⟨hbaseline, hinterval⟩ := afterRepeats_settings m n l
  have hcall := checkAndAdjust_of_due (l := l.afterRepeats m n) (hinterval ▸ h)
  rw [afterRepeats_succ, afterCall_of_some hcall, hbaseline]
  rw [hbaseline] at hcall
  exact ⟨hcall, rfl, rfl⟩

/-- The weights stay as the first call leaves them exactly when the second one leaves them. -/
lemma forall_signalWeights_iff (h : m.isDue l.brierCheckInterval = some due) :
    (∀ n, (l.afterRepeats m (n + 2)).signalWeights = (l.afterRepeats m 1).signalWeights) ↔
      IdleWeights m (l.afterRepeats m 1).signalWeights := by
  rw [← adjustWeights_eq_self_iff]
  constructor
  · intro hsame
    rw [← (afterRepeats_succ_of_due h 1).2.2]
    exact hsame 0
  · intro hidle n
    induction n with
    | zero => rw [(afterRepeats_succ_of_due h 1).2.2, hidle]
    | succ n ih => rw [(afterRepeats_succ_of_due h (n + 2)).2.2, ih, hidle]

/-- The least edge is left to its decay exactly when no value on its way is adjusted. -/
lemma forall_minEdge_iff (h : m.isDue l.brierCheckInterval = some due) :
    (∀ n, (l.afterRepeats m (n + 2)).minEdge =
        decay l.baselineMinEdge (l.afterRepeats m (n + 1)).minEdge) ↔
      (l.afterRepeats m 1).minEdge ∈ Set.Icc (idleEdges m due).1 (idleEdges m due).2 ∧
        l.baselineMinEdge ∈ Set.Icc (idleEdges m due).1 (idleEdges m due).2 := by
  have hrate : (0 : ℚ) < 1 / 100 ∧ (1 : ℚ) / 100 ≤ 1 := by norm_num
  rw [← Drift.forall_iterate_mem_iff hrate]
  constructor
  · intro hdecay n
    have hiterate : (l.afterRepeats m (n + 1)).minEdge =
        (Drift.drift (1 / 100) l.baselineMinEdge)^[n] (l.afterRepeats m 1).minEdge := by
      induction n with
      | zero => rfl
      | succ n ih => rw [hdecay n, Function.iterate_succ_apply', ← ih, decay_rat]
    rw [← hiterate, ← stepMinEdge_eq_iff]
    exact decay_inj ((afterRepeats_succ_of_due h (n + 1)).2.1.symm.trans (hdecay n))
  · intro hmem
    have hstep : ∀ n, (l.afterRepeats m (n + 1)).minEdge =
        (Drift.drift (1 / 100) l.baselineMinEdge)^[n] (l.afterRepeats m 1).minEdge →
          (l.afterRepeats m (n + 2)).minEdge =
            decay l.baselineMinEdge (l.afterRepeats m (n + 1)).minEdge := by
      intro n hn
      rw [(afterRepeats_succ_of_due h (n + 1)).2.1, (stepMinEdge_eq_iff _).mpr (hn ▸ hmem n)]
    intro n
    refine hstep n ?_
    induction n with
    | zero => rfl
    | succ n ih => rw [hstep n ih, Function.iterate_succ_apply', ← ih, decay_rat]

/-- Calls with the same metrics use them once exactly when, unless they raise, the metrics have nothing
more to change in the weights that the first call leaves, nor in the least edge it leaves or in the
baseline to which that decays. -/
theorem usesEvidenceOnce_iff (m : LearnerMetrics ℚ) (l : SelfAdjuster ℚ) :
    l.UsesEvidenceOnce m ↔ ∀ due, m.isDue l.brierCheckInterval = some due →
      IdleWeights m (l.afterCall m).signalWeights ∧
        (l.afterCall m).minEdge ∈ Set.Icc (idleEdges m due).1 (idleEdges m due).2 ∧
        l.baselineMinEdge ∈ Set.Icc (idleEdges m due).1 (idleEdges m due).2 := by
  have hfirst : l.afterCall m = l.afterRepeats m 1 := rfl
  rw [UsesEvidenceOnce, hfirst]
  constructor
  · intro honce due hdue
    rw [← forall_signalWeights_iff hdue, ← forall_minEdge_iff hdue]
    have hcalls := fun n => honce n _ (afterRepeats_succ_of_due hdue (n + 1)).1
    exact ⟨fun n => (hcalls n).1, fun n => (hcalls n).2⟩
  · intro hidle n l' hcall
    obtain ⟨due, hdue, -⟩ := checkAndAdjust_cases hcall
    rw [(afterRepeats_settings m (n + 1) l).2] at hdue
    obtain ⟨hweights, hedges⟩ := hidle due hdue
    rw [(afterRepeats_succ_of_due hdue (n + 1)).1, Option.some.injEq] at hcall
    rw [← hcall]
    exact ⟨(forall_signalWeights_iff hdue).mpr hweights n, (forall_minEdge_iff hdue).mpr hedges n⟩

/-- At fifty trades, with a Brier score above 0.30. -/
def staleMetrics : LearnerMetrics ℚ :=
  { onlySentiment with tradeCount := 50, brierScore := some (7 / 20) }

/-- The second call with the same metrics raises the least edge and lowers a weight once more. -/
theorem staleMetrics_ratchet :
    ((create settingsConfig).afterRepeats staleMetrics 1).minEdge = 499 / 5000 ∧
      ((create settingsConfig).afterRepeats staleMetrics 2).minEdge = 59701 / 500000 ∧
      ((create settingsConfig).afterRepeats staleMetrics 1).signalWeights.get? "order_book" =
        some (3 / 31) ∧
      ((create settingsConfig).afterRepeats staleMetrics 2).signalWeights.get? "order_book" =
        some (15 / 224) ∧
      ¬ (create settingsConfig).UsesEvidenceOnce staleMetrics := by
  have hfirst : ((create settingsConfig).afterRepeats staleMetrics 1).minEdge = 499 / 5000 := by
    decide +kernel
  have hsecond : ((create settingsConfig).afterRepeats staleMetrics 2).minEdge = 59701 / 500000 := by
    decide +kernel
  refine ⟨hfirst, hsecond, by decide +kernel, by decide +kernel, fun honce => ?_⟩
  have hdue : staleMetrics.isDue (create settingsConfig).brierCheckInterval = some true := by
    decide
  have hbaseline : (create settingsConfig).baselineMinEdge = 2 / 25 := by
    norm_num [create, settingsConfig]
  have hdecay := (honce 0 _ (afterRepeats_succ_of_due hdue 1).1).2
  rw [hsecond, hfirst, decay_rat, hbaseline, Drift.drift] at hdecay
  norm_num at hdecay

end SelfAdjuster
end PolyCortex
