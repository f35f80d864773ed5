import PolyCortex.Models.Calibration

/-!
# The labels of the calibration

A stored probability is that of YES, but its label says whether the trade made money. For a NO trade
these are opposite answers (`label_iff`), so the training set answers the question that was predicted
only when no NO trade is in it (`trainingSet_answers_iff`).
-/

namespace PolyCortex

namespace Scoring.ClosedTrade

/-- The probability the calibration takes of a trade. -/
def storedProb (trade : ClosedTrade) : Option ℚ := trade.rawEstimatedProb.or trade.estimatedProb

/-- The trade has what the calibration needs of it. -/
def isTrained (trade : ClosedTrade) : Bool := trade.storedProb.isSome && trade.pnl.isSome

/-- The result of a YES or NO trade shows that YES was right. -/
def YesWasRight (trade : ClosedTrade) : Prop :=
  trade.direction = .yes ∧ 0 < trade.pnl.getD 0 ∨ trade.direction = .no ∧ trade.pnl.getD 0 < 0

end Scoring.ClosedTrade

namespace ProbabilityCalibrator

open Scoring

variable {trade : ClosedTrade} {trades : List ClosedTrade}

/-- The training set of `fit_from_trades`, as `fit` gives it to the regression. -/
def trainingSet (trades : List ClosedTrade) : List (ℚ × ℚ) := cleanSamples (tradeSamples trades)

/-- A sample has the probability of the trade, and its label is 1 exactly when YES was right. -/
def Answers (trade : ClosedTrade) (sample : ℚ × ℚ) : Prop :=
  (∃ prob, trade.storedProb = some prob ∧
    sample.1 = EdgeDetector.clip (1 / 100) (99 / 100) prob) ∧
  (sample.2 = 1 ↔ trade.YesWasRight)

/-- The training set has one sample for each trade that is used, in their order. -/
def AnswersAll (trades : List ClosedTrade) : Prop :=
  List.Forall₂ Answers (trades.filter (·.isTrained)) (trainingSet trades)

/-- The label of a trade is whether it won. -/
lemma cleanSample_sampleOf (trade : ClosedTrade) :
    (sampleOf trade).bind cleanSample =
      match trade.storedProb, trade.pnl with
      | some prob, some _ => some (EdgeDetector.clip (1 / 100) (99 / 100) prob, trade.outcome)
      | _, _ => none := by
  rw [sampleOf, ClosedTrade.storedProb, ClosedTrade.outcome, ClosedTrade.won]
  cases trade.rawEstimatedProb.or trade.estimatedProb with
  | none => rfl
  | some prob =>
    cases trade.pnl with
    | none => rfl
    | some pnl =>
      dsimp only [Option.bind_some, cleanSample, Option.getD_some]
      by_cases hpos : 0 < pnl <;> simp [hpos, EdgeDetector.clip]

lemma trainingSet_cons (trade : ClosedTrade) (trades : List ClosedTrade) :
    trainingSet (trade :: trades) =
      ((sampleOf trade).bind cleanSample).toList ++ trainingSet trades := by
  rw [trainingSet, tradeSamples, List.filterMap_cons, trainingSet, tradeSamples]
  cases sampleOf trade with
  | none => rfl
  | some sample =>
    rw [cleanSamples, List.filterMap_cons, Option.bind_some]
    cases cleanSample sample <;> rfl

/-- The label of a trade that made or lost money answers the question exactly on the YES side. -/
lemma label_iff (hside : trade.direction.IsSide) (hpnl : trade.pnl.getD 0 ≠ 0) :
    (trade.outcome = 1 ↔ trade.YesWasRight) ↔ trade.direction = .yes := by
  have hlabel : trade.outcome = 1 ↔ 0 < trade.pnl.getD 0 := by
    simp [ClosedTrade.outcome, ClosedTrade.won]
  rw [hlabel, ClosedTrade.YesWasRight]
  rcases hside with hyes | hno
  · simp [hyes]
  · rcases hpnl.lt_or_gt with hneg | hpos
    · simp [hno, hneg, hneg.not_gt]
    · simp [hno, hpos, hpos.not_gt]

/-- For closed trades that made or lost money: the labels answer the question that was predicted if and
only if every trade in the training set is on the YES side. -/
theorem trainingSet_answers_iff (hsides : ∀ trade ∈ trades, trade.direction.IsSide)
    (hpnl : ∀ trade ∈ trades, trade.pnl ≠ some 0) :
    AnswersAll trades ↔ ∀ trade ∈ trades, trade.isTrained → trade.direction = .yes := by
  induction trades with
  | nil => simp [AnswersAll, trainingSet, tradeSamples, cleanSamples]
  | cons trade trades ih =>
    have ih := ih (fun row hrow => hsides row (List.mem_cons_of_mem _ hrow))
      fun row hrow => hpnl row (List.mem_cons_of_mem _ hrow)
    have hside := hsides trade List.mem_cons_self
    have hnonzero := hpnl trade List.mem_cons_self
    rw [List.forall_mem_cons, ← ih, AnswersAll, AnswersAll, trainingSet_cons, cleanSample_sampleOf,
      List.filter_cons, ClosedTrade.isTrained]
    cases hprob : trade.storedProb with
    | none => simp
    | some prob =>
      cases htrade : trade.pnl with
      | none => simp
      | some pnl =>
        have hpnl' : trade.pnl.getD 0 ≠ 0 := by
          intro hzero
          rw [htrade, Option.getD_some] at hzero
          exact hnonzero (htrade.trans (congrArg some hzero))
        simp [Answers, hprob, label_iff hside hpnl']

/-- A NO trade that was right: YES was unlikely, and the trade made money. -/
def rightNo : ClosedTrade where
  direction := .no
  pnl := some 5
  estimatedProb := some (1 / 5)
  rawEstimatedProb := some (1 / 5)

theorem trainingSet_answers_iff_yes : AnswersAll [{ rightNo with direction := .yes }] := by
  rw [trainingSet_answers_iff (by simp [Direction.IsSide]) (by simp [rightNo])]
  simp

/-- The trade teaches the calibration that YES came true at the probability 0.2. -/
theorem rightNo_label : rightNo.direction = .no ∧ trainingSet [rightNo] = [(1 / 5, 1)] ∧
    ¬ rightNo.YesWasRight ∧ ¬ AnswersAll [rightNo] := by
  have hset : trainingSet [rightNo] = [(1 / 5, 1)] := by decide +kernel
  have hwrong : ¬ rightNo.YesWasRight := by
    simp [rightNo, ClosedTrade.YesWasRight]
  refine ⟨rfl, hset, hwrong, ?_⟩
  rw [AnswersAll, hset]
  intro h
  cases h with
  | cons hfirst _ => exact hwrong (hfirst.2.mp rfl)

end ProbabilityCalibrator
end PolyCortex
