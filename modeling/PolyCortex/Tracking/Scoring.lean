import PolyCortex.Execution.Mirror

/-!
# Scores

The Brier scores and the signal accuracy of `get_metrics`. A stored probability is that of the YES side
and so is the sign of a signal, but the outcome that they are held against is whether the trade made
money, whichever side it bought.
-/

namespace PolyCortex.Scoring

/-- The columns of a closed trade that the scores read; the breakdown holds the numbers of the JSON
object. -/
structure ClosedTrade where
  direction : Direction
  pnl : Option ℚ
  estimatedProb : Option ℚ
  rawEstimatedProb : Option ℚ := none
  signalBreakdown : List (String × ℚ) := []
  deriving DecidableEq, Repr

namespace ClosedTrade

/-- `(row.get("pnl") or 0.0) > 0`. -/
def won (row : ClosedTrade) : Bool := 0 < row.pnl.getD 0

/-- `outcome`. -/
def outcome (row : ClosedTrade) : ℚ := if row.won then 1 else 0

/-- `raw_prob`, for a row with a probability. -/
def rawProb (row : ClosedTrade) : Option ℚ :=
  row.estimatedProb.map fun prob => row.rawEstimatedProb.getD prob

/-- The same trade in the mirrored market: YES there is NO here. -/
def mirror (row : ClosedTrade) : ClosedTrade where
  direction := row.direction.opposite
  pnl := row.pnl
  estimatedProb := row.estimatedProb.map (1 - ·)
  rawEstimatedProb := row.rawEstimatedProb.map (1 - ·)
  signalBreakdown := row.signalBreakdown.map fun (name, value) => (name, -value)

end ClosedTrade

/-! ### The Brier scores -/

/-- The terms of a Brier score, over the rows with a probability. -/
def brierTerms (prob : ClosedTrade → Option ℚ) (rows : List ClosedTrade) : List ℚ :=
  rows.filterMap fun row => (prob row).map fun p => (p - row.outcome) ^ 2

def average (terms : List ℚ) : Option ℚ := if terms = [] then none else some (terms.sum / terms.length)

/-- `brier_score`. -/
def brierScore (rows : List ClosedTrade) : Option ℚ := average (brierTerms (·.estimatedProb) rows)

/-- `raw_brier_score`. -/
def rawBrierScore (rows : List ClosedTrade) : Option ℚ := average (brierTerms (·.rawProb) rows)

/-! ### The accuracy of the signals -/

structure SignalStats where
  correct : ℕ := 0
  total : ℕ := 0
  deriving DecidableEq, Repr

/-- A signal is right when it is positive and the trade won, or neither. -/
def isRight (won : Bool) (value : ℚ) : Bool := decide (0 < value) && won || !decide (0 < value) && !won

def countSignal (won : Bool) (stats : String → SignalStats) (signal : String × ℚ) : String → SignalStats :=
  Function.update stats signal.1
    { correct := (stats signal.1).correct + if isRight won signal.2 then 1 else 0
      total := (stats signal.1).total + 1 }

/-- `signal_stats`; a signal that never occurs has no entry there and no count here. -/
def signalStats (rows : List ClosedTrade) : String → SignalStats :=
  rows.foldl (fun stats row => row.signalBreakdown.foldl (countSignal row.won) stats) fun _ => {}

/-- `per_signal_accuracy`: the accuracy and the count of a signal. -/
def perSignalAccuracy (rows : List ClosedTrade) (name : String) : Option (ℚ × ℕ) :=
  let stats := signalStats rows name
  if stats.total = 0 then none else some (stats.correct / stats.total, stats.total)

/-! ### Counting -/

namespace ClosedTrade

/-- How often a signal occurs in a trade. -/
def occurrences (name : String) (row : ClosedTrade) : ℕ := row.signalBreakdown.countP (·.1 = name)

/-- How often a signal is right in a trade. -/
def rightCount (name : String) (row : ClosedTrade) : ℕ :=
  row.signalBreakdown.countP fun signal => signal.1 = name ∧ isRight row.won signal.2

def wrongCount (name : String) (row : ClosedTrade) : ℕ :=
  row.signalBreakdown.countP fun signal => signal.1 = name ∧ ¬ isRight row.won signal.2

end ClosedTrade

variable {name : String}

lemma foldl_countSignal (won : Bool) (signals : List (String × ℚ)) (stats : String → SignalStats) :
    signals.foldl (countSignal won) stats name =
      { correct := (stats name).correct +
          signals.countP fun signal => signal.1 = name ∧ isRight won signal.2
        total := (stats name).total + signals.countP (·.1 = name) } := by
  induction signals generalizing stats with
  | nil => rfl
  | cons signal signals ih =>
    rw [List.foldl_cons, ih, countSignal]
    by_cases hname : signal.1 = name
    · subst hname
      by_cases hright : isRight won signal.2 = true
      · simp [hright]
        omega
      · simp [hright]
        omega
    · simp [hname, Function.update_of_ne (Ne.symm hname)]

lemma foldl_signals (rows : List ClosedTrade) (stats : String → SignalStats) :
    rows.foldl (fun stats row => row.signalBreakdown.foldl (countSignal row.won) stats) stats name =
      { correct := (stats name).correct + (rows.map (·.rightCount name)).sum
        total := (stats name).total + (rows.map (·.occurrences name)).sum } := by
  induction rows generalizing stats with
  | nil => rfl
  | cons row rows ih =>
    rw [List.foldl_cons, ih, foldl_countSignal]
    simp only [List.map_cons, List.sum_cons, ← add_assoc]
    rfl

/-- The loop counts, for each signal, how often it occurs and how often it is right. -/
lemma signalStats_eq (rows : List ClosedTrade) :
    signalStats rows name =
      ⟨(rows.map (·.rightCount name)).sum, (rows.map (·.occurrences name)).sum⟩ := by
  rw [signalStats, foldl_signals, zero_add, zero_add]

/-- With the same counts, the accuracy is the same when as many are right. -/
lemma perSignalAccuracy_eq_iff {rows rows' : List ClosedTrade}
    (htotal : (rows'.map (·.occurrences name)).sum = (rows.map (·.occurrences name)).sum)
    (hle : (rows.map (·.rightCount name)).sum ≤ (rows.map (·.occurrences name)).sum)
    (hle' : (rows'.map (·.rightCount name)).sum ≤ (rows'.map (·.occurrences name)).sum) :
    perSignalAccuracy rows' name = perSignalAccuracy rows name ↔
      (rows'.map (·.rightCount name)).sum = (rows.map (·.rightCount name)).sum := by
  simp only [perSignalAccuracy, signalStats_eq]
  rw [htotal] at hle' ⊢
  generalize (rows.map (·.occurrences name)).sum = total at hle hle'
  split_ifs with hzero
  · simp only [true_iff]
    omega
  · have hne : (total : ℚ) ≠ 0 := Nat.cast_ne_zero.mpr hzero
    rw [Option.some_inj, Prod.mk.injEq, div_left_inj' hne, Nat.cast_inj, and_iff_left rfl]

/-! ### A trade and its mirror -/

namespace ClosedTrade

variable (row : ClosedTrade)

@[simp] lemma won_mirror : row.mirror.won = row.won := rfl

@[simp] lemma outcome_mirror : row.mirror.outcome = row.outcome := rfl

@[simp] lemma estimatedProb_mirror : row.mirror.estimatedProb = row.estimatedProb.map (1 - ·) := rfl

@[simp] lemma rawProb_mirror : row.mirror.rawProb = row.rawProb.map (1 - ·) := by
  simp only [rawProb, mirror, Option.map_map]
  cases row.rawEstimatedProb <;> rfl

@[simp] lemma occurrences_mirror : row.mirror.occurrences name = row.occurrences name := by
  simp [occurrences, mirror, List.countP_map, Function.comp_def]

lemma rightCount_add_wrongCount : row.rightCount name + row.wrongCount name = row.occurrences name := by
  simp only [rightCount, wrongCount, occurrences]
  induction row.signalBreakdown with
  | nil => rfl
  | cons signal signals ih =>
    by_cases hname : signal.1 = name
    · by_cases hright : isRight row.won signal.2 = true
      · simp [hname, hright] at ih ⊢
        omega
      · simp [hname, hright] at ih ⊢
        omega
    · simp [hname] at ih ⊢
      omega

end ClosedTrade

lemma isRight_neg {won : Bool} {value : ℚ} (hvalue : value ≠ 0) :
    isRight won (-value) = !isRight won value := by
  rcases lt_or_gt_of_ne hvalue with h | h
  · cases won <;> simp [isRight, h, h.le]
  · cases won <;> simp [isRight, h, h.le]

/-- A signal that is not zero is right in the mirrored trade when it was wrong. -/
lemma ClosedTrade.rightCount_mirror {row : ClosedTrade} (h : ∀ signal ∈ row.signalBreakdown, signal.2 ≠ 0) :
    row.mirror.rightCount name = row.wrongCount name := by
  simp only [rightCount, wrongCount, mirror, List.countP_map]
  refine List.countP_congr fun signal hsignal => ?_
  have hneg : isRight row.won (-signal.2) = !isRight row.won signal.2 := isRight_neg (h signal hsignal)
  simp only [won] at hneg
  simp [won, hneg]

/-! ### Replacing trades by their mirrors -/

/-- The trades that are selected. -/
def selected (rows : List (ClosedTrade × Bool)) : List ClosedTrade := (rows.filter (·.2)).map (·.1)

/-- The ledger in which the selected trades are replaced. -/
def replaceSelected (rows : List (ClosedTrade × Bool)) : List ClosedTrade :=
  rows.map fun row => if row.2 then row.1.mirror else row.1

/-- What mirroring some trades adds to the sum of the Brier terms. -/
def brierShift (prob : ClosedTrade → Option ℚ) (rows : List ClosedTrade) : ℚ :=
  (rows.filterMap fun row => (prob row).map fun p => (1 - 2 * p) * (1 - 2 * row.outcome)).sum

lemma replaceSelected_cons (row : ClosedTrade × Bool) (rows : List (ClosedTrade × Bool)) :
    replaceSelected (row :: rows) = (if row.2 then row.1.mirror else row.1) :: replaceSelected rows :=
  rfl

lemma selected_cons (row : ClosedTrade × Bool) (rows : List (ClosedTrade × Bool)) :
    selected (row :: rows) = if row.2 then row.1 :: selected rows else selected rows := by
  by_cases h : row.2 = true <;> simp [selected, h]

section Replace

variable {prob : ClosedTrade → Option ℚ}

lemma brierTerms_cons (row : ClosedTrade) (rows : List ClosedTrade) :
    brierTerms prob (row :: rows) =
      ((prob row).map fun p => (p - row.outcome) ^ 2).toList ++ brierTerms prob rows := by
  cases hvalue : prob row <;> simp [brierTerms, hvalue]

lemma brierShift_cons (row : ClosedTrade) (rows : List ClosedTrade) :
    brierShift prob (row :: rows) =
      ((prob row).elim 0 fun p => (1 - 2 * p) * (1 - 2 * row.outcome)) + brierShift prob rows := by
  cases hvalue : prob row <;> simp [brierShift, hvalue]

lemma length_brierTerms_replaceSelected (hprob : ∀ row, prob row.mirror = (prob row).map (1 - ·))
    (rows : List (ClosedTrade × Bool)) :
    (brierTerms prob (replaceSelected rows)).length = (brierTerms prob (rows.map (·.1))).length := by
  induction rows with
  | nil => rfl
  | cons row rows ih =>
    rw [replaceSelected_cons, List.map_cons, brierTerms_cons, brierTerms_cons, List.length_append, ih,
      List.length_append]
    by_cases hselected : row.2 = true
    · rw [if_pos hselected, hprob]
      cases prob row.1 <;> rfl
    · rw [if_neg hselected]

lemma sum_brierTerms_replaceSelected (hprob : ∀ row, prob row.mirror = (prob row).map (1 - ·))
    (rows : List (ClosedTrade × Bool)) :
    (brierTerms prob (replaceSelected rows)).sum =
      (brierTerms prob (rows.map (·.1))).sum + brierShift prob (selected rows) := by
  induction rows with
  | nil => exact (add_zero _).symm
  | cons row rows ih =>
    rw [replaceSelected_cons, List.map_cons, brierTerms_cons, brierTerms_cons, List.sum_append, ih,
      List.sum_append, selected_cons]
    by_cases hselected : row.2 = true
    · rw [if_pos hselected, if_pos hselected, hprob, brierShift_cons]
      cases prob row.1 with
      | none => simp
      | some p =>
        simp only [Option.map_some, Option.toList_some, List.sum_singleton, Option.elim_some,
          ClosedTrade.outcome_mirror]
        ring
    · rw [if_neg hselected, if_neg hselected, add_assoc]

/-- A Brier score is the same when the terms have the same sum. -/
lemma average_replaceSelected_iff (hprob : ∀ row, prob row.mirror = (prob row).map (1 - ·))
    (rows : List (ClosedTrade × Bool)) :
    average (brierTerms prob (replaceSelected rows)) = average (brierTerms prob (rows.map (·.1))) ↔
      brierShift prob (selected rows) = 0 := by
  have hlength := length_brierTerms_replaceSelected hprob rows
  have hsum := sum_brierTerms_replaceSelected hprob rows
  by_cases hnil : brierTerms prob (rows.map (·.1)) = []
  · rw [hnil, List.length_nil, List.length_eq_zero_iff] at hlength
    rw [hnil, hlength, List.sum_nil, zero_add] at hsum
    simp [hnil, hlength, hsum.symm]
  · have hne : ((brierTerms prob (rows.map (·.1))).length : ℚ) ≠ 0 := by simpa using hnil
    have hnil' : brierTerms prob (replaceSelected rows) ≠ [] := by
      rw [← List.length_pos_iff, hlength, List.length_pos_iff]
      exact hnil
    rw [average, average, if_neg hnil, if_neg hnil', hlength, Option.some_inj, div_left_inj' hne, hsum,
      add_eq_left]

lemma sum_occurrences_replaceSelected (rows : List (ClosedTrade × Bool)) :
    ((replaceSelected rows).map (·.occurrences name)).sum =
      ((rows.map (·.1)).map (·.occurrences name)).sum := by
  rw [replaceSelected, List.map_map, List.map_map]
  congr 1
  refine List.map_congr_left fun row _ => ?_
  by_cases hselected : row.2 = true <;> simp [hselected]

lemma sum_rightCount_replaceSelected {rows : List (ClosedTrade × Bool)}
    (h : ∀ row ∈ rows, row.2 = true → ∀ signal ∈ row.1.signalBreakdown, signal.2 ≠ 0) :
    ((replaceSelected rows).map (·.rightCount name)).sum + ((selected rows).map (·.rightCount name)).sum =
      ((rows.map (·.1)).map (·.rightCount name)).sum + ((selected rows).map (·.wrongCount name)).sum := by
  induction rows with
  | nil => rfl
  | cons row rows ih =>
    have hrows := ih fun row hrow => h row (List.mem_cons_of_mem _ hrow)
    rw [replaceSelected_cons, selected_cons]
    by_cases hselected : row.2 = true
    · have hright : row.1.mirror.rightCount name = row.1.wrongCount name :=
        ClosedTrade.rightCount_mirror (h row List.mem_cons_self hselected)
      simp only [hselected, if_true, List.map_cons, List.sum_cons, hright]
      omega
    · simp only [hselected, if_false, List.map_cons, List.sum_cons, Bool.false_eq_true]
      omega

lemma sum_rightCount_le (rows : List ClosedTrade) :
    (rows.map (·.rightCount name)).sum ≤ (rows.map (·.occurrences name)).sum := by
  refine List.sum_le_sum fun row _ => ?_
  exact Nat.le.intro row.rightCount_add_wrongCount

end Replace

/-- Replacing some NO trades by the equal YES trades of the mirrored market leaves the scores as they are
exactly when, over the trades that are replaced, the shifts of the Brier terms cancel out and each signal
is right as often as it is wrong. -/
theorem scores_mirror_iff {rows : List (ClosedTrade × Bool)}
    (h : ∀ row ∈ rows, row.2 = true → row.1.direction = .no ∧
      ∀ signal ∈ row.1.signalBreakdown, signal.2 ≠ 0) :
    (brierScore (replaceSelected rows) = brierScore (rows.map (·.1)) ∧
      rawBrierScore (replaceSelected rows) = rawBrierScore (rows.map (·.1)) ∧
      perSignalAccuracy (replaceSelected rows) = perSignalAccuracy (rows.map (·.1))) ↔
      brierShift (·.estimatedProb) (selected rows) = 0 ∧ brierShift (·.rawProb) (selected rows) = 0 ∧
        ∀ name, ((selected rows).map (·.rightCount name)).sum =
          ((selected rows).map (·.wrongCount name)).sum := by
  rw [brierScore, brierScore, average_replaceSelected_iff ClosedTrade.estimatedProb_mirror, rawBrierScore,
    rawBrierScore, average_replaceSelected_iff ClosedTrade.rawProb_mirror, funext_iff]
  refine and_congr_right' (and_congr_right' (forall_congr' fun name => ?_))
  rw [perSignalAccuracy_eq_iff (sum_occurrences_replaceSelected rows) (sum_rightCount_le _)
    (sum_rightCount_le _)]
  have hsum : ((replaceSelected rows).map (·.rightCount name)).sum +
      ((selected rows).map (·.rightCount name)).sum =
        ((rows.map (·.1)).map (·.rightCount name)).sum + ((selected rows).map (·.wrongCount name)).sum :=
    sum_rightCount_replaceSelected fun row hrow hselected => (h row hrow hselected).2
  omega

/-- A NO trade that won 4, with one signal. -/
def wonNo (estimatedProb signal : ℚ) : ClosedTrade where
  direction := .no
  pnl := some 4
  estimatedProb
  signalBreakdown := [("order_book", signal)]

/-- The shifts of these two trades cancel out. -/
def twoWinners : List (ClosedTrade × Bool) :=
  [(wonNo (3 / 10) (-1 / 10), true), (wonNo (7 / 10) (1 / 10), true)]

theorem scores_mirror_iff_twoWinners :
    brierScore (replaceSelected twoWinners) = brierScore (twoWinners.map (·.1)) := by
  have hsignals : ∀ name, ((selected twoWinners).map (·.rightCount name)).sum =
      ((selected twoWinners).map (·.wrongCount name)).sum := by
    intro name
    by_cases hname : "order_book" = name
    · subst hname
      decide +kernel
    · simp [twoWinners, wonNo, selected, ClosedTrade.rightCount, ClosedTrade.wrongCount, hname]
  exact ((@scores_mirror_iff twoWinners (by decide +kernel)).mpr
    ⟨by decide +kernel, by decide +kernel, hsignals⟩).1

/-- A NO trade that won, as its signal and the probability 0.3 of YES said, scores as if it had been wrong;
its mirror scores as right. -/
theorem scores_mirror_differ :
    let row := wonNo (3 / 10) (-1 / 10)
    brierScore [row] = some (49 / 100) ∧ brierScore [row.mirror] = some (9 / 100) ∧
      rawBrierScore [row] = some (49 / 100) ∧ rawBrierScore [row.mirror] = some (9 / 100) ∧
      perSignalAccuracy [row] "order_book" = some (0, 1) ∧
      perSignalAccuracy [row.mirror] "order_book" = some (1, 1) := by
  decide +kernel

end PolyCortex.Scoring
