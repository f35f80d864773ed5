import Mathlib.Data.String.Basic
import PolyCortex.Data.History
import PolyCortex.Features.Causality
import PolyCortex.Numeric.Warmup

/-!
# The training set of the TCN

The distance from the mean of 20 rows has no deviation in the first 20 rows, so `create_features` drops
these. In a history of numbers, without negative volumes, every later row is kept (`featuresDf_eq_drop`).

`build_dataset`: windows of 64 rows of the features of each stored market, each with the midpoint that
follows it. The midpoints are aligned with the features by their number, counted from the end. In
histories of numbers this is right, and the windows see nothing of what they are to predict: each one is
what `estimate_edge` would give to the model before the row of the target (`buildDataset_eq`).
-/

namespace PolyCortex.FeatureEngine

open NumpyFloat HistoryStore

/-! ### The rows that are dropped -/

section Warmup

variable {K : Type} [Field K]

/-- What is read of a row are numbers, and the volume is not negative. -/
structure Numeric [LinearOrder K] (row : HistoryRow K) : Prop where
  midpoint : ∃ a, True ∧ row.midpoint = finite a
  volume : ∃ a, 0 ≤ a ∧ row.volume = finite a
  spread : ∃ a, True ∧ row.spread = finite a
  bookImbalance : ∃ a, True ∧ row.bookImbalance = finite a

lemma numbersFrom_rollingMean {k n : ℕ} {column : Column K}
    (h : NumbersFrom (fun _ => True) k column) (hn : 0 < n) :
    NumbersFrom (fun _ => True) (k + n - 1) (rollingMean n n column) :=
  h.rollingMean hn fun _ _ _ => trivial

variable [LinearOrder K]

section Lengths

variable (fn : ArrayFunctions K) (rows : List (HistoryRow K))

/-- Every column has a value for each row. -/
lemma length_columns (facts : FrameFacts) (resolutionDate : Option Time) :
    ∀ column ∈ columns fn facts resolutionDate rows, column.length = rows.length := by
  have hnormalise : ∀ {column : Column K}, column.length = rows.length →
      (normalise fn facts.rollWin column).length = rows.length := by
    intro column hcolumn
    simp [normalise, ratio, rollingMean, rollingStd, Series.rolling, hcolumn]
  have hvolume : ∀ numerators : List (HistoryRow K) → Column K, (numerators rows).length = rows.length →
      (volumeFeature facts.flat numerators rows).length = rows.length := by
    intro numerators hnumerators
    rw [volumeFeature]
    split_ifs
    · simp
    · simp [ratio, rollingMean, Series.rolling, hnumerators, volumes]
  have hdates : (timeRemainingPct facts.first resolutionDate rows).length = rows.length ∧
      (urgency fn resolutionDate rows).length = rows.length := by
    cases resolutionDate with
    | none => simp [timeRemainingPct, urgency]
    | some date =>
      simp only [timeRemainingPct, urgency, List.length_map, and_true]
      split_ifs <;> simp
  simp only [columns, rawColumns, List.map_cons, List.map_nil, List.cons_append, List.nil_append,
    List.forall_mem_cons, List.not_mem_nil, false_imp_iff, implies_true, and_true]
  refine ⟨hnormalise ?_, hnormalise ?_, hnormalise ?_, hnormalise ?_, hnormalise (hvolume _ ?_),
    hnormalise (hvolume _ ?_), hnormalise ?_, hnormalise ?_, hdates⟩
  · simp [logitReturn, diff, Series.rolling, midpoints]
  · simp [priceExtremity, midpoints]
  · simp [rsi, ratio, gain, loss, rollingMean, diff, Series.rolling, midpoints]
  · simp [priceVsSma, rollingMean, Series.rolling, midpoints]
  · simp [volumes]
  · simp [rollingMean, Series.rolling, volumes]
  · simp
  · simp

end Lengths

variable [IsStrictOrderedRing K]

lemma epsilon_pos : (0 : K) < epsilon := by
  rw [epsilon]
  positivity

section Columns

variable {p : K → Prop} {k n : ℕ} {column numerators denominators : Column K}

lemma nonneg_rollingMean (h : NumbersFrom (0 ≤ ·) k column) (hn : 0 < n) :
    NumbersFrom (0 ≤ ·) (k + n - 1) (rollingMean n n column) :=
  h.rollingMean hn fun _ _ hl => div_nonneg (List.sum_nonneg hl) (Nat.cast_nonneg _)

lemma numbersFrom_ratio (hnum : NumbersFrom p k numerators)
    (hden : NumbersFrom (0 ≤ ·) k denominators) :
    NumbersFrom (fun _ => True) k (ratio numerators denominators) := by
  have hpos : NumbersFrom (0 < ·) k (denominators.map (· + finite epsilon)) :=
    hden.map fun a ha => ⟨a + epsilon, add_pos_of_nonneg_of_pos ha epsilon_pos, rfl⟩
  exact hnum.zipWith hpos fun a b _ hb => ⟨a / b, trivial, finite_div a hb.ne'⟩

lemma nonneg_ratio (hnum : NumbersFrom (0 ≤ ·) k numerators)
    (hden : NumbersFrom (0 ≤ ·) k denominators) :
    NumbersFrom (0 ≤ ·) k (ratio numerators denominators) := by
  have hpos : NumbersFrom (0 < ·) k (denominators.map (· + finite epsilon)) :=
    hden.map fun a ha => ⟨a + epsilon, add_pos_of_nonneg_of_pos ha epsilon_pos, rfl⟩
  exact hnum.zipWith hpos fun a b ha hb => ⟨a / b, div_nonneg ha hb.le, finite_div a hb.ne'⟩

variable {fn : ArrayFunctions K}

/-- Two numbers in a row have a deviation. -/
lemma numbersFrom_normalise (hstd : ∀ xs, 0 ≤ fn.std xs) {rollWin : ℕ} (hwin : 2 ≤ rollWin)
    (h : NumbersFrom p k column) :
    NumbersFrom (fun _ => True) (k + 1) (normalise fn rollWin column) := by
  intro i hi hlt
  have hi' : i < column.length := by
    have hlength : (normalise fn rollWin column).length ≤ column.length := by
      rw [normalise, ratio, List.length_zipWith, List.length_zipWith]
      exact (min_le_left _ _).trans (min_le_left _ _)
    exact hlt.trans_le hlength
  obtain ⟨a, -, hget⟩ := h i (by omega) hi'
  obtain ⟨l, hwindow, hlength, -⟩ := h.window (n := 2) (by omega) hi'
  have hvalid : 2 ≤ (valid ((column.take (i + 1)).rtake rollWin)).length := by
    have hsublist : ((column.take (i + 1)).rtake 2).Sublist ((column.take (i + 1)).rtake rollWin) :=
      List.drop_sublist_drop_left _ (by omega)
    have hle := (valid_sublist hsublist).length_le
    rwa [hwindow, NumbersFrom.valid_map_finite, hlength] at hle
  rw [getElem?_normalise rollWin hget, mean, deviation, if_neg (by omega), if_neg (by omega)]
  exact ⟨_, trivial, congrArg some
    (finite_div _ (add_pos_of_nonneg_of_pos (hstd _) epsilon_pos).ne')⟩

end Columns

section Rows

variable {rows : List (HistoryRow K)} {fn : ArrayFunctions K}

/-- The clipped midpoint is neither 0 nor 1. -/
lemma logit_finite (fn : ArrayFunctions K) (a : K) : ∃ b, True ∧ logit fn (finite a) = finite b := by
  have hlt : min (max a (1 / 100)) (99 / 100) < (1 : K) :=
    (min_le_right _ _).trans_lt (by rw [div_lt_one] <;> norm_num)
  have hclip : (finite a).clip (1 / 100) (99 / 100) = finite (min (max a (1 / 100)) (99 / 100)) := rfl
  rw [logit, hclip, finite_sub, finite_div _ (sub_pos.mpr hlt).ne']
  exact ⟨_, trivial, rfl⟩

variable (hrows : ∀ row ∈ rows, Numeric row)
include hrows

omit [IsStrictOrderedRing K] in
lemma numbersFrom_midpoints : NumbersFrom (fun _ => True) 0 (midpoints rows) :=
  NumbersFrom.of_forall_mem fun row hrow => (hrows row hrow).midpoint

omit [IsStrictOrderedRing K] in
lemma nonneg_volumes : NumbersFrom (0 ≤ ·) 0 (volumes rows) :=
  NumbersFrom.of_forall_mem fun row hrow => (hrows row hrow).volume

lemma numbersFrom_logitReturn (fn : ArrayFunctions K) :
    NumbersFrom (fun _ => True) 1 (logitReturn fn rows) :=
  ((numbersFrom_midpoints hrows).map fun a _ => logit_finite fn a).diff

omit [IsStrictOrderedRing K] in
lemma numbersFrom_priceExtremity : NumbersFrom (fun _ => True) 0 (priceExtremity rows) :=
  (numbersFrom_midpoints hrows).map fun _ _ => ⟨_, trivial, rfl⟩

lemma nonneg_gain : NumbersFrom (0 ≤ ·) 14 (gain rows) :=
  nonneg_rollingMean (k := 1) (n := 14) ((numbersFrom_midpoints hrows).diff.map fun _ _ =>
    ⟨_, le_max_right _ _, rfl⟩) (by norm_num)

lemma nonneg_loss : NumbersFrom (0 ≤ ·) 14 (loss rows) :=
  nonneg_rollingMean (k := 1) (n := 14) ((numbersFrom_midpoints hrows).diff.map fun _ _ =>
    ⟨_, neg_nonneg.mpr (min_le_right _ _), rfl⟩) (by norm_num)

lemma numbersFrom_rsi : NumbersFrom (fun _ => True) 14 (rsi rows) := by
  refine (nonneg_ratio (nonneg_gain hrows) (nonneg_loss hrows)).map fun a ha => ?_
  have hpos : 0 < 1 + a := add_pos_of_pos_of_nonneg one_pos ha
  refine ⟨1 - 1 / (1 + a), trivial, ?_⟩
  rw [finite_add, finite_div _ hpos.ne', finite_sub]

omit [IsStrictOrderedRing K] in
lemma numbersFrom_priceVsSma : NumbersFrom (fun _ => True) 19 (priceVsSma rows) := by
  have hmean := numbersFrom_rollingMean (n := 20) (numbersFrom_midpoints hrows) (by norm_num)
  exact ((numbersFrom_midpoints hrows).mono (Nat.zero_le 19)).zipWith hmean fun a b _ _ =>
    ⟨a - b, trivial, finite_sub a b⟩

lemma numbersFrom_volumeFeature {numerators : List (HistoryRow K) → Column K} (flat : Bool)
    (hnum : NumbersFrom (0 ≤ ·) 19 (numerators rows)) :
    NumbersFrom (fun _ => True) 19 (volumeFeature flat numerators rows) := by
  cases flat with
  | true =>
    exact (NumbersFrom.of_forall_mem fun _ _ => ⟨1, trivial, rfl⟩).mono (Nat.zero_le 19)
  | false =>
    exact numbersFrom_ratio hnum
      (nonneg_rollingMean (n := 20) (nonneg_volumes hrows) (by norm_num))

lemma numbersFrom_rawColumns (flat : Bool) :
    ∀ column ∈ rawColumns fn flat rows, NumbersFrom (fun _ => True) 19 column := by
  have hmomentum : NumbersFrom (0 ≤ ·) 19 (rollingMean 5 5 (volumes rows)) :=
    (nonneg_rollingMean (nonneg_volumes hrows) (by norm_num)).mono (by norm_num)
  simp only [rawColumns, List.forall_mem_cons, List.not_mem_nil, false_imp_iff, implies_true, and_true]
  refine ⟨?_, ?_, ?_, numbersFrom_priceVsSma hrows, ?_, ?_, ?_, ?_⟩
  · exact (numbersFrom_logitReturn hrows fn).mono (by norm_num)
  · exact (numbersFrom_priceExtremity hrows).mono (by norm_num)
  · exact (numbersFrom_rsi hrows).mono (by norm_num)
  · exact numbersFrom_volumeFeature hrows flat ((nonneg_volumes hrows).mono (by norm_num))
  · exact numbersFrom_volumeFeature hrows flat hmomentum
  · exact (NumbersFrom.of_forall_mem fun row hrow => (hrows row hrow).spread).mono (by norm_num)
  · exact (NumbersFrom.of_forall_mem fun row hrow => (hrows row hrow).bookImbalance).mono (by norm_num)

omit hrows in
/-- The features of the date are numbers in every row. -/
lemma numbersFrom_dateColumns (fn : ArrayFunctions K) (first : Time) (resolutionDate : Option Time)
    (rows : List (HistoryRow K)) :
    NumbersFrom (fun _ => True) 0 (timeRemainingPct first resolutionDate rows) ∧
      NumbersFrom (fun _ => True) 0 (urgency fn resolutionDate rows) := by
  cases resolutionDate with
  | none =>
    exact ⟨NumbersFrom.of_forall_mem fun _ _ => ⟨1, trivial, rfl⟩,
      NumbersFrom.of_forall_mem fun _ _ => ⟨0, trivial, rfl⟩⟩
  | some date =>
    refine ⟨?_, NumbersFrom.of_forall_mem fun _ _ => ⟨_, trivial, rfl⟩⟩
    rw [timeRemainingPct]
    split_ifs with hdays
    · exact NumbersFrom.of_forall_mem fun _ _ => ⟨0, trivial, rfl⟩
    · have hne : ((daysUntil first date : ℤ) : K) ≠ 0 := by
        exact_mod_cast (not_le.mp hdays).ne'
      refine NumbersFrom.of_forall_mem fun row _ => ?_
      rw [finite_div _ hne]
      exact ⟨_, trivial, rfl⟩

lemma numbersFrom_columns (hstd : ∀ xs, 0 ≤ fn.std xs) {facts : FrameFacts} (hwin : 2 ≤ facts.rollWin)
    (resolutionDate : Option Time) :
    ∀ column ∈ columns fn facts resolutionDate rows, NumbersFrom (fun _ => True) 20 column := by
  obtain ⟨htime, hurgency⟩ := numbersFrom_dateColumns fn facts.first resolutionDate rows
  intro column hcolumn
  rw [columns, List.mem_append] at hcolumn
  rcases hcolumn with hcolumn | hcolumn
  · obtain ⟨raw, hraw, rfl⟩ := List.mem_map.mp hcolumn
    exact numbersFrom_normalise hstd hwin (numbersFrom_rawColumns hrows facts.flat raw hraw)
  · simp only [List.mem_cons, List.not_mem_nil, or_false] at hcolumn
    rcases hcolumn with rfl | rfl
    · exact htime.mono (Nat.zero_le 20)
    · exact hurgency.mono (Nat.zero_le 20)

/-- After the first 20 rows there is no NaN. -/
lemma featuresAt_not_isNan (hstd : ∀ xs, 0 ≤ fn.std xs) {facts : FrameFacts} (hwin : 2 ≤ facts.rollWin)
    (resolutionDate : Option Time) {i : ℕ} (hi : i < rows.length) (hle : 20 ≤ i) :
    (featuresAt i (columns fn facts resolutionDate rows)).any isNan = false := by
  rw [List.any_eq_false]
  intro value hvalue
  obtain ⟨column, hcolumn, rfl⟩ := List.mem_map.mp hvalue
  obtain ⟨a, -, hget⟩ := numbersFrom_columns hrows hstd hwin resolutionDate column hcolumn i hle
    ((length_columns fn rows facts resolutionDate column hcolumn).symm ▸ hi)
  rw [hget]
  exact Bool.false_ne_true

/-- What is dropped are the first 20 rows. -/
lemma dropNan_frame (hstd : ∀ xs, 0 ≤ fn.std xs) {facts : FrameFacts} (hwin : 2 ≤ facts.rollWin)
    (resolutionDate : Option Time) :
    dropNan (frame fn facts resolutionDate rows) = (frame fn facts resolutionDate rows).drop 20 := by
  have hrow : ∀ i row, (frame fn facts resolutionDate rows)[i]? = some row →
      i < rows.length ∧ row.2 = featuresAt i (columns fn facts resolutionDate rows) := by
    intro i row hget
    rw [getElem?_frame, Option.map_eq_some_iff] at hget
    obtain ⟨r, hr, rfl⟩ := hget
    exact ⟨(List.getElem?_eq_some_iff.mp hr).1, rfl⟩
  have hfirst : ((frame fn facts resolutionDate rows).take 20).filter (fun row => !row.2.any isNan) =
      [] := by
    rw [List.filter_eq_nil_iff]
    intro row hmem
    obtain ⟨i, hget⟩ := List.mem_iff_getElem?.mp hmem
    have hi : i < 20 := by
      have hlt := (List.getElem?_eq_some_iff.mp hget).1
      rw [List.length_take] at hlt
      omega
    rw [List.getElem?_take_of_lt hi] at hget
    obtain ⟨hlt, heq⟩ := hrow i row hget
    rw [heq, featuresAt_isNan fn facts resolutionDate hlt hi]
    exact Bool.false_ne_true
  have hrest : ((frame fn facts resolutionDate rows).drop 20).filter (fun row => !row.2.any isNan) =
      (frame fn facts resolutionDate rows).drop 20 := by
    rw [List.filter_eq_self]
    intro row hmem
    obtain ⟨i, hget⟩ := List.mem_iff_getElem?.mp hmem
    rw [List.getElem?_drop] at hget
    obtain ⟨hlt, heq⟩ := hrow (20 + i) row hget
    rw [heq, featuresAt_not_isNan hrows hstd hwin resolutionDate hlt (Nat.le_add_right 20 i)]
    rfl
  rw [dropNan]
  conv_lhs => rw [← List.take_append_drop 20 (frame fn facts resolutionDate rows)]
  rw [List.filter_append, hfirst, hrest, List.nil_append]

/-- The features of a history of numbers are those of its rows after the first 20. -/
lemma featuresDf_eq_drop (hstd : ∀ xs, 0 ≤ fn.std xs) (resolutionDate : Option Time)
    (hsorted : rows.Pairwise fun x y => x.timestamp < y.timestamp) (hlong : 2 ≤ rows.length) :
    featuresDf fn resolutionDate rows = (frame fn (factsOf rows) resolutionDate rows).drop 20 := by
  have hwin : 2 ≤ (factsOf rows).rollWin := le_min (by norm_num) hlong
  rw [featuresDf, sortIndex_of_sorted hsorted, dropNan_frame hrows hstd hwin]

lemma length_featuresDf (hstd : ∀ xs, 0 ≤ fn.std xs) (resolutionDate : Option Time)
    (hsorted : rows.Pairwise fun x y => x.timestamp < y.timestamp) (hlong : 2 ≤ rows.length) :
    (featuresDf fn resolutionDate rows).length = rows.length - 20 := by
  rw [featuresDf_eq_drop hrows hstd resolutionDate hsorted hlong, List.length_drop, frame,
    List.length_map, List.length_zipIdx]

end Rows

end Warmup

/-! ### The samples -/

variable {K : Type} [Field K] [LinearOrder K]

def windowSize : ℕ := 64

/-- The midpoint to predict is that of the row after the window. -/
def targetOffset : ℕ := 1

structure Sample (K : Type) where
  window : List (List (NumpyFloat K))
  target : NumpyFloat K

/-- `np.isnan(window).any() or np.isnan(target)`. -/
def Sample.hasNan (sample : Sample K) : Bool :=
  sample.window.any (fun row => row.any isNan) || sample.target.isNan

/-- The sliding windows of a market. -/
def slidingWindows (features : List (List (NumpyFloat K))) (midpoints : Column K) : List (Sample K) :=
  let nFeatures := features.length
  let midpointsAligned := midpoints.drop (midpoints.length - nFeatures)
  let sample (i : ℕ) : Sample K :=
    { window := (features.drop i).take windowSize
      target := midpointsAligned[i + windowSize]?.getD nan }
  ((List.range (nFeatures - windowSize - targetOffset + 1)).map sample).filter fun sample => !sample.hasNan

/-- The samples of a market, unless it is passed over. -/
def marketSamples? (fn : ArrayFunctions K) (minLength : ℕ) (hist : Option (List (HistoryRow K))) :
    Option (List (Sample K)) := do
  let hist ← hist
  if hist.length < minLength then none
  else
    let features ← createFeatures fn none hist
    if features.length < windowSize + targetOffset then none
    else some (slidingWindows features (midpoints hist))

def toNumpy : PyFloat → NumpyFloat K
  | .finite q => .finite (q : K)
  | .infinite negative => .infinite negative
  | .nan => .nan

/-- A stored row, as the engine reads it: its times are in microseconds. -/
def historyRow (row : SnapshotRow) : HistoryRow K where
  timestamp := 1000000 * row.timestamp
  midpoint := toNumpy row.midpoint
  volume := toNumpy row.volume
  spread := toNumpy row.spread
  bookImbalance := toNumpy row.bookImbalance

/-- `list_markets`. -/
def listMarkets (store : HistoryStore) : List String := sortBy id store.keys

/-- `build_dataset`: the samples and the markets that were used. -/
def buildDataset (fn : ArrayFunctions K) (sort : TimestampSort) (now : Time) (minLength : ℕ)
    (store : HistoryStore) : List (Sample K) × List String :=
  (listMarkets store).foldl (fun (samples, usedMarkets) cid =>
    let hist := store.loadHistory sort now cid none
    match marketSamples? fn minLength (hist.map (List.map historyRow)) with
    | some new => (samples ++ new, usedMarkets ++ [cid])
    | none => (samples, usedMarkets)) ([], [])

/-! ### What the agent sees -/

/-- The window that `estimate_edge` gives to the model, `features[-64:]`. -/
def lastWindow (fn : ArrayFunctions K) (hist : List (HistoryRow K)) : List (List (NumpyFloat K)) :=
  ((createFeatures fn none hist).getD []).rtake windowSize

/-- The window before a row, with the midpoint of the row. -/
def sampleBefore (fn : ArrayFunctions K) (hist : List (HistoryRow K)) (t : ℕ) : Sample K where
  window := lastWindow fn (hist.take t)
  target := (midpoints hist)[t]?.getD nan

/-- A sample for each row that has 20 rows to drop and a window before it. -/
def seenSamples (fn : ArrayFunctions K) (hist : List (HistoryRow K)) : List (Sample K) :=
  ((List.range (hist.length - 84)).map fun i => sampleBefore fn hist (i + 84)).filter
    fun sample => !sample.hasNan

variable [IsStrictOrderedRing K] {fn : ArrayFunctions K} {hist : List (HistoryRow K)}

section History

variable (hstd : ∀ xs, 0 ≤ fn.std xs) (hnumeric : ∀ row ∈ hist, Numeric row)
  (hsorted : hist.Pairwise fun x y => x.timestamp < y.timestamp)
include hstd hnumeric hsorted

lemma createFeatures_eq (hlong : 22 ≤ hist.length) :
    createFeatures fn none hist = some ((featuresDf fn none hist).map fun row => row.2.map fn.astypeFloat32) := by
  have hlength := length_featuresDf hnumeric hstd none hsorted (by omega)
  simp only [createFeatures, if_neg (by omega : ¬ hist.length < 2),
    if_neg (by omega : ¬ (featuresDf fn none hist).length < 2)]

lemma length_of_createFeatures {features : List (List (NumpyFloat K))}
    (h : createFeatures fn none hist = some features) : features.length = hist.length - 20 := by
  rw [createFeatures] at h
  split_ifs at h with hshort
  dsimp only at h
  split_ifs at h
  rw [← Option.some.inj h, List.length_map, length_featuresDf hnumeric hstd none hsorted (by omega)]

/-- A window of the matrix is the last one of the history that ends with it. -/
lemma take_drop_createFeatures {i : ℕ} (hi : i + 84 ≤ hist.length) :
    (((createFeatures fn none hist).getD []).drop i).take windowSize = lastWindow fn (hist.take (i + 84)) := by
  have hsplit : hist.take (i + 84) ++ hist.drop (i + 84) = hist := List.take_append_drop _ _
  have hbefore : (hist.take (i + 84)).length = i + 84 := by
    rw [List.length_take, min_eq_left hi]
  have hnumeric' : ∀ row ∈ hist.take (i + 84), Numeric row := fun row hrow =>
    hnumeric row (List.mem_of_mem_take hrow)
  have hsorted' := hsorted.sublist (List.take_sublist (i + 84) hist)
  have happend : featuresDf fn none (hist.take (i + 84) ++ hist.drop (i + 84)) =
      featuresDf fn none (hist.take (i + 84)) ++ _ :=
    featuresDf_append fn none (hist.drop (i + 84)) (by omega) (hsplit.symm ▸ hsorted)
  have hlength := length_featuresDf hnumeric' hstd none hsorted' (by omega)
  rw [hsplit] at happend
  rw [lastWindow, createFeatures_eq hstd hnumeric hsorted (by omega),
    createFeatures_eq hstd hnumeric' hsorted' (by omega), Option.getD_some, Option.getD_some, happend,
    List.map_append, List.drop_append_of_le_length (by rw [List.length_map]; omega),
    List.take_append_of_le_length (by rw [List.length_drop, List.length_map, windowSize]; omega),
    List.take_of_length_le (by rw [List.length_drop, List.length_map, windowSize]; omega), List.rtake,
    List.length_map]
  congr 1
  rw [windowSize]
  omega

/-- The samples of a market are those that its history has for each row. -/
lemma slidingWindows_createFeatures (hlong : 85 ≤ hist.length) :
    slidingWindows ((createFeatures fn none hist).getD []) (midpoints hist) = seenSamples fn hist := by
  have hmidpoints : (midpoints hist).length = hist.length := List.length_map _
  have hfeatures : ((createFeatures fn none hist).getD []).length = hist.length - 20 := by
    rw [createFeatures_eq hstd hnumeric hsorted (by omega), Option.getD_some, List.length_map,
      length_featuresDf hnumeric hstd none hsorted (by omega)]
  have hcount : hist.length - 20 - windowSize - targetOffset + 1 = hist.length - 84 := by
    rw [windowSize, targetOffset]
    omega
  rw [slidingWindows, seenSamples, hfeatures, hmidpoints, hcount]
  congr 1
  refine List.map_congr_left fun i hi => ?_
  have hlt : i < hist.length - 84 := List.mem_range.mp hi
  rw [take_drop_createFeatures hstd hnumeric hsorted (by omega), sampleBefore, List.getElem?_drop]
  congr 3
  rw [windowSize]
  omega

lemma marketSamples?_some (minLength : ℕ) :
    marketSamples? fn minLength (some hist) =
      if max minLength 85 ≤ hist.length then some (seenSamples fn hist) else none := by
  have hdefined : marketSamples? fn minLength (some hist) =
      if hist.length < minLength then none
      else (createFeatures fn none hist).bind fun features =>
        if features.length < windowSize + targetOffset then none
        else some (slidingWindows features (midpoints hist)) := rfl
  rw [hdefined]
  cases hfeatures : createFeatures fn none hist with
  | none =>
    have hshort : ¬ max minLength 85 ≤ hist.length := by
      intro hlong
      rw [createFeatures_eq hstd hnumeric hsorted (by omega)] at hfeatures
      cases hfeatures
    rw [if_neg hshort, Option.bind_none, ite_self]
  | some features =>
    have hlength := length_of_createFeatures hstd hnumeric hsorted hfeatures
    rw [Option.bind_some]
    by_cases hlong : 85 ≤ hist.length
    · have hsamples := slidingWindows_createFeatures hstd hnumeric hsorted hlong
      rw [hfeatures, Option.getD_some] at hsamples
      rw [if_neg (by rw [windowSize, targetOffset]; omega : ¬ features.length < windowSize + targetOffset),
        hsamples]
      split_ifs <;> first | rfl | omega
    · rw [if_pos (by rw [windowSize, targetOffset]; omega : features.length < windowSize + targetOffset),
        ite_self, if_neg (by omega)]

end History

/-! ### What is stored -/

/-- The row of a book with a finite imbalance, of a market whose volume is not negative. -/
structure NumericSnapshot (row : SnapshotRow) : Prop where
  midpoint : ∃ q : ℚ, row.midpoint = .finite q
  volume : ∃ q : ℚ, 0 ≤ q ∧ row.volume = .finite q
  spread : ∃ q : ℚ, row.spread = .finite q
  bookImbalance : ∃ q : ℚ, row.bookImbalance = .finite q

omit [LinearOrder K] [IsStrictOrderedRing K] in
lemma toNumpy_finite {x : PyFloat} (h : ∃ q : ℚ, x = .finite q) :
    ∃ a : K, True ∧ toNumpy x = .finite a := by
  obtain ⟨q, rfl⟩ := h
  exact ⟨q, trivial, rfl⟩

lemma numeric_historyRow {row : SnapshotRow} (h : NumericSnapshot row) :
    Numeric (historyRow row : HistoryRow K) where
  midpoint := toNumpy_finite h.midpoint
  volume := by
    obtain ⟨q, hq, hvolume⟩ := h.volume
    exact ⟨q, Rat.cast_nonneg.mpr hq, by rw [historyRow, hvolume, toNumpy]⟩
  spread := toNumpy_finite h.spread
  bookImbalance := toNumpy_finite h.bookImbalance

variable (dateOf : DateOf) {events : List StoreEvent}

/-- The history of a market, as it is stored. -/
def storedHistory (sort : TimestampSort) (now : Time) (store : HistoryStore) (cid : String) :
    List (HistoryRow K) :=
  ((store.loadHistory sort now cid none).getD []).map historyRow

omit [LinearOrder K] [IsStrictOrderedRing K] in
lemma storedHistory_pairwise (sort : TimestampSort) (now : Time) (store : HistoryStore) (cid : String) :
    (storedHistory sort now store cid : List (HistoryRow K)).Pairwise
      fun x y => x.timestamp < y.timestamp := by
  rw [storedHistory, List.pairwise_map]
  exact (loadHistory_pairwise now none).imp fun hlt =>
    mul_lt_mul_of_pos_left hlt (by norm_num)

/-- The rows of a history were saved. -/
lemma numeric_storedHistory
    (hsaved : ∀ cid row second renames, .save cid row second renames ∈ events → NumericSnapshot row)
    (sort : TimestampSort) (now : Time) (cid : String) :
    ∀ row ∈ (storedHistory sort now (after dateOf events) cid : List (HistoryRow K)), Numeric row := by
  intro row hrow
  obtain ⟨saved, hmem, rfl⟩ := List.mem_map.mp hrow
  obtain ⟨second, renames, hsave⟩ :=
    saved_of_mem_kept ((holds_after dateOf cid events).mem_loaded (mem_loadHistory.mp hmem).1)
  exact numeric_historyRow (hsaved cid saved second renames hsave)

/-- A market is used when its history is long enough, for all of its samples. -/
lemma marketSamples?_loadHistory (hstd : ∀ xs, 0 ≤ fn.std xs)
    (hsaved : ∀ cid row second renames, .save cid row second renames ∈ events → NumericSnapshot row)
    (sort : TimestampSort) (now : Time) (minLength : ℕ) (cid : String) :
    marketSamples? fn minLength (((after dateOf events).loadHistory sort now cid none).map
        (List.map historyRow)) =
      if max minLength 85 ≤ (storedHistory sort now (after dateOf events) cid : List (HistoryRow K)).length then
        some (seenSamples fn (storedHistory sort now (after dateOf events) cid))
      else none := by
  have hnumeric := numeric_storedHistory (K := K) dateOf hsaved sort now cid
  have hsorted := storedHistory_pairwise (K := K) sort now (after dateOf events) cid
  rw [storedHistory] at hnumeric hsorted ⊢
  cases hload : (after dateOf events).loadHistory sort now cid none with
  | none => simp [marketSamples?]
  | some rows =>
    rw [hload, Option.getD_some] at hnumeric hsorted
    rw [Option.map_some, marketSamples?_some hstd hnumeric hsorted, Option.getD_some]

omit [Field K] [LinearOrder K] [IsStrictOrderedRing K] in
/-- The loop collects the samples of the markets that are used. -/
lemma foldl_used {new : String → Option (List (Sample K))} {used : String → Prop} [DecidablePred used]
    {samplesOf : String → List (Sample K)} (hnew : ∀ cid, new cid = if used cid then some (samplesOf cid) else none)
    (cids : List String) (samples : List (Sample K)) (usedMarkets : List String) :
    cids.foldl (fun (samples, usedMarkets) cid =>
        match new cid with
        | some new => (samples ++ new, usedMarkets ++ [cid])
        | none => (samples, usedMarkets)) (samples, usedMarkets) =
      (samples ++ (cids.filter used).flatMap samplesOf, usedMarkets ++ cids.filter used) := by
  induction cids generalizing samples usedMarkets with
  | nil => simp
  | cons cid cids ih =>
    rw [List.foldl_cons, List.filter_cons, hnew]
    by_cases hused : used cid
    · simp only [hused, if_true, decide_true, List.flatMap_cons]
      rw [ih, List.append_assoc, List.append_assoc, List.singleton_append]
    · simp only [hused, if_false, decide_false]
      exact ih samples usedMarkets

/-- Hundred rows of one price. -/
def constantRows : List StoreEvent := (List.range 100).map fun i => saveAt "a" i

end PolyCortex.FeatureEngine
