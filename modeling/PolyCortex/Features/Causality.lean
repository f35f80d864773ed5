import Mathlib.Analysis.SpecialFunctions.Log.Basic
import Mathlib.Data.List.Sort
import PolyCortex.Features.Engine

/-!
# Features are causal

The columns are causal once the facts of the whole frame are fixed. Of these, only the one that all
volumes are zero may change when rows are added; the columns it decides then differ in the first 20 rows
alone, and these are dropped, since the distance from the mean of 20 rows has no deviation before
(`createFeatures_causal`).
-/

namespace PolyCortex.FeatureEngine

open NumpyFloat Series

variable {K : Type}

/-! ### Columns -/

lemma causal_midpoints : Causal (midpoints (K := K)) := causal_map _

lemma causal_volumes : Causal (volumes (K := K)) := causal_map _

variable [Field K]

lemma causal_delta : Causal fun rows : List (HistoryRow K) => diff (midpoints rows) :=
  causal_diff.comp causal_midpoints

lemma causal_priceVsSma : Causal (priceVsSma (K := K)) :=
  causal_midpoints.zipWith ((causal_rollingMean 20 20).comp causal_midpoints) _

lemma causal_urgency (fn : ArrayFunctions K) (resolutionDate : Option Time) :
    Causal (urgency fn resolutionDate) := by
  cases resolutionDate <;> exact causal_map _

lemma epsilon_ne_zero [CharZero K] : (epsilon : K) ≠ 0 := by
  have h : (10 : K) ≠ 0 := by exact_mod_cast (by norm_num : (10 : ℕ) ≠ 0)
  exact one_div_ne_zero (pow_ne_zero 8 h)

variable [LinearOrder K]

section Columns

variable {α : Type} {fn : ArrayFunctions K} {f g : List α → Column K}

lemma causal_ratio (hf : Causal f) (hg : Causal g) : Causal fun rows => ratio (f rows) (g rows) :=
  hf.zipWith ((causal_map _).comp hg) _

lemma causal_normalise (rollWin : ℕ) (hf : Causal f) :
    Causal fun rows => normalise fn rollWin (f rows) :=
  causal_ratio (hf.zipWith ((causal_rollingMean rollWin 1).comp hf) _)
    ((causal_rollingStd fn.std rollWin 1).comp hf)

lemma causal_logitReturn : Causal (logitReturn fn) :=
  causal_diff.comp ((causal_map _).comp causal_midpoints)

lemma causal_priceExtremity : Causal (priceExtremity (K := K)) := (causal_map _).comp causal_midpoints

lemma causal_rsi : Causal (rsi (K := K)) :=
  (causal_map _).comp (causal_ratio ((causal_rollingMean 14 14).comp ((causal_map _).comp causal_delta))
    ((causal_rollingMean 14 14).comp ((causal_map _).comp causal_delta)))

lemma causal_volumeFeature (flat : Bool) {numerators : List (HistoryRow K) → Column K}
    (h : Causal numerators) : Causal (volumeFeature flat numerators) := by
  cases flat with
  | true => exact causal_map _
  | false => exact causal_ratio h ((causal_rollingMean 20 20).comp causal_volumes)

lemma causal_volumeRatio (flat : Bool) : Causal (volumeRatio (K := K) flat) :=
  causal_volumeFeature flat causal_volumes

lemma causal_volumeMomentum (flat : Bool) : Causal (volumeMomentum (K := K) flat) :=
  causal_volumeFeature flat ((causal_rollingMean 5 5).comp causal_volumes)

lemma causal_timeRemainingPct (first : Time) (resolutionDate : Option Time) :
    Causal (timeRemainingPct (K := K) first resolutionDate) := by
  cases resolutionDate with
  | none => exact causal_map _
  | some date =>
    intro rows n
    rw [timeRemainingPct, timeRemainingPct]
    split_ifs
    · exact causal_map _ rows n
    · exact causal_map _ rows n

/-- With the same facts, the columns of the first rows are the start of the columns. -/
lemma columns_take (facts : FrameFacts) (resolutionDate : Option Time) (rows : List (HistoryRow K))
    (n : ℕ) :
    columns fn facts resolutionDate (rows.take n) =
      (columns fn facts resolutionDate rows).map (List.take n) := by
  have hnormalised : ∀ {f : List (HistoryRow K) → Column K}, Causal f →
      normalise fn facts.rollWin (f (rows.take n)) = (normalise fn facts.rollWin (f rows)).take n :=
    fun hf => causal_normalise facts.rollWin hf rows n
  simp only [columns, rawColumns, List.map_cons, List.map_nil, List.cons_append, List.nil_append]
  rw [hnormalised causal_logitReturn, hnormalised causal_priceExtremity, hnormalised causal_rsi,
    hnormalised causal_priceVsSma, hnormalised (causal_volumeRatio facts.flat),
    hnormalised (causal_volumeMomentum facts.flat), hnormalised (causal_map (·.spread)),
    hnormalised (causal_map (·.bookImbalance)), causal_timeRemainingPct facts.first resolutionDate rows n,
    causal_urgency fn resolutionDate rows n]

lemma getElem?_frame (facts : FrameFacts) (resolutionDate : Option Time) (rows : List (HistoryRow K))
    (i : ℕ) :
    (frame fn facts resolutionDate rows)[i]? = rows[i]?.map fun row =>
      (row.timestamp, featuresAt i (columns fn facts resolutionDate rows)) := by
  rw [frame, List.getElem?_map, List.getElem?_zipIdx, Option.map_map]
  simp [Function.comp_def]

/-- With the same facts, the frame of the first rows is the start of the frame. -/
lemma frame_take (facts : FrameFacts) (resolutionDate : Option Time) (rows : List (HistoryRow K)) (n : ℕ) :
    frame fn facts resolutionDate (rows.take n) = (frame fn facts resolutionDate rows).take n := by
  refine List.ext_getElem? fun i => ?_
  rw [List.getElem?_take, getElem?_frame, getElem?_frame, List.getElem?_take]
  split_ifs with hi
  · rw [columns_take, featuresAt, List.map_map]
    simp only [Function.comp_def, List.getElem?_take_of_lt hi]
    rfl
  · rfl

end Columns

/-! ### Windows without change -/

section Windows

variable {fn : ArrayFunctions K} {column : Column K} {x : K} {i : ℕ}

lemma getElem?_ratio {numerators denominators : Column K} {a b : NumpyFloat K}
    (ha : numerators[i]? = some a) (hb : denominators[i]? = some b) :
    (ratio numerators denominators)[i]? = some (a / (b + finite epsilon)) :=
  List.getElem?_zipWith_eq_some.mpr ⟨a, _, ha, by simp [hb], rfl⟩

/-- A normalised value, from the window up to it. -/
lemma getElem?_normalise {a : NumpyFloat K} (rollWin : ℕ) (ha : column[i]? = some a) :
    (normalise fn rollWin column)[i]? =
      some ((a - mean 1 ((column.take (i + 1)).rtake rollWin)) /
        (deviation fn.std 1 ((column.take (i + 1)).rtake rollWin) + finite epsilon)) := by
  obtain ⟨hi, rfl⟩ := List.getElem?_eq_some_iff.mp ha
  exact getElem?_ratio
    (List.getElem?_zipWith_eq_some.mpr ⟨_, _, List.getElem?_eq_getElem hi, getElem?_rolling _ _ hi, rfl⟩)
    (getElem?_rolling _ _ hi)

/-- Where at most one value counts there is no normalised value. -/
lemma normalise_of_valid_le_one (rollWin : ℕ) (hi : i < column.length)
    (hvalid : (valid (column.take (i + 1))).length ≤ 1) :
    (normalise fn rollWin column)[i]? = some nan := by
  rw [getElem?_normalise rollWin (List.getElem?_eq_getElem hi)]
  have hwindow : (valid ((column.take (i + 1)).rtake rollWin)).length ≤ 1 :=
    (valid_sublist (List.drop_sublist _ _)).length_le.trans hvalid
  rw [deviation, if_pos (by omega), nan_add, div_nan]

/-- Where the last two values are equal to all that count before, the normalised value is zero. -/
lemma normalise_of_const [CharZero K] {rollWin : ℕ} (hwin : 2 ≤ rollWin)
    (hlast : column[i + 1]? = some (finite x)) (hbefore : column[i]? = some (finite x))
    (hconst : ∀ v ∈ valid (column.take (i + 2)), v = x) :
    (normalise fn rollWin column)[i + 1]? = some (finite 0) := by
  obtain ⟨win, rfl⟩ : ∃ win, rollWin = win + 2 := ⟨rollWin - 2, by omega⟩
  have htake : column.take (i + 2) = column.take i ++ [finite x, finite x] := by
    rw [List.take_add_one, hlast, List.take_add_one, hbefore]
    simp
  have hwindow : (column.take (i + 2)).rtake (win + 2) =
      (column.take i).rtake win ++ [finite x, finite x] := by
    rw [htake, List.append_cons, List.rtake_concat_succ, List.rtake_concat_succ, List.append_assoc]
    rfl
  have hvalid : valid ((column.take (i + 2)).rtake (win + 2)) =
      List.replicate ((valid ((column.take i).rtake win)).length + 2) x := by
    rw [List.eq_replicate_iff]
    constructor
    · rw [hwindow, valid_append, List.length_append]
      rfl
    · intro v hv
      exact hconst v ((valid_sublist (List.drop_sublist _ _)).subset hv)
  rw [getElem?_normalise _ hlast, mean_replicate hvalid (by omega) (by omega),
    deviation_replicate (fn.std_replicate _ x) hvalid (by omega), finite_sub, finite_add, sub_self, zero_add,
    finite_div _ epsilon_ne_zero, zero_div]

end Windows

/-! ### A frame without volume -/

section Flat

variable {fn : ArrayFunctions K} {rows : List (HistoryRow K)} {i : ℕ}

lemma volumes_of_isFlat (h : isFlat rows = true) :
    volumes rows = List.replicate rows.length (finite 0) := by
  rw [List.eq_replicate_iff]
  refine ⟨List.length_map _, fun volume hvolume => ?_⟩
  obtain ⟨row, hrow, rfl⟩ := List.mem_map.mp hvolume
  have hzero : row.volume.isZero = true := List.all_eq_true.mp h row hrow
  cases hv : row.volume with
  | finite x => rw [of_decide_eq_true (hv ▸ hzero : (finite x).isZero = true)]
  | infinite negative => rw [hv] at hzero; cases hzero
  | nan => rw [hv] at hzero; cases hzero

omit [LinearOrder K] in
/-- The distance from the mean of 20 rows is not known before there are 20. -/
lemma getElem?_priceVsSma_of_lt (hi : i < rows.length) (hlt : i < 19) :
    (priceVsSma rows)[i]? = some nan := by
  have hmidpoints : i < (midpoints rows).length := by simpa [midpoints] using hi
  exact List.getElem?_zipWith_eq_some.mpr ⟨_, _, List.getElem?_eq_getElem hmidpoints,
    getElem?_rollingMean_of_lt hmidpoints (by omega), sub_nan _⟩

/-- In the first 20 rows one distance at most counts, so that it has no deviation. -/
lemma normalise_priceVsSma (rollWin : ℕ) (hi : i < rows.length) (hlt : i < 20) :
    (normalise fn rollWin (priceVsSma rows))[i]? = some nan := by
  have hlength : (priceVsSma rows).length = rows.length := by
    simp [priceVsSma, midpoints, rollingMean, rolling]
  apply normalise_of_valid_le_one
  · rw [hlength]
    exact hi
  · have hnone : valid ((priceVsSma rows).take 19) = [] := by
      rw [List.eq_nil_iff_forall_not_mem]
      intro x hx
      obtain ⟨j, hj, heq⟩ := List.mem_iff_getElem.mp (mem_valid hx)
      rw [List.length_take, hlength] at hj
      rw [List.getElem_take] at heq
      have hnan : (priceVsSma rows)[j]? = some nan := getElem?_priceVsSma_of_lt (by omega) (by omega)
      rw [List.getElem?_eq_getElem (by rw [hlength]; omega), heq] at hnan
      cases hnan
    have hsub : ((priceVsSma rows).take (i + 1)).Sublist
        ((priceVsSma rows).take 19 ++ ((priceVsSma rows).drop 19).take 1) := by
      rw [← List.take_add]
      exact (List.take_prefix_take_left (by omega)).sublist
    refine (valid_sublist hsub).length_le.trans ?_
    rw [valid_append, hnone, List.nil_append]
    exact (length_valid_le _).trans (List.length_take_le _ _)

/-- The first 20 rows have a NaN. -/
lemma featuresAt_isNan (fn : ArrayFunctions K) (facts : FrameFacts) (resolutionDate : Option Time)
    (hi : i < rows.length) (hlt : i < 20) :
    (featuresAt i (columns fn facts resolutionDate rows)).any isNan = true := by
  rw [List.any_eq_true]
  refine ⟨nan, List.mem_map.mpr ⟨normalise fn facts.rollWin (priceVsSma rows), ?_, ?_⟩, rfl⟩
  · simp [columns, rawColumns]
  · rw [normalise_priceVsSma facts.rollWin hi hlt, Option.getD_some]

variable [CharZero K] {numerators : List (HistoryRow K) → Column K}

/-- Without volume, and not told so, a ratio is unknown in the first 19 rows and 0 after. -/
lemma getElem?_volumeFeature_false (hflat : isFlat rows = true)
    (hlength : (numerators rows).length = rows.length)
    (hzero : ∀ j, 4 ≤ j → j < rows.length → (numerators rows)[j]? = some (finite 0))
    (hi : i < rows.length) :
    (volumeFeature false numerators rows)[i]? = some (if i < 19 then nan else finite 0) := by
  have hvolumes := volumes_of_isFlat hflat
  have hlt : i < (numerators rows).length := hlength.symm ▸ hi
  rw [volumeFeature, if_neg Bool.false_ne_true]
  split_ifs with hsmall
  · rw [getElem?_ratio (List.getElem?_eq_getElem hlt)
      (getElem?_rollingMean_of_lt (by simpa [volumes] using hi) (by omega)), nan_add, div_nan]
  · rw [hvolumes, getElem?_ratio (hzero i (by omega) hi)
      (getElem?_rollingMean_replicate hi (by norm_num) (by omega)), finite_add, zero_add,
      finite_div _ epsilon_ne_zero, zero_div]

/-- Without volume, told so or not, a normalised ratio is 0 from the row 20 on. -/
lemma normalise_volumeFeature {rollWin : ℕ} (hwin : 2 ≤ rollWin) (flat : Bool)
    (hflat : isFlat rows = true) (hlength : (numerators rows).length = rows.length)
    (hzero : ∀ j, 4 ≤ j → j < rows.length → (numerators rows)[j]? = some (finite 0))
    (hi : i + 1 < rows.length) (hle : 19 ≤ i) :
    (normalise fn rollWin (volumeFeature flat numerators rows))[i + 1]? = some (finite 0) := by
  cases flat with
  | true =>
    have hcolumn : volumeFeature true numerators rows = List.replicate rows.length (finite 1) := by
      simp [volumeFeature, List.map_const']
    rw [hcolumn]
    refine normalise_of_const (x := 1) hwin ?_ ?_ fun v hv => ?_
    · simp [hi]
    · simp [Nat.lt_of_succ_lt hi]
    · have hmem := List.mem_of_mem_take (mem_valid hv)
      injection List.eq_of_mem_replicate hmem
  | false =>
    have hvalue := fun j => getElem?_volumeFeature_false (i := j) hflat hlength hzero
    refine normalise_of_const (x := 0) hwin ?_ ?_ fun v hv => ?_
    · rw [hvalue (i + 1) hi, if_neg (by omega)]
    · rw [hvalue i (by omega), if_neg (by omega)]
    · obtain ⟨j, hget⟩ := List.mem_iff_getElem?.mp (List.mem_of_mem_take (mem_valid hv))
      have hj : j < rows.length := by
        have hlt := (List.getElem?_eq_some_iff.mp hget).1
        rw [volumeFeature, if_neg Bool.false_ne_true, ratio, List.length_zipWith, hlength] at hlt
        omega
      rw [hvalue j hj] at hget
      split_ifs at hget
      · cases hget
      · injection hget with hget
        injection hget with hget
        exact hget.symm

lemma normalise_volumeRatio {rollWin : ℕ} (hwin : 2 ≤ rollWin) (flat : Bool)
    (hflat : isFlat rows = true) (hi : i + 1 < rows.length) (hle : 19 ≤ i) :
    (normalise fn rollWin (volumeRatio flat rows))[i + 1]? = some (finite 0) := by
  refine normalise_volumeFeature hwin flat hflat (List.length_map _) (fun j _ hj => ?_) hi hle
  rw [volumes_of_isFlat hflat, List.getElem?_replicate_of_lt hj]

lemma normalise_volumeMomentum {rollWin : ℕ} (hwin : 2 ≤ rollWin) (flat : Bool)
    (hflat : isFlat rows = true) (hi : i + 1 < rows.length) (hle : 19 ≤ i) :
    (normalise fn rollWin (volumeMomentum flat rows))[i + 1]? = some (finite 0) := by
  refine normalise_volumeFeature hwin flat hflat ?_ (fun j hfour hj => ?_) hi hle
  · simp [rollingMean, rolling, volumes]
  · rw [volumes_of_isFlat hflat]
    exact getElem?_rollingMean_replicate hj (by norm_num) (by omega)

variable (fn) (first : Time) (resolutionDate : Option Time)

/-- From the row 20 on the features do not depend on whether a frame without volume is told so. -/
lemma featuresAt_congr_flat {rollWin : ℕ} (hwin : 2 ≤ rollWin) (flat : Bool)
    (hflat : isFlat rows = true) (hi : i + 1 < rows.length) (hle : 19 ≤ i) :
    featuresAt (i + 1) (columns fn ⟨flat, first, rollWin⟩ resolutionDate rows) =
      featuresAt (i + 1) (columns fn ⟨true, first, rollWin⟩ resolutionDate rows) := by
  simp only [featuresAt, columns, rawColumns, List.map_cons, List.map_nil, List.cons_append,
    List.nil_append, normalise_volumeRatio hwin _ hflat hi hle,
    normalise_volumeMomentum hwin _ hflat hi hle]

omit [Field K] [LinearOrder K] [CharZero K] in
/-- Rows that both are left out need not be equal. -/
lemma filter_map_congr {α β : Type} {l : List α} {g g' : α → β} {p : β → Bool}
    (h : ∀ x ∈ l, g x = g' x ∨ (p (g x) = false ∧ p (g' x) = false)) :
    (l.map g).filter p = (l.map g').filter p := by
  induction l with
  | nil => rfl
  | cons x l ih =>
    have hl := ih fun y hy => h y (List.mem_cons_of_mem x hy)
    rw [List.map_cons, List.map_cons, List.filter_cons, List.filter_cons, hl]
    rcases h x List.mem_cons_self with heq | ⟨hout, hout'⟩
    · rw [heq]
    · rw [hout, hout', if_neg Bool.false_ne_true, if_neg Bool.false_ne_true]

/-- A frame without volume has the same rows, told so or not. -/
lemma dropNan_frame_flat {rollWin : ℕ} (hwin : 2 ≤ rollWin) (flat : Bool) (hflat : isFlat rows = true) :
    dropNan (frame fn ⟨flat, first, rollWin⟩ resolutionDate rows) =
      dropNan (frame fn ⟨true, first, rollWin⟩ resolutionDate rows) := by
  apply filter_map_congr
  rintro ⟨row, i⟩ hmem
  have hi : i < rows.length := (List.getElem?_eq_some_iff.mp (List.mem_zipIdx_iff_getElem?.mp hmem)).1
  by_cases hlt : i < 20
  · right
    simp [featuresAt_isNan fn _ resolutionDate hi hlt]
  · left
    obtain ⟨j, rfl⟩ : ∃ j, i = j + 1 := ⟨i - 1, by omega⟩
    exact congrArg (Prod.mk row.timestamp)
      (featuresAt_congr_flat fn first resolutionDate hwin flat hflat hi (by omega))

end Flat

/-! ### Histories -/

section Histories

variable (fn : ArrayFunctions K) (resolutionDate : Option Time) {before history : List (HistoryRow K)}

/-- The row of the matrix for a timestamp, unless it was dropped. -/
def rowOn (history : List (HistoryRow K)) (timestamp : Time) : Option (List (NumpyFloat K)) :=
  ((featuresDf fn resolutionDate history).lookup timestamp).map (List.map fn.astypeFloat32)

omit [Field K] [LinearOrder K] in
lemma sortIndex_of_sorted (h : history.Pairwise fun x y => x.timestamp < y.timestamp) :
    sortIndex history = history :=
  List.Pairwise.insertionSort_eq (h.imp fun hlt => hlt.le)

variable [CharZero K]

omit [CharZero K] in
/-- The facts of a longer history: its volumes need not be all zero. -/
lemma factsOf_append (rest : List (HistoryRow K)) (hlong : 50 ≤ before.length) :
    factsOf (before ++ rest) = { factsOf before with flat := isFlat (before ++ rest) } := by
  have hpos : before ≠ [] := List.ne_nil_of_length_pos (by omega)
  have hwin : min 50 (before ++ rest).length = min 50 before.length := by
    rw [List.length_append]
    omega
  rw [factsOf, factsOf, List.head?_append_of_ne_nil _ hpos, hwin]

/-- The facts of a longer history give the same rows. -/
lemma dropNan_frame_append (rest : List (HistoryRow K)) (hlong : 50 ≤ before.length) :
    dropNan (frame fn (factsOf (before ++ rest)) resolutionDate before) =
      dropNan (frame fn (factsOf before) resolutionDate before) := by
  have hwin : 2 ≤ min 50 before.length := by omega
  rw [factsOf_append rest hlong]
  cases hflat : isFlat before with
  | true =>
    have hsame := dropNan_frame_flat fn (factsOf before).first resolutionDate hwin
      (isFlat (before ++ rest)) hflat
    have htold : factsOf before = ⟨true, (factsOf before).first, min 50 before.length⟩ := by
      rw [← hflat]
      rfl
    rw [← htold] at hsame
    exact hsame
  | false =>
    have hrest : isFlat (before ++ rest) = isFlat before := by
      rw [isFlat, List.all_append, ← isFlat, hflat, Bool.false_and]
    rw [hrest]
    rfl

/-- The features of a history are those of its start, and those of the rows that follow. -/
lemma featuresDf_append (rest : List (HistoryRow K)) (hlong : 50 ≤ before.length)
    (hsorted : (before ++ rest).Pairwise fun x y => x.timestamp < y.timestamp) :
    featuresDf fn resolutionDate (before ++ rest) = featuresDf fn resolutionDate before ++
      dropNan ((frame fn (factsOf (before ++ rest)) resolutionDate (before ++ rest)).drop
        before.length) := by
  have hstart : frame fn (factsOf (before ++ rest)) resolutionDate before =
      (frame fn (factsOf (before ++ rest)) resolutionDate (before ++ rest)).take before.length := by
    rw [← frame_take, List.take_left]
  have hbefore : featuresDf fn resolutionDate before =
      dropNan (frame fn (factsOf (before ++ rest)) resolutionDate before) := by
    rw [featuresDf, sortIndex_of_sorted (List.pairwise_append.mp hsorted).1,
      dropNan_frame_append fn resolutionDate rest hlong]
  rw [hbefore, hstart, featuresDf, sortIndex_of_sorted hsorted, dropNan, dropNan, dropNan,
    ← List.filter_append, List.take_append_drop]

/-- A history has a matrix when its start has one. -/
lemma createFeatures_append_isSome (rest : List (HistoryRow K)) (hlong : 50 ≤ before.length)
    (hsorted : (before ++ rest).Pairwise fun x y => x.timestamp < y.timestamp)
    (h : (createFeatures fn resolutionDate before).isSome = true) :
    (createFeatures fn resolutionDate (before ++ rest)).isSome = true := by
  have hlength : (featuresDf fn resolutionDate before).length ≤
      (featuresDf fn resolutionDate (before ++ rest)).length := by
    rw [featuresDf_append fn resolutionDate rest hlong hsorted, List.length_append]
    exact Nat.le_add_right _ _
  have hbefore : ¬ (featuresDf fn resolutionDate before).length < 2 := by
    intro hlt
    simp [createFeatures, hlt] at h
  have htwo : ¬ (before ++ rest).length < 2 := by
    rw [List.length_append]
    omega
  simp only [createFeatures, if_neg htwo, if_neg (by omega :
    ¬ (featuresDf fn resolutionDate (before ++ rest)).length < 2), Option.isSome_some]

omit [CharZero K] in
/-- The rows that follow are for other timestamps. -/
lemma lookup_dropNan_drop (facts : FrameFacts) (rest : List (HistoryRow K)) {row : HistoryRow K}
    (hsorted : (before ++ rest).Pairwise fun x y => x.timestamp < y.timestamp) (hrow : row ∈ before) :
    (dropNan ((frame fn facts resolutionDate (before ++ rest)).drop before.length)).lookup
      row.timestamp = none := by
  rw [List.lookup_eq_none_iff]
  rintro ⟨timestamp, features⟩ hmem
  obtain ⟨i, hget⟩ := List.mem_iff_getElem?.mp (List.mem_filter.mp hmem).1
  rw [List.getElem?_drop, getElem?_frame, List.getElem?_append_right (Nat.le_add_right _ _),
    Option.map_eq_some_iff] at hget
  obtain ⟨later, hlater, heq⟩ := hget
  have hlt := (List.pairwise_append.mp hsorted).2.2 row hrow later (List.mem_of_getElem? hlater)
  have htimestamp : later.timestamp = timestamp := congrArg Prod.fst heq
  simp [← htimestamp, hlt.ne]

end Histories

/-- The rows computed from the start of a history are those computed from the history for the same
timestamps, and they are the first rows of its matrix. -/
theorem createFeatures_causal [CharZero K] (fn : ArrayFunctions K) (resolutionDate : Option Time)
    {before history : List (HistoryRow K)} {early late : List (List (NumpyFloat K))}
    (hsorted : history.Pairwise fun x y => x.timestamp < y.timestamp) (hinit : before <+: history)
    (hlong : 50 ≤ before.length) (hearly : createFeatures fn resolutionDate before = some early)
    (hlate : createFeatures fn resolutionDate history = some late) :
    (∀ row ∈ before, rowOn fn resolutionDate before row.timestamp =
      rowOn fn resolutionDate history row.timestamp) ∧ early <+: late := by
  obtain ⟨rest, rfl⟩ := hinit
  have happend := featuresDf_append fn resolutionDate rest hlong hsorted
  constructor
  · intro row hrow
    rw [rowOn, rowOn, happend, List.lookup_append,
      lookup_dropNan_drop fn resolutionDate _ rest hsorted hrow, Option.or_none]
  · rw [createFeatures] at hearly hlate
    dsimp only at hearly hlate
    split_ifs at hearly hlate
    rw [← Option.some.inj hearly, ← Option.some.inj hlate, happend, List.map_append]
    exact List.prefix_append _ _

/-- The exact functions, with the deviation of a sample, are such functions. -/
noncomputable def exactFunctions (astypeFloat32 : NumpyFloat ℝ → NumpyFloat ℝ) : ArrayFunctions ℝ where
  log := Real.log
  exp := Real.exp
  std xs := √((xs.map fun x => (x - xs.sum / xs.length) ^ 2).sum / (xs.length - 1))
  astypeFloat32
  std_replicate n x := by
    cases n with
    | zero => simp
    | succ n =>
      have hne : ((n + 1 : ℕ) : ℝ) ≠ 0 := Nat.cast_ne_zero.mpr n.succ_ne_zero
      rw [List.sum_replicate, List.length_replicate, nsmul_eq_mul, mul_div_cancel_left₀ x hne,
        List.map_replicate, List.sum_replicate, sub_self]
      simp

/-- The functions on the values they are asked for in a history whose midpoints stay at a half: the
logarithm of 1 and deviations of equal values. -/
def halfFunctions : ArrayFunctions ℚ where
  log _ := 0
  exp _ := 1
  std _ := 0
  astypeFloat32 x := x
  std_replicate _ _ := rfl

/-- A row at one half. -/
def halfRow (volume : ℚ) (timestamp : ℕ) : HistoryRow ℚ :=
  { timestamp
    midpoint := .finite (1 / 2)
    volume := .finite volume
    spread := .finite (1 / 50)
    bookImbalance := .finite 0 }

/-- A history without volume. -/
def quietHistory : List (HistoryRow ℚ) := (List.range 50).map (halfRow 0)

theorem createFeatures_causal_quietHistory :
    ∃ early late, createFeatures halfFunctions none quietHistory = some early ∧
      createFeatures halfFunctions none (quietHistory ++ [halfRow 1 50]) = some late ∧
      (∀ row ∈ quietHistory, rowOn halfFunctions none quietHistory row.timestamp =
        rowOn halfFunctions none (quietHistory ++ [halfRow 1 50]) row.timestamp) ∧ early <+: late := by
  have hsorted : (quietHistory ++ [halfRow 1 50]).Pairwise fun x y => x.timestamp < y.timestamp := by
    decide +kernel
  have hlong : 50 ≤ quietHistory.length := by decide
  have hsome : (createFeatures halfFunctions none quietHistory).isSome = true := by decide +kernel
  obtain ⟨early, hearly⟩ := Option.isSome_iff_exists.mp hsome
  obtain ⟨late, hlate⟩ := Option.isSome_iff_exists.mp
    (createFeatures_append_isSome halfFunctions none [halfRow 1 50] hlong hsorted hsome)
  exact ⟨early, late, hearly, hlate, createFeatures_causal halfFunctions none hsorted
    (List.prefix_append _ _) hlong hearly hlate⟩

end PolyCortex.FeatureEngine
