import PolyCortex.Models.CalibrationRuns
import PolyCortex.Tracking.Learner

/-!
# Loading the learning state

The constructor of the agent loads the thresholds of the calibrator and the settings of the learner from
their files. Both methods assign one field after the other, and catch some of the exceptions that a file
can cause: they are all or nothing only for the files that `Whole` admits
(`learningState_allOrNothing_iff`).
-/

namespace PolyCortex

variable {py : PyConversions} {α : Type}

/-! ### The calibrator -/

namespace ProbabilityCalibrator

open PersistedValue

variable {c : ProbabilityCalibrator} {payload : PersistedValue} {xs ys : List PyFloat}
  {method xValue yValue : PersistedValue}

/-- A counter that is no integer makes the method return `False` after it has assigned the fields before
that counter; these were as they are, and what it raises is caught. -/
def CountersWhole (py : PyConversions) (payload : PersistedValue) (xs ys : List PyFloat)
    (c : ProbabilityCalibrator) : Prop :=
  (∀ e, (payload.getD "sample_count" (.int (xs.map clipProbability).length)).toInt py = .error e →
    loadCatches e ∧ c.withThresholds xs ys = c) ∧
  ∀ n e, (payload.getD "sample_count" (.int (xs.map clipProbability).length)).toInt py = .ok n →
    (payload.getD "last_fit_trade_count" (.int n)).toInt py = .error e →
      loadCatches e ∧ { c.withThresholds xs ys with sampleCount := n } = c

/-- What the fields of an object must be: the method and the thresholds are there and raise nothing
uncaught, and if they are accepted the counters are whole. -/
def FieldsWhole (py : PyConversions) (fields : List (String × PersistedValue))
    (c : ProbabilityCalibrator) : Prop :=
  ∃ method xValue, fields.lookup "method" = some method ∧ fields.lookup "x_thresholds" = some xValue ∧
    Caught loadCatches (xValue.toFloats py) ∧
    ∀ xs, xValue.toFloats py = .ok xs →
      ∃ yValue, fields.lookup "y_thresholds" = some yValue ∧ Caught loadCatches (yValue.toFloats py) ∧
        ∀ ys, yValue.toFloats py = .ok ys →
          method.toStr py = c.method ∧ 2 ≤ xs.length ∧ xs.length = ys.length →
            CountersWhole py (.obj fields) xs ys c

/-- The files that are loaded whole or not at all. -/
def Whole (py : PyConversions) (file : PersistedFile) (c : ProbabilityCalibrator) : Prop :=
  match file with
  | some (.error e) => c.enabled = true → loadCatches e
  | some (.ok (.obj fields)) => c.enabled = true → FieldsWhole py fields c
  | _ => True

lemma restore_allOrNothing_iff :
    AllOrNothing c (catching loadCatches (c.restore py payload xs ys)) ↔
      CountersWhole py payload xs ys c := by
  have hlength : (c.withThresholds xs ys).xThresholds.length = (xs.map clipProbability).length := rfl
  rw [restore, CountersWhole]
  dsimp only
  rw [hlength]
  cases hsample : (payload.getD "sample_count" (.int (xs.map clipProbability).length)).toInt py with
  | error e => simp [allOrNothing_catching_error]
  | ok n =>
    dsimp only
    cases hlast : (payload.getD "last_fit_trade_count" (.int n)).toInt py with
    | error e =>
      rw [allOrNothing_catching_error]
      constructor
      · intro h
        refine ⟨by rintro _ ⟨⟩, ?_⟩
        rintro _ e' ⟨⟩ he
        obtain rfl := Except.error.inj (hlast.symm.trans he)
        exact h
      · exact fun h => h.2 n e rfl hlast
    | ok m =>
      refine iff_of_true (by simp [catching]) ⟨by rintro _ ⟨⟩, ?_⟩
      rintro _ e ⟨⟩ he
      cases hlast.symm.trans he

lemma load_allOrNothing_of_error {e : PyError} (henabled : c.enabled = true)
    (hread : readThresholds py c.method payload = .error e) :
    AllOrNothing c (c.load py (some (.ok payload))) ↔ loadCatches e = true := by
  simp [load, henabled, hread, allOrNothing_catching_error]

lemma load_allOrNothing_of_ok (henabled : c.enabled = true)
    (hread : readThresholds py c.method payload = .ok (xs, ys)) :
    AllOrNothing c (c.load py (some (.ok payload))) ↔ CountersWhole py payload xs ys c := by
  rw [← restore_allOrNothing_iff]
  simp [load, henabled, hread]

/-- An object is read field by field. -/
lemma load_fields_allOrNothing_iff (henabled : c.enabled = true)
    (fields : List (String × PersistedValue)) :
    AllOrNothing c (c.load py (some (.ok (.obj fields)))) ↔ FieldsWhole py fields c := by
  cases hmethod : fields.lookup "method" with
  | none =>
    have hread : readThresholds py c.method (.obj fields) = .error .keyError := by
      simp [readThresholds, PersistedValue.getItem, hmethod, bind, Except.bind]
    simp [load_allOrNothing_of_error henabled hread, FieldsWhole, hmethod, loadCatches]
  | some method =>
    cases hx : fields.lookup "x_thresholds" with
    | none =>
      have hread : readThresholds py c.method (.obj fields) = .error .keyError := by
        simp [readThresholds, PersistedValue.getItem, hmethod, hx, bind, Except.bind]
      simp [load_allOrNothing_of_error henabled hread, FieldsWhole, hx, loadCatches]
    | some xValue =>
      cases hxs : xValue.toFloats py with
      | error e =>
        have hread : readThresholds py c.method (.obj fields) = .error e := by
          simp [readThresholds, PersistedValue.getItem, hmethod, hx, hxs, bind, Except.bind]
        simp [load_allOrNothing_of_error henabled hread, FieldsWhole, hmethod, hx, hxs]
      | ok xs =>
        cases hy : fields.lookup "y_thresholds" with
        | none =>
          have hread : readThresholds py c.method (.obj fields) = .error .keyError := by
            simp [readThresholds, PersistedValue.getItem, hmethod, hx, hxs, hy, bind, Except.bind]
          simp [load_allOrNothing_of_error henabled hread, FieldsWhole, hx, hxs, hy, loadCatches]
        | some yValue =>
          cases hys : yValue.toFloats py with
          | error e =>
            have hread : readThresholds py c.method (.obj fields) = .error e := by
              simp [readThresholds, PersistedValue.getItem, hmethod, hx, hxs, hy, hys, bind,
                Except.bind]
            simp [load_allOrNothing_of_error henabled hread, FieldsWhole, hmethod, hx, hxs, hy, hys,
              caught_ok]
          | ok ys =>
            have hwhole : FieldsWhole py fields c ↔
                (method.toStr py = c.method ∧ 2 ≤ xs.length ∧ xs.length = ys.length →
                  CountersWhole py (.obj fields) xs ys c) := by
              simp only [FieldsWhole, hmethod, hx, hxs, hy, hys, caught_ok, Option.some.injEq,
                Except.ok.injEq, exists_eq_left', forall_eq', true_and, exists_and_left]
            have hread := @readThresholds_of_values py c.method _ _ _ _ _ _ (getItem_of_lookup hmethod)
              (getItem_of_lookup hx) hxs (getItem_of_lookup hy) hys
            rw [hwhole]
            by_cases hvalid : method.toStr py = c.method ∧ 2 ≤ xs.length ∧ xs.length = ys.length
            · rw [if_pos hvalid] at hread
              rw [load_allOrNothing_of_ok henabled hread]
              exact ⟨fun h _ => h, fun h => h hvalid⟩
            · rw [if_neg hvalid] at hread
              rw [load_allOrNothing_of_error henabled hread]
              exact iff_of_true rfl fun h => absurd h hvalid

lemma load_allOrNothing_of_not_object (henabled : c.enabled = true)
    (h : ∀ fields, payload ≠ .obj fields) : AllOrNothing c (c.load py (some (.ok payload))) := by
  have hread : readThresholds py c.method payload = .error .typeError := by
    cases payload with
    | obj fields => exact absurd rfl (h fields)
    | _ => rfl
  exact (load_allOrNothing_of_error henabled hread).mpr rfl

lemma load_allOrNothing_iff (py : PyConversions) (file : PersistedFile) (c : ProbabilityCalibrator) :
    AllOrNothing c (c.load py file) ↔ c.Whole py file := by
  by_cases henabled : c.enabled = true
  · rcases file with - | e | payload
    · simp [load, Whole]
    · simp [load, Whole, henabled, allOrNothing_catching_error]
    · cases payload with
      | obj fields => simp [load_fields_allOrNothing_iff henabled, Whole, henabled]
      | _ => exact iff_of_true (load_allOrNothing_of_not_object henabled (by simp)) trivial
  · have hload : c.load py file = (.ok false, c) := by
      cases file <;> simp [load, henabled]
    rw [hload]
    refine iff_of_true (by simp) ?_
    rcases file with - | e | payload
    · trivial
    · exact fun h => absurd h henabled
    · cases payload with
      | obj fields => exact fun h => absurd h henabled
      | _ => trivial

end ProbabilityCalibrator

/-! ### The learner -/

namespace SelfAdjuster

open PersistedValue

variable {l : SelfAdjuster PyFloat} {data : PersistedValue}

/-- What the fields of an object must be: `min_edge` and the weights raise nothing uncaught, and if a
weight is no number `min_edge` is missing or as it was. -/
def FieldsWhole (py : PyConversions) (fields : List (String × PersistedValue))
    (l : SelfAdjuster PyFloat) : Prop :=
  match fields.lookup "min_edge" with
  | none =>
    ∀ weights, fields.lookup "signal_weights" = some (.obj weights) →
      Caught loadCatches (toWeights py weights)
  | some value =>
    Caught loadCatches (value.toFloat py) ∧
    ∀ minEdge, value.toFloat py = .ok minEdge →
      ∀ weights, fields.lookup "signal_weights" = some (.obj weights) →
        ∀ e, toWeights py weights = .error e → loadCatches e ∧ minEdge = l.minEdge

/-- The files that are loaded whole or not at all; in a list or a text the names of the fields must not
be found. -/
def Whole (py : PyConversions) (file : PersistedFile) (l : SelfAdjuster PyFloat) : Prop :=
  match file with
  | none => True
  | some (.error e) => loadCatches e
  | some (.ok (.obj fields)) => FieldsWhole py fields l
  | some (.ok data) => data.contains "min_edge" = .ok false ∧ data.contains "signal_weights" = .ok false

lemma loadWeights_allOrNothing_of_error {e : PyError} (hread : readMinEdge py data = .error e) :
    AllOrNothing l (l.loadWeights py (some (.ok data))) ↔ loadCatches e = true := by
  simp [loadWeights, restore, hread, allOrNothing_catching_error]

lemma loadWeights_allOrNothing_of_weights_error {minEdge : Option PyFloat} {e : PyError}
    (hread : readMinEdge py data = .ok minEdge) (hweights : readSignalWeights py data = .error e) :
    AllOrNothing l (l.loadWeights py (some (.ok data))) ↔
      loadCatches e = true ∧ minEdge.getD l.minEdge = l.minEdge := by
  have hsame : { l with minEdge := minEdge.getD l.minEdge } = l ↔
      minEdge.getD l.minEdge = l.minEdge :=
    ⟨fun h => congrArg SelfAdjuster.minEdge h, fun h => by rw [h]⟩
  simp only [loadWeights, restore, hread, hweights, allOrNothing_catching_error, hsame]

lemma loadWeights_allOrNothing_of_ok {minEdge : Option PyFloat} {weights : Option (Dict String PyFloat)}
    (hread : readMinEdge py data = .ok minEdge) (hweights : readSignalWeights py data = .ok weights) :
    AllOrNothing l (l.loadWeights py (some (.ok data))) := by
  simp [loadWeights, restore, hread, hweights, catching]

lemma readMinEdge_fields (fields : List (String × PersistedValue)) :
    readMinEdge py (.obj fields) =
      match fields.lookup "min_edge" with
      | none => .ok none
      | some value => (value.toFloat py).map some := by
  cases hlookup : fields.lookup "min_edge" with
  | none => simp [readMinEdge, contains, hlookup, bind, Except.bind, pure, Except.pure]
  | some value =>
    cases hvalue : value.toFloat py <;>
      simp [readMinEdge, contains, getItem, hlookup, hvalue, bind, Except.bind, pure, Except.pure,
        Except.map]

lemma readSignalWeights_fields (fields : List (String × PersistedValue)) :
    readSignalWeights py (.obj fields) =
      match fields.lookup "signal_weights" with
      | some (.obj weights) => (toWeights py weights).map some
      | _ => .ok none := by
  cases hlookup : fields.lookup "signal_weights" with
  | none => simp [readSignalWeights, contains, hlookup, bind, Except.bind, pure, Except.pure]
  | some value =>
    cases value with
    | obj weights =>
      cases hweights : toWeights py weights <;>
        simp [readSignalWeights, contains, getItem, hlookup, hweights, bind, Except.bind, pure,
          Except.pure, Except.map]
    | _ =>
      simp [readSignalWeights, contains, getItem, hlookup, bind, Except.bind, pure, Except.pure]

/-- Once `min_edge` is read, what matters is whether the weights are. -/
lemma loadWeights_fields_of_ok {fields : List (String × PersistedValue)} {minEdge : Option PyFloat}
    (hread : readMinEdge py (.obj fields) = .ok minEdge) :
    AllOrNothing l (l.loadWeights py (some (.ok (.obj fields)))) ↔
      ∀ weights, fields.lookup "signal_weights" = some (.obj weights) →
        ∀ e, toWeights py weights = .error e →
          loadCatches e = true ∧ minEdge.getD l.minEdge = l.minEdge := by
  have hweights := @readSignalWeights_fields py fields
  split at hweights
  · rename_i weights hlookup
    cases hvalues : toWeights py weights with
    | error e =>
      rw [hvalues] at hweights
      rw [loadWeights_allOrNothing_of_weights_error hread hweights]
      simp [hlookup, hvalues]
    | ok loaded =>
      rw [hvalues] at hweights
      refine iff_of_true (loadWeights_allOrNothing_of_ok hread hweights) ?_
      simp [hlookup, hvalues]
  · rename_i hother
    refine iff_of_true (loadWeights_allOrNothing_of_ok hread hweights) ?_
    exact fun weights hlookup => absurd hlookup (hother weights)

lemma loadWeights_fields_allOrNothing_iff (fields : List (String × PersistedValue)) :
    AllOrNothing l (l.loadWeights py (some (.ok (.obj fields)))) ↔ FieldsWhole py fields l := by
  have hedge := @readMinEdge_fields py fields
  rw [FieldsWhole]
  cases hlookup : fields.lookup "min_edge" with
  | none =>
    rw [hlookup] at hedge
    rw [loadWeights_fields_of_ok hedge]
    simp [Caught]
  | some value =>
    rw [hlookup] at hedge
    dsimp only at hedge ⊢
    cases hvalue : value.toFloat py with
    | error e =>
      rw [hvalue] at hedge
      rw [loadWeights_allOrNothing_of_error hedge]
      simp
    | ok minEdge =>
      rw [hvalue] at hedge
      rw [loadWeights_fields_of_ok hedge]
      simp [caught_ok]

lemma loadWeights_allOrNothing_of_not_object (h : ∀ fields, data ≠ .obj fields) :
    AllOrNothing l (l.loadWeights py (some (.ok data))) ↔
      data.contains "min_edge" = .ok false ∧ data.contains "signal_weights" = .ok false := by
  have hitem : ∀ key, data.getItem key = .error .typeError := by
    intro key
    cases data with
    | obj fields => exact absurd rfl (h fields)
    | _ => rfl
  have hcontains : ∀ key e, data.contains key = .error e → e = .typeError := by
    intro key e he
    cases data <;> simp [contains] at he <;> exact he.symm
  cases hedge : data.contains "min_edge" with
  | error e =>
    have hread : readMinEdge py data = .error e := by simp [readMinEdge, hedge, bind, Except.bind]
    rw [loadWeights_allOrNothing_of_error hread, hcontains _ _ hedge]
    simp [loadCatches]
  | ok found =>
    cases found with
    | true =>
      have hread : readMinEdge py data = .error .typeError := by
        simp [readMinEdge, hedge, hitem, bind, Except.bind]
      rw [loadWeights_allOrNothing_of_error hread]
      simp [loadCatches]
    | false =>
      have hread : readMinEdge py data = .ok none := by
        simp [readMinEdge, hedge, bind, Except.bind, pure, Except.pure]
      cases hweights : data.contains "signal_weights" with
      | error e =>
        have hread' : readSignalWeights py data = .error e := by
          simp [readSignalWeights, hweights, bind, Except.bind]
        rw [loadWeights_allOrNothing_of_weights_error hread hread', hcontains _ _ hweights]
        simp [loadCatches]
      | ok found =>
        cases found with
        | true =>
          have hread' : readSignalWeights py data = .error .typeError := by
            simp [readSignalWeights, hweights, hitem, bind, Except.bind]
          rw [loadWeights_allOrNothing_of_weights_error hread hread']
          simp [loadCatches]
        | false =>
          have hread' : readSignalWeights py data = .ok none := by
            simp [readSignalWeights, hweights, bind, Except.bind, pure, Except.pure]
          exact iff_of_true (loadWeights_allOrNothing_of_ok hread hread') ⟨rfl, rfl⟩

lemma loadWeights_allOrNothing_iff (py : PyConversions) (file : PersistedFile)
    (l : SelfAdjuster PyFloat) : AllOrNothing l (l.loadWeights py file) ↔ l.Whole py file := by
  rcases file with - | e | data
  · simp [loadWeights, Whole]
  · simp [loadWeights, Whole, allOrNothing_catching_error]
  · cases data with
    | obj fields => exact loadWeights_fields_allOrNothing_iff fields
    | _ => exact loadWeights_allOrNothing_of_not_object (by simp)

end SelfAdjuster

/-- For every content of the two files and every state of the two objects: loading never raises and
changes nothing unless it succeeds, exactly when the files are loaded whole. -/
theorem learningState_allOrNothing_iff (py : PyConversions) (calibrationFile weightsFile : PersistedFile)
    (c : ProbabilityCalibrator) (l : SelfAdjuster PyFloat) :
    (AllOrNothing c (c.load py calibrationFile) ↔ c.Whole py calibrationFile) ∧
      (AllOrNothing l (l.loadWeights py weightsFile) ↔ l.Whole py weightsFile) :=
  ⟨c.load_allOrNothing_iff py calibrationFile, l.loadWeights_allOrNothing_iff py weightsFile⟩

/-- An object without fields. -/
def emptyObject : PersistedFile := some (.ok (.obj []))

/-- Learned weights of which one is no number. -/
def spoiledWeights : PersistedFile :=
  some (.ok (.obj [("min_edge", .float (.finite (3 / 20))),
    ("signal_weights", .obj [("momentum", .str "high")])]))

def defaultLearner : SelfAdjuster PyFloat := SelfAdjuster.create {}

open ProbabilityCalibrator in
/-- An empty object raises a `KeyError` in the calibrator; and where the learner returns `False` it has
taken over the least edge. -/
theorem learningState_not_allOrNothing :
    (freshCalibrator.load .noTexts emptyObject).1 = .error .keyError ∧
      ¬ AllOrNothing freshCalibrator (freshCalibrator.load .noTexts emptyObject) ∧
      (defaultLearner.loadWeights .noTexts spoiledWeights).1 = .ok false ∧
      (defaultLearner.loadWeights .noTexts spoiledWeights).2.minEdge = .finite (3 / 20) ∧
      ¬ AllOrNothing defaultLearner (defaultLearner.loadWeights .noTexts spoiledWeights) := by
  have hraises : (freshCalibrator.load .noTexts emptyObject).1 = .error .keyError := by
    decide +kernel
  have hfalse : (defaultLearner.loadWeights .noTexts spoiledWeights).1 = .ok false := by
    decide +kernel
  have hedge : (defaultLearner.loadWeights .noTexts spoiledWeights).2.minEdge = .finite (3 / 20) := by
    decide +kernel
  have hbefore : defaultLearner.minEdge ≠ .finite (3 / 20) := by decide +kernel
  refine ⟨hraises, ?_, hfalse, hedge, ?_⟩
  · rintro ⟨b, hb, -⟩
    cases hraises.symm.trans hb
  · rintro ⟨b, hb, hsame⟩
    have hb' : false = b := Except.ok.inj (hfalse.symm.trans hb)
    exact hbefore ((congrArg SelfAdjuster.minEdge (hsame hb'.symm)).symm.trans hedge)

end PolyCortex
