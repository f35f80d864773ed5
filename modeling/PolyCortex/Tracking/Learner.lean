import PolyCortex.Data.Persisted
import PolyCortex.Data.Dict

/-!
# The learner

`SelfAdjuster`: the least edge of a trade and the weights of the signals, adjusted to the metrics of the
closed trades and kept in a file. The numbers are floats of Python where infinities and NaN matter, and
rationals where the arithmetic is exact.
-/

namespace PolyCortex

section Model

variable {α : Type} [OfScientific α]

/-- `per_signal_accuracy` of a signal. -/
structure SignalAccuracy (α : Type) [OfScientific α] where
  count : ℤ := 0
  accuracy : α := 0.5

/-- What `check_and_adjust` reads of the metrics. -/
structure LearnerMetrics (α : Type) [OfScientific α] where
  tradeCount : ℤ := 0
  brierScore : Option α := none
  winRate : Option α := none
  perSignalAccuracy : Dict String (SignalAccuracy α) := .empty

/-- What `__init__` reads of the configuration. -/
structure LearnerConfig (α : Type) [OfScientific α] where
  minEdge : α := 0.08
  signalWeights : Dict String α := .empty
  brierCheckInterval : ℤ := 50

structure SelfAdjuster (α : Type) where
  minEdge : α
  baselineMinEdge : α
  signalWeights : Dict String α
  brierCheckInterval : ℤ

namespace SelfAdjuster

def minEdgeFloor : α := 0.04
def minEdgeCeiling : α := 0.20
def decayRate : α := 0.01

/-- `__init__`, before the file is loaded. -/
def create (config : LearnerConfig α) : SelfAdjuster α where
  minEdge := config.minEdge
  baselineMinEdge := config.minEdge
  signalWeights := config.signalWeights
  brierCheckInterval := config.brierCheckInterval

end SelfAdjuster

/-! ### The least edge -/

variable [LT α] [DecidableLT α]

namespace LearnerMetrics

def highBrier (m : LearnerMetrics α) : Bool := m.brierScore.any fun brier => 0.30 < brier

def lowBrier (m : LearnerMetrics α) : Bool := m.brierScore.any fun brier => brier < 0.15

def lowWinRate (m : LearnerMetrics α) : Bool :=
  (m.winRate.any fun winRate => winRate < 0.52) && 20 < m.tradeCount

def highWinRate (m : LearnerMetrics α) : Bool :=
  (m.winRate.any fun winRate => 0.60 < winRate) && 20 < m.tradeCount

/-- It is time to look at the Brier score and the win rate; `none` for a division by zero. -/
def isDue (brierCheckInterval : ℤ) (m : LearnerMetrics α) : Option Bool :=
  if 0 < m.tradeCount then
    if brierCheckInterval = 0 then none else some (m.tradeCount % brierCheckInterval = 0)
  else some false

end LearnerMetrics

namespace SelfAdjuster

variable [Add α] [Sub α]

/-- The adjustments by the Brier score and by the win rate. -/
def adjustMinEdge (m : LearnerMetrics α) (minEdge : α) : α :=
  let minEdge := if m.highBrier then pyMin (minEdge + 0.02) 0.20 else minEdge
  let minEdge := if m.lowBrier then pyMax (minEdge - 0.01) 0.05 else minEdge
  let minEdge := if m.lowWinRate then pyMin (minEdge + 0.01) 0.20 else minEdge
  if m.highWinRate then pyMax (minEdge - 0.005) 0.05 else minEdge

/-- "Enforce hard bounds". -/
def boundMinEdge (minEdge : α) : α := pyMax minEdgeFloor (pyMin minEdge minEdgeCeiling)

/-! ### The weights -/

variable [Mul α] [Div α] [Zero α]

/-- The new weight of a signal, unless it is left alone. -/
def newWeight (stats : SignalAccuracy α) (oldW : α) : Option α :=
  if 20 < stats.count ∧ stats.accuracy < 0.45 then some (oldW * 0.5)
  else if 20 < stats.count ∧ 0.60 < stats.accuracy then some (pyMin (oldW * 1.25) 0.40)
  else none

/-- One round of the loop, on the weights and `weights_changed`. -/
def adjustSignal (adjusted : Dict String α × Bool) (item : String × SignalAccuracy α) :
    Dict String α × Bool :=
  match adjusted.1.get? item.1 with
  | none => adjusted
  | some oldW =>
    match newWeight item.2 oldW with
    | none => adjusted
    | some weight => (adjusted.1.set item.1 weight, true)

/-- `sum(self.signal_weights.values())`. -/
def totalWeight (weights : Dict String α) : α := weights.values.foldl (· + ·) 0

/-- The weights are divided by their sum. -/
def renormalize (weights : Dict String α) : Dict String α :=
  if 0 < totalWeight weights then weights.mapValues fun _ weight => weight / totalWeight weights
  else weights

def adjustWeights (m : LearnerMetrics α) (weights : Dict String α) : Dict String α :=
  let (weights, weightsChanged) := m.perSignalAccuracy.items.foldl adjustSignal (weights, false)
  if weightsChanged ∧ weights.keys ≠ [] then renormalize weights else weights

/-! ### Adjusting -/

/-- The decay toward the baseline. -/
def decay (baseline minEdge : α) : α := minEdge * (1.0 - decayRate) + baseline * decayRate

/-- `check_and_adjust`; `none` when it raises, before it has changed anything. -/
def checkAndAdjust (m : LearnerMetrics α) (l : SelfAdjuster α) : Option (SelfAdjuster α) :=
  match m.isDue l.brierCheckInterval with
  | none => none
  | some due =>
    let minEdge := if due then adjustMinEdge m l.minEdge else l.minEdge
    some { l with
      minEdge := decay l.baselineMinEdge (boundMinEdge minEdge)
      signalWeights := adjustWeights m l.signalWeights }

/-- The learner after a call. -/
def afterCall (l : SelfAdjuster α) (m : LearnerMetrics α) : SelfAdjuster α :=
  (l.checkAndAdjust m).getD l

def afterCalls (ms : List (LearnerMetrics α)) (l : SelfAdjuster α) : SelfAdjuster α :=
  ms.foldl afterCall l

end SelfAdjuster
end Model

/-! ### What a call does -/

section Calls

namespace SelfAdjuster

variable {α : Type} [OfScientific α] [LT α] [DecidableLT α] {m : LearnerMetrics α}
  {l l' : SelfAdjuster α} {stats : SignalAccuracy α} {weights : Dict String α} {signal : String}

/-- The statistics change the weight. -/
def Acts (stats : SignalAccuracy α) : Prop :=
  20 < stats.count ∧ (stats.accuracy < 0.45 ∨ 0.60 < stats.accuracy)

instance : Decidable (Acts stats) := inferInstanceAs (Decidable (_ ∧ _))

/-- The metrics change the weight of the signal. -/
def ActsOn (m : LearnerMetrics α) (signal : String) : Prop :=
  ∃ stats, m.perSignalAccuracy.get? signal = some stats ∧ Acts stats

/-- The loop changes a weight when the metrics act on a signal that has one. -/
lemma any_acts_iff : (m.perSignalAccuracy.items.any fun item =>
    (weights.get? item.1).isSome && decide (Acts item.2)) = true ↔
      ∃ signal ∈ weights.keys, ActsOn m signal := by
  simp only [List.any_eq_true, Bool.and_eq_true, decide_eq_true_eq, ← Dict.mem_keys]
  constructor
  · rintro ⟨⟨signal, stats⟩, hitem, hsignal, hacts⟩
    exact ⟨signal, hsignal, stats, Dict.mem_items.mp hitem, hacts⟩
  · rintro ⟨signal, hsignal, stats, hget, hacts⟩
    exact ⟨(signal, stats), Dict.mem_items.mpr hget, hsignal, hacts⟩

variable [Mul α]

/-- The weight of a signal after the loop. -/
def scaledWeight (m : LearnerMetrics α) (signal : String) (weight : α) : α :=
  (m.perSignalAccuracy.get? signal).elim weight fun stats => (newWeight stats weight).getD weight

lemma isSome_newWeight (stats : SignalAccuracy α) (oldW : α) :
    (newWeight stats oldW).isSome = decide (Acts stats) := by
  rw [newWeight]
  split_ifs with hweak hstrong
  · simp [Acts, hweak]
  · simp [Acts, hstrong]
  · rw [eq_comm, Option.isSome_none, decide_eq_false_iff_not]
    rintro ⟨hcount, hlow | hhigh⟩
    · exact hweak ⟨hcount, hlow⟩
    · exact hstrong ⟨hcount, hhigh⟩

lemma adjustSignal_eq (adjusted : Dict String α × Bool) (item : String × SignalAccuracy α) :
    adjustSignal adjusted item =
      (adjusted.1.modify item.1 fun weight => (newWeight item.2 weight).getD weight,
        adjusted.2 || ((adjusted.1.get? item.1).isSome && decide (Acts item.2))) := by
  cases hget : adjusted.1.get? item.1 with
  | none =>
    rw [Dict.modify_eq_self (by simp [hget])]
    simp [adjustSignal, hget]
  | some oldW =>
    rw [← isSome_newWeight item.2 oldW]
    cases hnew : newWeight item.2 oldW with
    | none =>
      rw [Dict.modify_eq_self]
      · simp [adjustSignal, hget, hnew]
      · intro weight hweight
        obtain rfl := Option.some.inj (hget.symm.trans hweight)
        rw [hnew, Option.getD_none]
    | some weight =>
      have hset : adjusted.1.set item.1 weight =
          adjusted.1.modify item.1 fun weight => (newWeight item.2 weight).getD weight := by
        rw [Dict.set_of_some hget]
        refine Dict.modify_congr fun oldW' hget' => ?_
        obtain rfl := Option.some.inj (hget.symm.trans hget')
        rw [hnew, Option.getD_some]
      simp [adjustSignal, hget, hnew, hset]

/-- The loop goes through the signals one by one, and which of them have a weight stays. -/
lemma foldl_adjustSignal (items : List (String × SignalAccuracy α)) (weights : Dict String α)
    (weightsChanged : Bool) :
    items.foldl adjustSignal (weights, weightsChanged) =
      (items.foldl (fun weights item =>
        weights.modify item.1 fun weight => (newWeight item.2 weight).getD weight) weights,
        weightsChanged || items.any fun item =>
          (weights.get? item.1).isSome && decide (Acts item.2)) := by
  induction items generalizing weights weightsChanged with
  | nil => simp
  | cons item items ih =>
    have hbound : ∀ (signal : String) (f : α → α),
        ((weights.modify item.1 f).get? signal).isSome = (weights.get? signal).isSome := by
      intro signal f
      rw [Bool.eq_iff_iff, ← Dict.mem_keys, ← Dict.mem_keys, Dict.keys_modify]
    rw [List.foldl_cons, adjustSignal_eq, ih]
    simp only [hbound, List.foldl_cons, List.any_cons, Bool.or_assoc]

lemma foldl_items_adjustSignal (m : LearnerMetrics α) (weights : Dict String α) :
    m.perSignalAccuracy.items.foldl adjustSignal (weights, false) =
      (weights.mapValues (scaledWeight m), m.perSignalAccuracy.items.any fun item =>
        (weights.get? item.1).isSome && decide (Acts item.2)) := by
  rw [foldl_adjustSignal, Bool.false_or]
  exact congrArg (·, _) (Dict.foldl_items_modify m.perSignalAccuracy
    (fun stats weight => (newWeight stats weight).getD weight) weights)

lemma scaledWeight_of_not_acts (h : ¬ ActsOn m signal) (weight : α) :
    scaledWeight m signal weight = weight := by
  rw [scaledWeight]
  cases hstats : m.perSignalAccuracy.get? signal with
  | none => rfl
  | some stats =>
    have hnot : ¬ Acts stats := fun hacts => h ⟨stats, hstats, hacts⟩
    have hnew : newWeight stats weight = none := by
      rw [← Option.not_isSome_iff_eq_none, isSome_newWeight]
      simpa using hnot
    rw [Option.elim_some, hnew, Option.getD_none]

variable [Add α] [Div α] [Zero α]

/-- The weights that the metrics act on are scaled, and if there are any all are renormalized. -/
lemma adjustWeights_of_acts (h : ∃ signal ∈ weights.keys, ActsOn m signal) :
    adjustWeights m weights = renormalize (weights.mapValues (scaledWeight m)) := by
  have hkeys : weights.keys ≠ [] := by
    obtain ⟨signal, hsignal, -⟩ := h
    exact List.ne_nil_of_mem hsignal
  rw [adjustWeights, foldl_items_adjustSignal, any_acts_iff.mpr h]
  exact if_pos ⟨rfl, hkeys⟩

lemma adjustWeights_of_not_acts (h : ∀ signal ∈ weights.keys, ¬ ActsOn m signal) :
    adjustWeights m weights = weights := by
  have hany : (m.perSignalAccuracy.items.any fun item =>
      (weights.get? item.1).isSome && decide (Acts item.2)) = false := by
    rw [← Bool.not_eq_true, any_acts_iff]
    rintro ⟨signal, hsignal, hacts⟩
    exact h signal hsignal hacts
  have hscaled : weights.mapValues (scaledWeight m) = weights :=
    Dict.mapValues_eq_self_iff.mpr fun signal weight hget =>
      scaledWeight_of_not_acts (h signal (Dict.mem_keys_of_get? hget)) weight
  rw [adjustWeights, foldl_items_adjustSignal, hany]
  refine (if_neg (fun h => Bool.false_ne_true h.1)).trans ?_
  exact hscaled

variable [Sub α]

/-- What a call that returns has done. -/
lemma checkAndAdjust_cases (h : l.checkAndAdjust m = some l') :
    ∃ due, m.isDue l.brierCheckInterval = some due ∧ l' =
      { l with
        minEdge := decay l.baselineMinEdge
          (boundMinEdge (if due then adjustMinEdge m l.minEdge else l.minEdge))
        signalWeights := adjustWeights m l.signalWeights } := by
  rw [checkAndAdjust] at h
  cases hdue : m.isDue l.brierCheckInterval with
  | none =>
    rw [hdue] at h
    cases h
  | some due =>
    rw [hdue] at h
    exact ⟨due, rfl, (Option.some.inj h).symm⟩

lemma afterCall_of_some (h : l.checkAndAdjust m = some l') : l.afterCall m = l' := by
  rw [afterCall, h, Option.getD_some]

lemma afterCall_of_none (h : l.checkAndAdjust m = none) : l.afterCall m = l := by
  rw [afterCall, h, Option.getD_none]

/-- What every call that returns preserves holds after any calls. -/
lemma afterCalls_induction {P : SelfAdjuster α → Prop} (hinit : P l)
    (hstep : ∀ m l l', P l → l.checkAndAdjust m = some l' → P l') (ms : List (LearnerMetrics α)) :
    P (l.afterCalls ms) := by
  induction ms generalizing l with
  | nil => exact hinit
  | cons m ms ih =>
    rw [afterCalls, List.foldl_cons, ← afterCalls]
    refine ih ?_
    cases h : l.checkAndAdjust m with
    | none => rwa [afterCall_of_none h]
    | some l' =>
      rw [afterCall_of_some h]
      exact hstep m l l' hinit h

end SelfAdjuster
end Calls

/-! ### The file -/

namespace SelfAdjuster

variable (py : PyConversions)

/-- `data["min_edge"]`, if it is there. -/
def readMinEdge (data : PersistedValue) : Except PyError (Option PyFloat) := do
  if ← data.contains "min_edge" then return some (← (← data.getItem "min_edge").toFloat py)
  return none

/-- `{str(k): float(v) for k, v in fields.items()}`. -/
def toWeights (fields : List (String × PersistedValue)) : Except PyError (Dict String PyFloat) := do
  let weights ← fields.mapM fun field => return (field.1, ← field.2.toFloat py)
  return weights.foldl (fun weights item => weights.set item.1 item.2) .empty

/-- `data["signal_weights"]`, if it is there and an object. -/
def readSignalWeights (data : PersistedValue) : Except PyError (Option (Dict String PyFloat)) := do
  if ← data.contains "signal_weights" then
    match ← data.getItem "signal_weights" with
    | .obj fields => return some (← toWeights py fields)
    | _ => return none
  return none

/-- The part of `load_weights` that assigns. -/
def restore (data : PersistedValue) (l : SelfAdjuster PyFloat) :
    Except PyError Bool × SelfAdjuster PyFloat :=
  match readMinEdge py data with
  | .error e => (.error e, l)
  | .ok minEdge =>
    let l := { l with minEdge := minEdge.getD l.minEdge }
    match readSignalWeights py data with
    | .error e => (.error e, l)
    | .ok signalWeights =>
      (.ok true, { l with signalWeights := signalWeights.getD l.signalWeights })

/-- `except (json.JSONDecodeError, OSError, ValueError)`. -/
def loadCatches : PyError → Bool
  | .jsonDecodeError | .osError | .valueError => true
  | .keyError | .typeError | .overflowError | .recursionError => false

/-- `load_weights`. -/
def loadWeights (file : PersistedFile) (l : SelfAdjuster PyFloat) :
    Except PyError Bool × SelfAdjuster PyFloat :=
  match file with
  | none => (.ok false, l)
  | some contents =>
    catching loadCatches <|
      match contents with
      | .error e => (.error e, l)
      | .ok data => l.restore py data

/-- `__init__`. -/
def construct (config : LearnerConfig PyFloat) (file : PersistedFile) :
    Except PyError (SelfAdjuster PyFloat) :=
  match (create config).loadWeights py file with
  | (.ok _, l) => .ok l
  | (.error e, _) => .error e

end SelfAdjuster
end PolyCortex
