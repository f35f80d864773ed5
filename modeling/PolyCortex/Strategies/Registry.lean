import PolyCortex.Data.Dict
import PolyCortex.Data.Persisted
import PolyCortex.Numeric.WeightedMean

/-!
# The strategy ensemble

The registry of strategies and the signal it makes of theirs. The loop over the strategies adds up the
weights, probabilities and confidences of those that contribute (`foldl_add`), so the signal has the
weighted means of their values, and what leaves the contributors alone leaves the signal alone.
-/

namespace PolyCortex

/-! ### Signals -/

/-- A signal with its data; both numbers are between 0 and 1. -/
structure Signal (μ : Type) where
  probability : ℚ
  confidence : ℚ
  metadata : μ
  probability_mem : 0 ≤ probability ∧ probability ≤ 1
  confidence_mem : 0 ≤ confidence ∧ confidence ≤ 1

/-- `max(0.0, min(1.0, x))`. -/
def clipUnit (x : ℚ) : ℚ := max 0 (min 1 x)

lemma clipUnit_mem (x : ℚ) : 0 ≤ clipUnit x ∧ clipUnit x ≤ 1 :=
  ⟨le_max_left _ _, max_le zero_le_one (min_le_left _ _)⟩

lemma clipUnit_of_mem {x : ℚ} (h : 0 ≤ x ∧ x ≤ 1) : clipUnit x = x := by
  rw [clipUnit, min_eq_right h.2, max_eq_right h.1]

/-- `Signal(probability=..., confidence=..., metadata=...)`, clipped by `__post_init__`. -/
def Signal.make {μ : Type} (probability confidence : ℚ) (metadata : μ) : Signal μ where
  probability := clipUnit probability
  confidence := clipUnit confidence
  metadata := metadata
  probability_mem := clipUnit_mem _
  confidence_mem := clipUnit_mem _

/-! ### The registry -/

/-- A strategy with its weight. -/
structure Registered (S : Type) where
  strategy : S
  weight : ℚ
  weight_nonneg : 0 ≤ weight

abbrev StrategyRegistry (S : Type) := Dict String (Registered S)

namespace StrategyRegistry

variable {S : Type}

def register (registry : StrategyRegistry S) (name : String) (strategy : S) (weight : ℚ) :
    Except PyError (StrategyRegistry S) :=
  if h : weight < 0 then .error .valueError
  else .ok (registry.set name ⟨strategy, weight, not_lt.mp h⟩)

def unregister (registry : StrategyRegistry S) (name : String) : StrategyRegistry S :=
  registry.filter fun key _ => key ≠ name

/-- The same strategies with every weight multiplied. -/
def scaleWeights (c : ℚ) (hc : 0 < c) (registry : StrategyRegistry S) : StrategyRegistry S :=
  registry.mapValues fun _ entry =>
    { entry with weight := c * entry.weight, weight_nonneg := mul_nonneg hc.le entry.weight_nonneg }

end StrategyRegistry

/-! ### The ensemble signal -/

/-- An entry of `per_strategy`. -/
structure StrategyReport (μ : Type) where
  probability : ℚ
  confidence : ℚ
  weight : ℚ
  metadata : μ

/-- The data of an ensemble signal: `{"empty_registry": True}` or `{"per_strategy": ...}`. -/
inductive EnsembleData (μ : Type) where
  | emptyRegistry
  | perStrategy (reports : Dict String (StrategyReport μ))

/-- The variables of the loop over the strategies. -/
structure EnsembleSums (μ : Type) where
  totalW : ℚ := 0
  pSum : ℚ := 0
  cSum : ℚ := 0
  perStrategy : Dict String (StrategyReport μ) := Dict.empty

section

-- `score` gives the signal, `none` for an exception, and the strategy with what it has recorded.
variable {S Market μ : Type} (score : S → Market → Option (Signal μ) × S) (market : Market)

/-- One pass of the loop. -/
def EnsembleSums.add (sums : EnsembleSums μ) (item : String × Registered S) : EnsembleSums μ :=
  if item.2.weight ≤ 0 then sums
  else
    match (score item.2.strategy market).1 with
    | none => sums
    | some sig =>
      { totalW := sums.totalW + item.2.weight
        pSum := sums.pSum + sig.probability * item.2.weight
        cSum := sums.cSum + sig.confidence * item.2.weight
        perStrategy := sums.perStrategy.set item.1
          { probability := sig.probability
            confidence := sig.confidence
            weight := item.2.weight
            metadata := sig.metadata } }

/-- The strategies after they have been asked. -/
def StrategyRegistry.scored (registry : StrategyRegistry S) : StrategyRegistry S :=
  registry.mapValues fun _ entry =>
    if entry.weight ≤ 0 then entry else { entry with strategy := (score entry.strategy market).2 }

/-- `get_ensemble_signal`, with the registry as it is afterwards. -/
def StrategyRegistry.getEnsembleSignal (registry : StrategyRegistry S) :
    Signal (EnsembleData μ) × StrategyRegistry S :=
  if registry.keys = [] then (Signal.make (1 / 2) 0 .emptyRegistry, registry)
  else
    let sums := registry.items.foldl (EnsembleSums.add score market) {}
    let metadata := EnsembleData.perStrategy sums.perStrategy
    (if sums.totalW ≤ 0 then Signal.make (1 / 2) 0 metadata
      else Signal.make (sums.pSum / sums.totalW) (sums.cSum / sums.totalW) metadata,
      registry.scored score market)

/-! ### Contributors -/

/-- The signal of a strategy with its weight, if it takes part. -/
def contribution (entry : Registered S) : Option (ℚ × Signal μ) :=
  if entry.weight ≤ 0 then none else (score entry.strategy market).1.map (entry.weight, ·)

/-- The strategies with a positive weight that do not raise. -/
def StrategyRegistry.contributors (registry : StrategyRegistry S) : List (ℚ × Signal μ) :=
  registry.items.filterMap fun item => contribution score market item.2

end

/-- The weights with one of the values of the signals. -/
def weighted {μ : Type} (value : Signal μ → ℚ) (contributors : List (ℚ × Signal μ)) : List (ℚ × ℚ) :=
  contributors.map fun c => (c.1, value c.2)

/-- What the loop has added up, for the contributors so far. -/
structure EnsembleSums.Of {μ : Type} (sums : EnsembleSums μ) (contributors : List (ℚ × Signal μ)) :
    Prop where
  weight : sums.totalW = Weighted.weight (weighted Signal.probability contributors)
  probability : sums.pSum = Weighted.total (weighted Signal.probability contributors)
  confidence : sums.cSum = Weighted.total (weighted Signal.confidence contributors)

variable {S Market μ : Type} {score : S → Market → Option (Signal μ) × S} {market : Market} {entry : Registered S}
  {sums : EnsembleSums μ} {contributors : List (ℚ × Signal μ)} {registry : StrategyRegistry S}
  {c : ℚ × Signal μ}

lemma contribution_of_nonpos (h : entry.weight ≤ 0) : contribution score market entry = none :=
  if_pos h

lemma contribution_of_raised (h : (score entry.strategy market).1 = none) :
    contribution score market entry = none := by
  simp [contribution, h]

lemma weight_pos_of_contribution (h : contribution score market entry = some c) :
    0 < c.1 := by
  unfold contribution at h
  split_ifs at h with hweight
  obtain ⟨sig, -, rfl⟩ := Option.map_eq_some_iff.mp h
  exact not_le.mp hweight

lemma weight_weighted (value value' : Signal μ → ℚ) (contributors : List (ℚ × Signal μ)) :
    Weighted.weight (weighted value contributors) = Weighted.weight (weighted value' contributors) := by
  rw [Weighted.weight, weighted, List.map_map, Weighted.weight, weighted, List.map_map]
  rfl

/-- One strategy. -/
lemma EnsembleSums.Of.add (h : sums.Of contributors) (score : S → Market → Option (Signal μ) × S)
    (market : Market) (item : String × Registered S) :
    (sums.add score market item).Of
      (contributors ++ (contribution score market item.2).toList) := by
  unfold EnsembleSums.add
  split_ifs with hweight
  · rw [contribution_of_nonpos hweight]
    simpa using h
  · cases hscore : (score item.2.strategy market).1 with
    | none =>
      rw [contribution_of_raised hscore]
      simpa using h
    | some sig =>
      have hcontribution : contribution score market item.2 = some (item.2.weight, sig) := by
        rw [contribution, if_neg hweight, hscore, Option.map_some]
      rw [hcontribution]
      constructor
      · simp [weighted, h.weight]
      · simp [weighted, h.probability, mul_comm]
      · simp [weighted, h.confidence, mul_comm]

/-- All strategies of the registry. -/
lemma foldl_add (score : S → Market → Option (Signal μ) × S) (market : Market)
    (registry : StrategyRegistry S) :
    (registry.items.foldl (EnsembleSums.add score market) {}).Of
      (registry.contributors score market) := by
  unfold StrategyRegistry.contributors
  generalize registry.items = items
  induction items using List.reverseRecOn with
  | nil => exact ⟨rfl, rfl, rfl⟩
  | append_singleton items item ih =>
    have hadd := EnsembleSums.Of.add ih score market item
    rw [List.foldl_concat, List.filterMap_append]
    cases hitem : contribution score market item.2 with
    | none => simpa [hitem] using hadd
    | some c => simpa [hitem] using hadd

lemma weight_pos_of_mem (h : c ∈ registry.contributors score market) : 0 < c.1 := by
  obtain ⟨item, -, hitem⟩ := List.mem_filterMap.mp h
  exact weight_pos_of_contribution hitem

/-! ### The mean of the contributors -/

/-- The two numbers of a signal. -/
def Signal.values {α : Type} (sig : Signal α) : ℚ × ℚ := (sig.probability, sig.confidence)

/-- The means of the values of the contributors, one half and nothing without one. -/
def ensembleValues (contributors : List (ℚ × Signal μ)) : ℚ × ℚ :=
  if contributors.isEmpty then (1 / 2, 0)
  else (Weighted.mean (weighted Signal.probability contributors),
    Weighted.mean (weighted Signal.confidence contributors))

lemma weighted_ne_nil (value : Signal μ → ℚ) (hne : contributors ≠ []) :
    weighted value contributors ≠ [] := by
  simpa [weighted] using hne

lemma weighted_pos (value : Signal μ → ℚ) (hpos : ∀ c ∈ contributors, 0 < c.1) :
    ∀ part ∈ weighted value contributors, 0 < part.1 :=
  List.forall_mem_map.mpr hpos

/-- A mean of numbers between 0 and 1 is not clipped. -/
lemma clipUnit_mean {value : Signal μ → ℚ} (hvalue : ∀ sig, 0 ≤ value sig ∧ value sig ≤ 1)
    (hpos : ∀ c ∈ contributors, 0 < c.1) (hne : contributors ≠ []) :
    clipUnit (Weighted.mean (weighted value contributors)) =
      Weighted.mean (weighted value contributors) := by
  apply clipUnit_of_mem
  constructor
  · apply Weighted.le_mean (weighted_pos value hpos) (weighted_ne_nil value hne)
    exact List.forall_mem_map.mpr fun c _ => (hvalue c.2).1
  · apply Weighted.mean_le (weighted_pos value hpos) (weighted_ne_nil value hne)
    exact List.forall_mem_map.mpr fun c _ => (hvalue c.2).2

lemma values_make {α : Type} (p c : ℚ) (metadata : α) :
    (Signal.make p c metadata).values = (clipUnit p, clipUnit c) := rfl

/-- The signal of the ensemble. -/
lemma values_getEnsembleSignal (score : S → Market → Option (Signal μ) × S) (market : Market)
    (registry : StrategyRegistry S) :
    (registry.getEnsembleSignal score market).1.values =
      ensembleValues (registry.contributors score market) := by
  have hhalf : clipUnit (1 / 2) = 1 / 2 := clipUnit_of_mem (by norm_num)
  have hzero : clipUnit 0 = 0 := clipUnit_of_mem (by norm_num)
  unfold StrategyRegistry.getEnsembleSignal
  split_ifs with hkeys
  · have hnone : registry.contributors score market = [] := by
      simp [StrategyRegistry.contributors, Dict.items, hkeys]
    rw [hnone, values_make, hhalf, hzero]
    rfl
  · have hsums := foldl_add score market registry
    have hpos : ∀ c ∈ registry.contributors score market, 0 < c.1 := fun c => weight_pos_of_mem
    revert hsums hpos
    generalize registry.items.foldl (EnsembleSums.add score market) {} = sums
    generalize registry.contributors score market = contributors
    intro hsums hpos
    dsimp only
    by_cases hne : contributors = []
    · subst hne
      have hweight : sums.totalW ≤ 0 := hsums.weight.le
      rw [if_pos hweight, values_make, hhalf, hzero]
      rfl
    · have hweight : ¬ sums.totalW ≤ 0 := by
        rw [hsums.weight]
        exact not_le.mpr (Weighted.weight_pos (weighted_pos _ hpos) (weighted_ne_nil _ hne))
      have hp : sums.pSum / sums.totalW = Weighted.mean (weighted Signal.probability contributors) := by
        rw [hsums.probability, hsums.weight, Weighted.mean]
      have hc : sums.cSum / sums.totalW = Weighted.mean (weighted Signal.confidence contributors) := by
        rw [hsums.confidence, hsums.weight, weight_weighted _ Signal.confidence, Weighted.mean]
      rw [if_neg hweight, values_make, hp, hc, clipUnit_mean Signal.probability_mem hpos hne,
        clipUnit_mean Signal.confidence_mem hpos hne, ensembleValues, if_neg (by simpa using hne)]

/-- A mean lies between two of its values. -/
lemma exists_mean_between (value : Signal μ → ℚ) (hpos : ∀ c ∈ contributors, 0 < c.1)
    (hne : contributors ≠ []) :
    ∃ low ∈ contributors, ∃ high ∈ contributors,
      value low.2 ≤ Weighted.mean (weighted value contributors) ∧
        Weighted.mean (weighted value contributors) ≤ value high.2 := by
  have hpos' := weighted_pos value hpos
  have hne' := weighted_ne_nil value hne
  obtain ⟨_, hlowPart, hle⟩ := Weighted.exists_le_mean hpos' hne'
  obtain ⟨_, hhighPart, hge⟩ := Weighted.exists_mean_le hpos' hne'
  obtain ⟨low, hlow, rfl⟩ := List.mem_map.mp hlowPart
  obtain ⟨high, hhigh, rfl⟩ := List.mem_map.mp hhighPart
  exact ⟨low, hlow, high, hhigh, hle, hge⟩

lemma ensembleValues_perm {contributors' : List (ℚ × Signal μ)}
    (h : contributors.Perm contributors') :
    ensembleValues contributors = ensembleValues contributors' := by
  unfold ensembleValues weighted
  rw [h.isEmpty_eq, Weighted.mean_perm (h.map fun c => (c.1, c.2.probability)),
    Weighted.mean_perm (h.map fun c => (c.1, c.2.confidence))]

lemma ensembleValues_scale {k : ℚ} (hk : k ≠ 0) (contributors : List (ℚ × Signal μ)) :
    ensembleValues (contributors.map fun c => (k * c.1, c.2)) = ensembleValues contributors := by
  have hweighted (value : Signal μ → ℚ) :
      weighted value (contributors.map fun c => (k * c.1, c.2)) =
        (weighted value contributors).map fun part => (k * part.1, part.2) := by
    simp [weighted]
  unfold ensembleValues
  rw [hweighted, hweighted, Weighted.mean_map_mul hk, Weighted.mean_map_mul hk, List.isEmpty_map]

/-! ### What leaves the contributors alone -/

lemma contributors_perm {registry' : StrategyRegistry S}
    (h : ∀ name, registry.get? name = registry'.get? name) :
    (registry.contributors score market).Perm (registry'.contributors score market) :=
  (Dict.items_perm h).filterMap _

lemma contributors_scaleWeights {k : ℚ} (hk : 0 < k) (registry : StrategyRegistry S) :
    (registry.scaleWeights k hk).contributors score market =
      (registry.contributors score market).map fun c => (k * c.1, c.2) := by
  unfold StrategyRegistry.contributors StrategyRegistry.scaleWeights
  rw [Dict.items_mapValues, List.filterMap_map, List.map_filterMap]
  refine List.filterMap_congr fun item _ => ?_
  have hiff : k * item.2.weight ≤ 0 ↔ item.2.weight ≤ 0 := by
    rw [← not_lt, mul_pos_iff_of_pos_left hk, not_lt]
  simp only [Function.comp_apply, contribution, hiff]
  split_ifs
  · rfl
  · rw [Option.map_map]
    rfl

/-- A strategy that counts for nothing, or that raises. -/
def Registered.Silent (score : S → Market → Option (Signal μ) × S) (market : Market)
    (entry : Registered S) : Prop :=
  entry.weight = 0 ∨ (score entry.strategy market).1 = none

lemma Registered.Silent.contribution (h : entry.Silent score market) :
    contribution score market entry = none := by
  rcases h with h | h
  · exact contribution_of_nonpos h.le
  · exact contribution_of_raised h

lemma contributors_set {name : String} (hname : registry.get? name = none)
    (h : entry.Silent score market) :
    StrategyRegistry.contributors score market (registry.set name entry) =
      registry.contributors score market := by
  unfold StrategyRegistry.contributors
  rw [Dict.items_set_of_none hname, List.filterMap_append]
  simp [h.contribution]

lemma contributors_unregister {name : String}
    (h : ∀ entry, registry.get? name = some entry → entry.Silent score market) :
    (registry.unregister name).contributors score market = registry.contributors score market := by
  unfold StrategyRegistry.contributors StrategyRegistry.unregister
  rw [Dict.items_filter, List.filterMap_filter]
  refine List.filterMap_congr fun item hitem => ?_
  by_cases hname : item.1 = name
  · subst hname
    rw [(h item.2 (Dict.mem_items.mp hitem)).contribution]
    simp
  · simp [hname]

/-! ### The laws of the ensemble -/

/-- What holds of the signal of a registry for a market. -/
structure EnsembleLaws (score : S → Market → Option (Signal μ) × S) (market : Market)
    (registry : StrategyRegistry S) (sig : Signal (EnsembleData μ)) : Prop where
  mean : registry.contributors score market ≠ [] →
    sig.probability =
        Weighted.mean (weighted Signal.probability (registry.contributors score market)) ∧
      sig.confidence =
        Weighted.mean (weighted Signal.confidence (registry.contributors score market))
  probability_between : registry.contributors score market ≠ [] →
    ∃ low ∈ registry.contributors score market, ∃ high ∈ registry.contributors score market,
      low.2.probability ≤ sig.probability ∧ sig.probability ≤ high.2.probability
  confidence_between : registry.contributors score market ≠ [] →
    ∃ low ∈ registry.contributors score market, ∃ high ∈ registry.contributors score market,
      low.2.confidence ≤ sig.confidence ∧ sig.confidence ≤ high.2.confidence
  empty : registry.contributors score market = [] → sig.probability = 1 / 2 ∧ sig.confidence = 0
  order : ∀ registry' : StrategyRegistry S, (∀ name, registry.get? name = registry'.get? name) →
    (registry'.getEnsembleSignal score market).1.values = sig.values
  scale : ∀ (k : ℚ) (hk : 0 < k),
    ((registry.scaleWeights k hk).getEnsembleSignal score market).1.values = sig.values
  add : ∀ name strategy weight registry', registry.get? name = none →
    weight = 0 ∨ (score strategy market).1 = none →
    registry.register name strategy weight = .ok registry' →
    (registry'.getEnsembleSignal score market).1.values = sig.values
  remove : ∀ name, (∀ entry, registry.get? name = some entry → entry.Silent score market) →
    ((registry.unregister name).getEnsembleSignal score market).1.values = sig.values

/-- For every registry, whatever its strategies have recorded, and every market. -/
theorem getEnsembleSignal_laws (score : S → Market → Option (Signal μ) × S) (market : Market)
    (registry : StrategyRegistry S) :
    EnsembleLaws score market registry (registry.getEnsembleSignal score market).1 := by
  have hvalues := values_getEnsembleSignal score market registry
  have hpos : ∀ c ∈ registry.contributors score market, 0 < c.1 := fun c => weight_pos_of_mem
  have hmean : registry.contributors score market ≠ [] →
      (registry.getEnsembleSignal score market).1.probability =
          Weighted.mean (weighted Signal.probability (registry.contributors score market)) ∧
        (registry.getEnsembleSignal score market).1.confidence =
          Weighted.mean (weighted Signal.confidence (registry.contributors score market)) := by
    intro hne
    rw [ensembleValues, if_neg (by simpa using hne)] at hvalues
    exact Prod.mk.inj hvalues
  constructor
  case mean => exact hmean
  case probability_between =>
    intro hne
    rw [(hmean hne).1]
    exact exists_mean_between Signal.probability hpos hne
  case confidence_between =>
    intro hne
    rw [(hmean hne).2]
    exact exists_mean_between Signal.confidence hpos hne
  case empty =>
    intro hnone
    rw [hnone] at hvalues
    exact Prod.mk.inj hvalues
  case order =>
    intro registry' hsame
    rw [values_getEnsembleSignal, hvalues]
    exact ensembleValues_perm (contributors_perm hsame).symm
  case scale =>
    intro k hk
    rw [values_getEnsembleSignal, hvalues, contributors_scaleWeights]
    exact ensembleValues_scale hk.ne' _
  case add =>
    intro name strategy weight registry' hname hsilent hregister
    unfold StrategyRegistry.register at hregister
    split_ifs at hregister
    obtain rfl := Except.ok.inj hregister
    have hentry : Registered.Silent score market ⟨strategy, weight, not_lt.mp ‹_›⟩ := hsilent
    rw [values_getEnsembleSignal, hvalues, contributors_set hname hentry]
  case remove =>
    intro name hsilent
    rw [values_getEnsembleSignal, hvalues, contributors_unregister hsilent]

end PolyCortex
