import Mathlib.Algebra.Order.BigOperators.Group.List
import PolyCortex.Data.Grouping
import PolyCortex.Tracking.Learner

/-!
# The weights of the signals

Over the rationals, positive weights that add up to 1 remain so whatever the metrics
(`afterCalls_isDistribution`). A boost is capped before the weights are renormalized, so that it raises a
weight against those left alone only while the weight is at most the cap (`boosted_ratio_iff`).
-/

namespace PolyCortex.SelfAdjuster

variable {m : LearnerMetrics ℚ} {l l' : SelfAdjuster ℚ} {config : LearnerConfig ℚ}
  {weights : Dict String ℚ} {signal other : String} {weight : ℚ}

def Positive (weights : Dict String ℚ) : Prop :=
  ∀ signal weight, weights.get? signal = some weight → 0 < weight

/-- Positive weights that add up to 1. -/
structure IsDistribution (weights : Dict String ℚ) : Prop where
  positive : Positive weights
  sum_eq_one : weights.values.sum = 1

/-- The statistics of the signal ask for a boost. -/
def Boosts (m : LearnerMetrics ℚ) (signal : String) : Prop :=
  ∃ stats, m.perSignalAccuracy.get? signal = some stats ∧ 20 < stats.count ∧ 3 / 5 < stats.accuracy

/-! ### Scaling -/

lemma newWeight_eq (stats : SignalAccuracy ℚ) (oldW : ℚ) :
    newWeight stats oldW =
      if 20 < stats.count ∧ stats.accuracy < 9 / 20 then some (oldW / 2)
      else if 20 < stats.count ∧ 3 / 5 < stats.accuracy then some (min (oldW * (5 / 4)) (2 / 5))
      else none := by
  have hhalf : oldW * 0.5 = oldW / 2 := by norm_num; ring
  have hcap : pyMin (oldW * 1.25) (0.40 : ℚ) = min (oldW * (5 / 4)) (2 / 5) := by
    rw [← pyMin_eq]
    norm_num [pyMin]
  rw [newWeight, hhalf, hcap]
  norm_num

lemma Boosts.actsOn (h : Boosts m signal) : ActsOn m signal := by
  obtain ⟨stats, hstats, hcount, haccuracy⟩ := h
  exact ⟨stats, hstats, hcount, Or.inr (by norm_num; exact haccuracy)⟩

lemma scaledWeight_of_boosts (h : Boosts m signal) (weight : ℚ) :
    scaledWeight m signal weight = min (weight * (5 / 4)) (2 / 5) := by
  obtain ⟨stats, hstats, hcount, haccuracy⟩ := h
  have hweak : ¬ (20 < stats.count ∧ stats.accuracy < 9 / 20) := fun hweak => by linarith [hweak.2]
  rw [scaledWeight, hstats, Option.elim_some, newWeight_eq, if_neg hweak,
    if_pos ⟨hcount, haccuracy⟩, Option.getD_some]

lemma scaledWeight_pos (m : LearnerMetrics ℚ) (signal : String) (h : 0 < weight) :
    0 < scaledWeight m signal weight := by
  rw [scaledWeight]
  cases m.perSignalAccuracy.get? signal with
  | none => exact h
  | some stats =>
    rw [Option.elim_some, newWeight_eq]
    split_ifs
    · exact half_pos h
    · exact lt_min (by positivity) (by norm_num)
    · exact h

lemma Positive.scaled (h : Positive weights) (m : LearnerMetrics ℚ) :
    Positive (weights.mapValues (scaledWeight m)) := by
  intro signal weight hget
  obtain ⟨oldW, hold, rfl⟩ := Option.map_eq_some_iff.mp hget
  exact scaledWeight_pos m signal (h signal oldW hold)

/-! ### Renormalizing -/

lemma totalWeight_eq (weights : Dict String ℚ) : totalWeight weights = weights.values.sum := by
  rw [totalWeight, List.sum_eq_foldl]

lemma Positive.totalWeight_pos (h : Positive weights) (hkeys : weights.keys ≠ []) :
    0 < totalWeight weights := by
  have hvalues : ∀ weight ∈ weights.values, 0 < weight := by
    intro weight hweight
    obtain ⟨signal, hget⟩ := (Dict.mem_values_iff _ _).mp hweight
    exact h signal weight hget
  have hne : weights.values ≠ [] := by
    obtain ⟨signal, hsignal⟩ := List.exists_mem_of_ne_nil _ hkeys
    obtain ⟨weight, hget⟩ := Option.isSome_iff_exists.mp ((weights.mem_keys signal).mp hsignal)
    exact List.ne_nil_of_mem ((Dict.mem_values_iff _ _).mpr ⟨signal, hget⟩)
  rw [totalWeight_eq]
  exact List.sum_pos _ hvalues hne

lemma renormalize_of_pos (h : 0 < totalWeight weights) :
    renormalize weights = weights.mapValues fun _ weight => weight / totalWeight weights :=
  if_pos h

/-- Renormalized weights add up to 1. -/
lemma sum_renormalize (h : 0 < totalWeight weights) : (renormalize weights).values.sum = 1 := by
  rw [renormalize_of_pos h, Dict.values_mapValues]
  simp only [div_eq_mul_inv]
  rw [List.sum_map_mul_right, List.map_id', ← totalWeight_eq]
  exact mul_inv_cancel₀ h.ne'

lemma Positive.isDistribution_renormalize (h : Positive weights) (hkeys : weights.keys ≠ []) :
    IsDistribution (renormalize weights) := by
  have htotal := h.totalWeight_pos hkeys
  refine ⟨fun signal weight hget => ?_, sum_renormalize htotal⟩
  rw [renormalize_of_pos htotal] at hget
  obtain ⟨oldW, hold, rfl⟩ := Option.map_eq_some_iff.mp hget
  exact div_pos (h signal oldW hold) htotal

/-! ### Runs -/

lemma keys_renormalize (weights : Dict String ℚ) : (renormalize weights).keys = weights.keys := by
  rw [renormalize]
  split_ifs <;> rfl

lemma keys_adjustWeights (m : LearnerMetrics ℚ) (weights : Dict String ℚ) :
    (adjustWeights m weights).keys = weights.keys := by
  by_cases h : ∃ signal ∈ weights.keys, ActsOn m signal
  · rw [adjustWeights_of_acts h, keys_renormalize, Dict.keys_mapValues]
  · rw [adjustWeights_of_not_acts (by simpa using h)]

lemma IsDistribution.adjustWeights (h : IsDistribution weights) (m : LearnerMetrics ℚ) :
    IsDistribution (adjustWeights m weights) := by
  by_cases hacts : ∃ signal ∈ weights.keys, ActsOn m signal
  · rw [adjustWeights_of_acts hacts]
    obtain ⟨signal, hsignal, -⟩ := hacts
    exact (h.positive.scaled m).isDistribution_renormalize (List.ne_nil_of_mem hsignal)
  · rw [adjustWeights_of_not_acts (by simpa using hacts)]
    exact h

/-- A call keeps the distribution and its signals. -/
lemma IsDistribution.checkAndAdjust (h : IsDistribution l.signalWeights)
    (hcall : l.checkAndAdjust m = some l') :
    IsDistribution l'.signalWeights ∧ l'.signalWeights.keys = l.signalWeights.keys := by
  obtain ⟨due, -, rfl⟩ := checkAndAdjust_cases hcall
  exact ⟨h.adjustWeights m, keys_adjustWeights m _⟩

/-- Whatever the metrics of the calls, the weights remain a distribution over the same signals. -/
theorem afterCalls_isDistribution (h : IsDistribution l.signalWeights)
    (ms : List (LearnerMetrics ℚ)) :
    IsDistribution (l.afterCalls ms).signalWeights ∧
      (l.afterCalls ms).signalWeights.keys = l.signalWeights.keys := by
  refine afterCalls_induction (P := fun l' => IsDistribution l'.signalWeights ∧
    l'.signalWeights.keys = l.signalWeights.keys) ⟨h, rfl⟩ ?_ ms
  rintro m l₁ l₂ ⟨hweights, hkeys⟩ hcall
  obtain ⟨hweights', hkeys'⟩ := hweights.checkAndAdjust hcall
  exact ⟨hweights', hkeys'.trans hkeys⟩

/-- The weights of `settings.yaml`. -/
def settingsConfig : LearnerConfig ℚ where
  signalWeights :=
    [("order_book", 3 / 20), ("momentum", 1 / 10), ("sentiment", 3 / 10), ("news_volume", 1 / 10),
      ("cross_market", 1 / 10), ("tcn_model", 1 / 4)].foldl (fun weights item =>
        weights.set item.1 item.2) .empty

lemma settingsConfig_isDistribution : IsDistribution settingsConfig.signalWeights where
  positive := by
    intro signal weight hget
    simp only [settingsConfig, List.foldl_cons, List.foldl_nil, Dict.get?_set,
      Dict.get?_empty] at hget
    split_ifs at hget <;> obtain rfl := Option.some.inj hget <;> norm_num
  sum_eq_one := by decide +kernel

/-- Four of the signals were mostly wrong and one mostly right. -/
def onlySentiment : LearnerMetrics ℚ where
  perSignalAccuracy :=
    [("order_book", 3 / 10), ("momentum", 3 / 10), ("sentiment", 7 / 10), ("news_volume", 3 / 10),
      ("tcn_model", 3 / 10)].foldl (fun stats item => stats.set item.1 ⟨30, item.2⟩) .empty

theorem afterCalls_isDistribution_settings :
    ((create settingsConfig).afterCalls [onlySentiment, onlySentiment]).signalWeights.values.sum = 1 :=
  (afterCalls_isDistribution (l := create settingsConfig) settingsConfig_isDistribution
    [onlySentiment, onlySentiment]).1.sum_eq_one

/-! ### Boosts -/

/-- From a configuration with such weights, a boost does not lower the weight of a signal against one
that is left alone, exactly when it is at most the cap. -/
theorem boosted_ratio_iff (hconfig : IsDistribution config.signalWeights)
    (ms : List (LearnerMetrics ℚ)) (hcall : ((create config).afterCalls ms).checkAndAdjust m = some l')
    (hboosts : Boosts m signal) (halone : ¬ ActsOn m other) {weight weight₂ : ℚ}
    (hweight : ((create config).afterCalls ms).signalWeights.get? signal = some weight)
    (hweight₂ : ((create config).afterCalls ms).signalWeights.get? other = some weight₂) :
    ∃ weight' weight₂', l'.signalWeights.get? signal = some weight' ∧
      l'.signalWeights.get? other = some weight₂' ∧
      (weight / weight₂ ≤ weight' / weight₂' ↔ weight ≤ 2 / 5) := by
  have hpositive : Positive ((create config).afterCalls ms).signalWeights :=
    (afterCalls_induction (P := fun l => IsDistribution l.signalWeights) hconfig
      (fun _ _ _ h hcall => (h.checkAndAdjust hcall).1) ms).positive
  have hpos : 0 < weight := hpositive _ _ hweight
  have hpos₂ : 0 < weight₂ := hpositive _ _ hweight₂
  obtain ⟨due, -, rfl⟩ := checkAndAdjust_cases hcall
  have hsignal := Dict.mem_keys_of_get? hweight
  have htotal : 0 < totalWeight
      (((create config).afterCalls ms).signalWeights.mapValues (scaledWeight m)) :=
    (hpositive.scaled m).totalWeight_pos (List.ne_nil_of_mem hsignal)
  dsimp only
  rw [adjustWeights_of_acts ⟨signal, hsignal, hboosts.actsOn⟩, renormalize_of_pos htotal]
  simp only [Dict.get?_mapValues, hweight, hweight₂, Option.map_some]
  refine ⟨_, _, rfl, rfl, ?_⟩
  rw [scaledWeight_of_boosts hboosts, scaledWeight_of_not_acts halone,
    div_div_div_cancel_right₀ htotal.ne', div_le_div_iff_of_pos_right hpos₂, le_min_iff]
  exact ⟨And.right, fun hcap => ⟨by linarith, hcap⟩⟩

/-- Sentiment alone was mostly right. -/
def boostSentiment : LearnerMetrics ℚ where
  perSignalAccuracy := Dict.empty.set "sentiment" ⟨30, 7 / 10⟩

lemma boosts_sentiment : Boosts boostSentiment "sentiment" :=
  ⟨⟨30, 7 / 10⟩, rfl, by norm_num, by norm_num⟩

lemma not_actsOn_crossMarket : ¬ ActsOn boostSentiment "cross_market" := by
  rintro ⟨stats, hstats, -⟩
  cases hstats

theorem boosted_ratio_iff_settings : ∃ weight' weight₂' : ℚ,
    ((create settingsConfig).afterCall boostSentiment).signalWeights.get? "sentiment" =
        some weight' ∧
      ((create settingsConfig).afterCall boostSentiment).signalWeights.get? "cross_market" =
        some weight₂' ∧
      3 / 10 / (1 / 10) ≤ weight' / weight₂' := by
  obtain ⟨weight', weight₂', hweight', hweight₂', hiff⟩ :=
    boosted_ratio_iff settingsConfig_isDistribution [] rfl boosts_sentiment
      not_actsOn_crossMarket rfl rfl
  exact ⟨weight', weight₂', hweight', hweight₂', hiff.mpr (by norm_num)⟩

/-- Once the others have been halved the weight of sentiment is above the cap, and its next boost lowers
it against the signal that is left alone. -/
theorem boosted_sentiment_loses :
    Boosts boostSentiment "sentiment" ∧ ¬ ActsOn boostSentiment "cross_market" ∧
      IsDistribution settingsConfig.signalWeights ∧
      (["sentiment", "cross_market"].map
        ((create settingsConfig).afterCalls [onlySentiment]).signalWeights.get?) =
          [some (15 / 31), some (4 / 31)] ∧
      (["sentiment", "cross_market"].map
        ((create settingsConfig).afterCalls [onlySentiment, boostSentiment]).signalWeights.get?) =
          [some (31 / 71), some (10 / 71)] ∧
      (31 / 71 : ℚ) / (10 / 71) < 15 / 31 / (4 / 31) := by
  refine ⟨boosts_sentiment, not_actsOn_crossMarket, settingsConfig_isDistribution, ?_, ?_, ?_⟩
  · decide +kernel
  · decide +kernel
  · norm_num

end PolyCortex.SelfAdjuster
