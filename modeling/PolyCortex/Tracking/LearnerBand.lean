import PolyCortex.Tracking.Learner

/-!
# The band of the least edge

Every call of `check_and_adjust` forces the least edge between its floor and its ceiling, and then lets it
decay toward the one of the configuration, which nothing has forced there. It stays in the band exactly
when the configuration is in the band (`staysInBand_iff`).
-/

namespace PolyCortex.SelfAdjuster

variable {py : PyConversions} {config : LearnerConfig PyFloat} {m : LearnerMetrics PyFloat}
  {l l' : SelfAdjuster PyFloat} {x : PyFloat}

/-- `MIN_EDGE_FLOOR <= x <= MIN_EDGE_CEILING`. -/
def InBand (x : PyFloat) : Prop := ∃ q : ℚ, x = .finite q ∧ 1 / 25 ≤ q ∧ q ≤ 1 / 5

/-- Whatever the file and the calls before, a call that returns leaves the least edge in its band. -/
def StaysInBand (py : PyConversions) (config : LearnerConfig PyFloat) : Prop :=
  ∀ file l ms m l', construct py config file = .ok l → (l.afterCalls ms).checkAndAdjust m = some l' →
    InBand l'.minEdge

/-! ### One call -/

lemma boundMinEdge_clamp (x : PyFloat) :
    boundMinEdge x = pyMax (.finite (1 / 25)) (pyMin x (.finite (1 / 5))) := by
  have hfloor : (minEdgeFloor : PyFloat) = .finite (1 / 25) := by
    rw [minEdgeFloor, PyFloat.ofScientific_eq]
    norm_num
  have hceiling : (minEdgeCeiling : PyFloat) = .finite (1 / 5) := by
    rw [minEdgeCeiling, PyFloat.ofScientific_eq]
    norm_num
  rw [boundMinEdge, hfloor, hceiling]

/-- Whatever it was, bounded it is a number of the band. -/
lemma boundMinEdge_eq (x : PyFloat) : ∃ q : ℚ, 1 / 25 ≤ q ∧ q ≤ 1 / 5 ∧ boundMinEdge x = .finite q := by
  rw [boundMinEdge_clamp]
  exact PyFloat.clamp_eq (1 / 25) (1 / 5) (by norm_num) x

lemma decay_eq (baseline : PyFloat) (q : ℚ) :
    decay baseline (.finite q) = .finite (q * (99 / 100)) + baseline * .finite (1 / 100) := by
  have hrate : (decayRate : PyFloat) = .finite (1 / 100) := by
    rw [decayRate, PyFloat.ofScientific_eq]
    norm_num
  have hrest : (1.0 : PyFloat) - decayRate = .finite (99 / 100) := by
    rw [hrate, PyFloat.ofScientific_eq, PyFloat.finite_sub]
    norm_num
  rw [decay, hrest, hrate, PyFloat.finite_mul]

/-- The decay from within the band stays there when it goes toward a baseline of the band. -/
lemma inBand_decay {q : ℚ} (hlow : 1 / 25 ≤ q) (hhigh : q ≤ 1 / 5) {baseline : PyFloat}
    (hbaseline : InBand baseline) : InBand (decay baseline (.finite q)) := by
  obtain ⟨b, rfl, hblow, hbhigh⟩ := hbaseline
  refine ⟨q * (99 / 100) + b * (1 / 100), ?_, by linarith, by linarith⟩
  rw [decay_eq, PyFloat.finite_mul, PyFloat.finite_add]

/-- A baseline that is bounded and then decays toward itself leaves the band, unless it is in there. -/
lemma inBand_of_decay (h : InBand (decay x (boundMinEdge x))) : InBand x := by
  cases x with
  | finite b =>
    rw [boundMinEdge_clamp, PyFloat.clamp_finite, decay_eq, PyFloat.finite_mul,
      PyFloat.finite_add] at h
    obtain ⟨r, hr, hlow, hhigh⟩ := h
    rw [PyFloat.finite.injEq] at hr
    refine ⟨b, rfl, ?_, ?_⟩
    · by_contra hb
      rw [not_le] at hb
      rw [min_eq_left (by linarith), max_eq_left hb.le] at hr
      linarith
    · by_contra hb
      rw [not_le] at hb
      rw [min_eq_right hb.le, max_eq_right (by norm_num)] at hr
      linarith
  | infinite negative =>
    obtain ⟨q, -, -, hq⟩ := boundMinEdge_eq (.infinite negative)
    rw [hq, decay_eq, PyFloat.infinite_mul_of_pos negative (by norm_num)] at h
    obtain ⟨r, hr, -⟩ := h
    cases hr
  | nan =>
    obtain ⟨q, -, -, hq⟩ := boundMinEdge_eq .nan
    rw [hq, decay_eq, PyFloat.nan_mul, PyFloat.add_nan] at h
    obtain ⟨r, hr, -⟩ := h
    cases hr

/-! ### Runs -/

lemma baselineMinEdge_loadWeights (py : PyConversions) (file : PersistedFile)
    (l : SelfAdjuster PyFloat) : (l.loadWeights py file).2.baselineMinEdge = l.baselineMinEdge := by
  cases file with
  | none => rfl
  | some contents =>
    simp only [loadWeights, catching_snd]
    cases contents with
    | error e => rfl
    | ok data =>
      dsimp only
      rw [restore]
      split
      · rfl
      · dsimp only
        split <;> rfl

lemma baselineMinEdge_construct {file : PersistedFile} (h : construct py config file = .ok l) :
    l.baselineMinEdge = config.minEdge := by
  have hload := baselineMinEdge_loadWeights py file (create config)
  rw [construct] at h
  split at h
  · rename_i loaded hended
    obtain rfl := Except.ok.inj h
    rw [hended] at hload
    exact hload
  · cases h

lemma baselineMinEdge_afterCalls (ms : List (LearnerMetrics PyFloat)) (l : SelfAdjuster PyFloat) :
    (l.afterCalls ms).baselineMinEdge = l.baselineMinEdge := by
  refine afterCalls_induction (P := fun l' => l'.baselineMinEdge = l.baselineMinEdge) rfl ?_ ms
  intro m l₁ l₂ hbaseline hcall
  obtain ⟨due, -, rfl⟩ := checkAndAdjust_cases hcall
  exact hbaseline

/-- Over all files and all metrics the least edge stays in its band exactly when the one of the
configuration is in it. -/
theorem staysInBand_iff (py : PyConversions) (config : LearnerConfig PyFloat) :
    StaysInBand py config ↔ InBand config.minEdge := by
  constructor
  · intro h
    exact inBand_of_decay (h none (create config) [] {} _ rfl rfl)
  · rintro hconfig file l ms m l' hl hcall
    obtain ⟨due, -, rfl⟩ := checkAndAdjust_cases hcall
    obtain ⟨q, hlow, hhigh, hq⟩ := boundMinEdge_eq
      (if due then adjustMinEdge m (l.afterCalls ms).minEdge else (l.afterCalls ms).minEdge)
    dsimp only
    rw [hq, baselineMinEdge_afterCalls, baselineMinEdge_construct hl]
    exact inBand_decay hlow hhigh hconfig

/-- A configuration above the band. -/
def eagerConfig : LearnerConfig PyFloat := { minEdge := .finite (1 / 2) }

/-- The first call ends above the ceiling. -/
theorem eagerConfig_leaves_band :
    ((create eagerConfig).afterCall {}).minEdge = .finite (203 / 1000) ∧
      ¬ StaysInBand .noTexts eagerConfig := by
  have hedge : ((create eagerConfig).afterCall {}).minEdge = .finite (203 / 1000) := by
    decide +kernel
  refine ⟨hedge, fun h => ?_⟩
  obtain ⟨q, hq, -, hhigh⟩ := h none (create eagerConfig) [] {} _ rfl rfl
  obtain rfl := PyFloat.finite.inj (hedge.symm.trans hq)
  norm_num at hhigh

end PolyCortex.SelfAdjuster
