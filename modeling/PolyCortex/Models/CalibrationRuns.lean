import PolyCortex.Models.Calibration

/-!
# Runs of the calibrator

A calibrator is fitted, or loads a file. A fit leaves thresholds that are in order and clipped: so the
calibration is a monotone map (`runCalls_isCalibration`), and what is saved after it is loaded as it
was (`load_save`). A file has the thresholds that somebody has written into it, and nothing looks at
their order (`fallingFile_not_calibration`).
-/

namespace PolyCortex

/-- A call of `fit`. -/
structure FitCall where
  samples : List (PyFloat × PyFloat)
  tradeCount : Option ℤ := none
  now : String

/-- A call that may change the calibrator; `fit_from_trades` ends in a call of `fit`. -/
inductive CalibratorCall where
  | fit (call : FitCall)
  | load (file : PersistedFile)

namespace ProbabilityCalibrator

variable {num : Numerics} {py : PyConversions} {c : ProbabilityCalibrator} {args : CalibratorArgs}

def perform (num : Numerics) (py : PyConversions) (c : ProbabilityCalibrator) :
    CalibratorCall → ProbabilityCalibrator
  | .fit call => (c.fit num call.samples call.tradeCount call.now).2
  | .load file => (c.load py file).2

def runCalls (num : Numerics) (py : PyConversions) (calls : List CalibratorCall)
    (c : ProbabilityCalibrator) : ProbabilityCalibrator :=
  calls.foldl (perform num py) c

/-- The calibration is a monotone map into the interval of the clipped probabilities. -/
def IsCalibration (num : Numerics) (c : ProbabilityCalibrator) : Prop :=
  ∃ g : ℚ → ℚ, Monotone g ∧ (∀ p, 1 / 100 ≤ g p ∧ g p ≤ 99 / 100) ∧
    ∀ p, c.calibrate num (.finite p) = .finite (g p)

/-! ### Clipping -/

lemma clip_mono {low high p q : ℚ} (h : p ≤ q) :
    EdgeDetector.clip low high p ≤ EdgeDetector.clip low high q :=
  min_le_min (max_le_max h le_rfl) le_rfl

lemma clip_mem {low high : ℚ} (h : low ≤ high) (p : ℚ) :
    low ≤ EdgeDetector.clip low high p ∧ EdgeDetector.clip low high p ≤ high :=
  ⟨le_min (le_max_right _ _) h, min_le_right _ _⟩

lemma clip_of_mem {low high p : ℚ} (h : low ≤ p ∧ p ≤ high) : EdgeDetector.clip low high p = p := by
  rw [EdgeDetector.clip, max_eq_left h.1, min_eq_left h.2]

@[simp] lemma clipProbability_finite (p : ℚ) :
    clipProbability (.finite p) = .finite (EdgeDetector.clip (1 / 100) (99 / 100) p) := rfl

/-- A clipped probability stays when it is clipped again. -/
lemma clipProbability_idem (x : PyFloat) :
    clipProbability (clipProbability x) = clipProbability x := by
  match x with
  | .finite p =>
    rw [clipProbability_finite, clipProbability_finite, clip_of_mem (clip_mem (by norm_num) p)]
  | .infinite true => decide +kernel
  | .infinite false => decide +kernel
  | .nan => rfl

/-! ### Thresholds in order -/

/-- The thresholds, once clipped, are numbers that go up or stay. -/
def InOrder (thresholds : List PyFloat) : Prop :=
  ∃ qs : List ℚ, thresholds.map clipProbability = qs.map .finite ∧ qs.Pairwise (· ≤ ·)

/-- The thresholds of the calibrator are in order. -/
def Ordered (c : ProbabilityCalibrator) : Prop :=
  ∃ xs ys : List ℚ, c.xThresholds = xs.map .finite ∧ c.yThresholds = ys.map .finite ∧
    xs.Pairwise (· ≤ ·) ∧ ys.Pairwise (· ≤ ·)

/-- A fitted calibrator with finite thresholds interpolates between them. -/
lemma calibrate_of_fitted (hnum : num.Documented) {xs ys : List ℚ} (henabled : c.enabled = true)
    (hfitted : c.isFitted = true) (hxs : c.xThresholds = xs.map .finite)
    (hys : c.yThresholds = ys.map .finite) (horder : xs.Pairwise (· ≤ ·)) (p : ℚ) :
    c.calibrate num (.finite p) =
      .finite (EdgeDetector.clip (1 / 100) (99 / 100)
        (Interpolation.interpolate (EdgeDetector.clip (1 / 100) (99 / 100) p) (xs.zip ys))) := by
  have hlength : 2 ≤ xs.length ∧ xs.length = ys.length := by
    simpa [isFitted, hxs, hys] using hfitted
  obtain ⟨y, ys', rfl⟩ : ∃ y ys', ys = y :: ys' :=
    List.exists_cons_of_ne_nil (List.ne_nil_of_length_pos (by omega))
  rw [calibrate]
  simp only [henabled, hfitted, not_true_eq_false, or_self, if_false, hxs, hys,
    clipProbability_finite]
  have hlast : ((y :: ys').map PyFloat.finite).getLastD .nan =
      .finite ((y :: ys').getLast (by simp)) := by
    rw [List.getLastD_eq_getLast?, List.getLast?_map, List.getLast?_eq_getLast_of_ne_nil (by simp)]
    rfl
  rw [hlast, List.map_cons, List.headD_cons, ← List.map_cons,
    hnum.interp_eq _ _ _ _ _ hlength.2 horder rfl (List.getLast?_eq_getLast_of_ne_nil (by simp)),
    clipProbability_finite]

/-- Without a fit the probabilities are clipped. -/
lemma isCalibration_of_not_ready (h : ¬ (c.enabled = true ∧ c.isFitted = true)) :
    c.IsCalibration num := by
  refine ⟨EdgeDetector.clip (1 / 100) (99 / 100), fun p q => clip_mono,
    clip_mem (by norm_num), fun p => ?_⟩
  rw [calibrate, if_pos (by rwa [← not_and_or]), clipProbability_finite]

/-- Thresholds in order make a monotone map. -/
lemma Ordered.isCalibration (h : c.Ordered) (hnum : num.Documented) : c.IsCalibration num := by
  obtain ⟨xs, ys, hxs, hys, hx, hy⟩ := h
  by_cases hready : c.enabled = true ∧ c.isFitted = true
  · refine ⟨_, fun p q hpq => ?_, fun p => ?_,
      calibrate_of_fitted hnum hready.1 hready.2 hxs hys hx⟩
    · exact clip_mono (Interpolation.interpolate_mono (Interpolation.ascending_zip hx hy)
        (clip_mono hpq))
    · exact clip_mem (by norm_num) _
  · exact isCalibration_of_not_ready hready

/-! ### Calls -/

/-- What a call of `fit` does: nothing, or it leaves the thresholds of the regression, clipped. -/
lemma fit_cases (num : Numerics) (c : ProbabilityCalibrator) (call : FitCall) :
    (c.fit num call.samples call.tradeCount call.now).2 = c ∨
      (c.fit num call.samples call.tradeCount call.now).2 =
        { c with
          xThresholds := (num.isotonic (cleanSamples call.samples)).xThresholds.map .finite
          yThresholds := (num.isotonic (cleanSamples call.samples)).yThresholds.map
            fun y => clipProbability (.finite y)
          sampleCount := (cleanSamples call.samples).length
          lastFitTradeCount := call.tradeCount.getD (cleanSamples call.samples).length
          fittedAt := some call.now } := by
  rw [fit]
  dsimp only
  split_ifs
  · exact Or.inl rfl
  · exact Or.inl rfl
  · exact Or.inr rfl

/-- What is assigned, in part or in full, begins with the thresholds. -/
lemma restore_fields (payload : PersistedValue) (xs ys : List PyFloat) (c : ProbabilityCalibrator) :
    (c.restore py payload xs ys).2.xThresholds = xs.map clipProbability ∧
      (c.restore py payload xs ys).2.yThresholds = ys.map clipProbability ∧
      (c.restore py payload xs ys).2.method = c.method ∧
      (c.restore py payload xs ys).2.enabled = c.enabled := by
  rw [restore]
  dsimp only
  split
  · exact ⟨rfl, rfl, rfl, rfl⟩
  · split <;> exact ⟨rfl, rfl, rfl, rfl⟩

/-- What a call of `load` does: nothing, or it leaves the thresholds of the file, clipped. -/
lemma load_cases (py : PyConversions) (file : PersistedFile) (c : ProbabilityCalibrator) :
    (c.load py file).2 = c ∨ ∃ payload xs ys, file = some (.ok payload) ∧
      readThresholds py c.method payload = .ok (xs, ys) ∧
      (c.load py file).2 = (c.restore py payload xs ys).2 := by
  match file with
  | none => exact Or.inl rfl
  | some contents =>
    by_cases henabled : c.enabled = true
    · simp only [load, henabled, not_true_eq_false, if_false]
      rw [catching_snd]
      cases contents with
      | error e => exact Or.inl rfl
      | ok payload =>
        dsimp only
        cases hread : readThresholds py c.method payload with
        | error e => exact Or.inl rfl
        | ok thresholds => exact Or.inr ⟨payload, thresholds.1, thresholds.2, rfl, hread, rfl⟩
    · simp [load, henabled]

/-- The thresholds that a call takes from a file are in order. -/
def TakesInOrder (py : PyConversions) (method : String) :
    CalibratorCall → Prop
  | .fit _ => True
  | .load file => ∀ payload xs ys, file = some (.ok payload) →
    readThresholds py method payload = .ok (xs, ys) → InOrder xs ∧ InOrder ys

/-- Between clipped thresholds that go up, the calibration is monotone only if their values do. -/
theorem isCalibration_iff (hnum : num.Documented) {xs ys : List ℚ} (henabled : c.enabled = true)
    (hfitted : c.isFitted = true) (hxs : c.xThresholds = xs.map .finite)
    (hys : c.yThresholds = ys.map .finite)
    (hxclip : ∀ x ∈ xs, 1 / 100 ≤ x ∧ x ≤ 99 / 100) (hyclip : ∀ y ∈ ys, 1 / 100 ≤ y ∧ y ≤ 99 / 100)
    (hincreasing : xs.Pairwise (· < ·)) :
    c.IsCalibration num ↔ ys.Pairwise (· ≤ ·) := by
  have horder : xs.Pairwise (· ≤ ·) := hincreasing.imp le_of_lt
  constructor
  · rintro ⟨g, hmono, -, hg⟩
    have hlength : xs.length = ys.length := by
      simpa [isFitted, hxs, hys] using (of_decide_eq_true hfitted).2
    have hzip : (xs.zip ys).Pairwise fun p q => p.1 < q.1 := by
      rw [← List.pairwise_map, List.map_fst_zip hlength.le]
      exact hincreasing
    have hknot : ∀ point ∈ xs.zip ys, g point.1 = point.2 := by
      intro point hpoint
      obtain ⟨hx, hy⟩ := List.of_mem_zip hpoint
      have hvalue := hg point.1
      rw [calibrate_of_fitted hnum henabled hfitted hxs hys horder, clip_of_mem (hxclip _ hx),
        Interpolation.interpolate_knot hzip hpoint, clip_of_mem (hyclip _ hy)] at hvalue
      exact (PyFloat.finite.inj hvalue).symm
    rw [List.pairwise_iff_getElem]
    intro i j hi hj hij
    have hi' : i < xs.length := hlength ▸ hi
    have hj' : j < xs.length := hlength ▸ hj
    have hle : xs[i] ≤ xs[j] := List.pairwise_iff_getElem.mp horder i j hi' hj' hij
    have hleft := hknot (xs[i], ys[i]) (List.mem_iff_getElem.mpr ⟨i, by simp; omega, by simp⟩)
    have hright := hknot (xs[j], ys[j]) (List.mem_iff_getElem.mpr ⟨j, by simp; omega, by simp⟩)
    calc ys[i] = g xs[i] := hleft.symm
      _ ≤ g xs[j] := hmono hle
      _ = ys[j] := hright
  · exact fun hy => Ordered.isCalibration ⟨xs, ys, hxs, hys, horder, hy⟩ hnum

/-! ### Runs -/

lemma Ordered.perform (hnum : num.Documented) (h : c.Ordered) {call : CalibratorCall}
    (hcall : TakesInOrder py c.method call) :
    (c.perform num py call).Ordered ∧ (c.perform num py call).method = c.method := by
  cases call with
  | fit call =>
    rw [ProbabilityCalibrator.perform]
    rcases fit_cases num c call with hsame | hfit
    · rw [hsame]
      exact ⟨h, rfl⟩
    · rw [hfit]
      refine ⟨⟨_, (num.isotonic (cleanSamples call.samples)).yThresholds.map
        (EdgeDetector.clip (1 / 100) (99 / 100)), rfl, ?_, ?_, ?_⟩, rfl⟩
      · rw [List.map_map]
        rfl
      · exact (hnum.x_increasing _).imp le_of_lt
      · exact (hnum.y_nondecreasing _).map _ fun _ _ => clip_mono
  | load file =>
    rw [ProbabilityCalibrator.perform]
    rcases load_cases py file c with hsame | ⟨payload, xs, ys, hfile, hread, hload⟩
    · rw [hsame]
      exact ⟨h, rfl⟩
    · obtain ⟨⟨qs, hqs, hx⟩, rs, hrs, hy⟩ := hcall payload xs ys hfile hread
      obtain ⟨hxs, hys, hmethod, -⟩ := @restore_fields py payload xs ys c
      rw [hload]
      exact ⟨⟨qs, rs, hxs.trans hqs, hys.trans hrs, hx, hy⟩, hmethod⟩

lemma Ordered.runCalls (hnum : num.Documented) (h : c.Ordered) {calls : List CalibratorCall}
    (hcalls : ∀ call ∈ calls, TakesInOrder py c.method call) : (c.runCalls num py calls).Ordered := by
  induction calls generalizing c with
  | nil => exact h
  | cons call calls ih =>
    obtain ⟨hcall, hcalls⟩ := List.forall_mem_cons.mp hcalls
    obtain ⟨hordered, hmethod⟩ := h.perform hnum hcall
    rw [ProbabilityCalibrator.runCalls, List.foldl_cons]
    exact ih hordered (by rwa [hmethod])

lemma enabled_perform (c : ProbabilityCalibrator) (call : CalibratorCall) :
    (c.perform num py call).enabled = c.enabled := by
  cases call with
  | fit call =>
    rcases fit_cases num c call with h | h <;> rw [perform, h]
  | load file =>
    rcases load_cases py file c with h | ⟨payload, xs, ys, -, -, h⟩
    · rw [perform, h]
    · rw [perform, h, (restore_fields payload xs ys c).2.2.2]

lemma enabled_runCalls (c : ProbabilityCalibrator) (calls : List CalibratorCall) :
    (c.runCalls num py calls).enabled = c.enabled := by
  induction calls generalizing c with
  | nil => rfl
  | cons call calls ih =>
    rw [runCalls, List.foldl_cons]
    exact (ih _).trans (enabled_perform c call)

lemma ordered_create (h : create args = some c) : c.Ordered := by
  rw [create] at h
  split_ifs at h
  obtain rfl := Option.some.inj h
  exact ⟨[], [], rfl, rfl, List.Pairwise.nil, List.Pairwise.nil⟩

/-- After any calls of `fit` and of `load`, when the files of an enabled calibrator have their
thresholds in order: the calibration is a monotone map into the interval of the clipped
probabilities. -/
theorem runCalls_isCalibration (hnum : num.Documented) (hcreate : create args = some c)
    (calls : List CalibratorCall)
    (hcalls : c.enabled = true → ∀ call ∈ calls, TakesInOrder py c.method call) :
    (c.runCalls num py calls).IsCalibration num := by
  by_cases henabled : c.enabled = true
  · exact ((ordered_create hcreate).runCalls hnum (hcalls henabled)).isCalibration hnum
  · refine isCalibration_of_not_ready fun hready => henabled ?_
    rw [← enabled_runCalls c calls]
    exact hready.1

/-! ### Saving and loading -/

/-- The calibrator has the arguments of `fresh`, and its thresholds are clipped. -/
structure FittedFrom (fresh c : ProbabilityCalibrator) : Prop where
  args : c = { fresh with
    xThresholds := c.xThresholds
    yThresholds := c.yThresholds
    sampleCount := c.sampleCount
    lastFitTradeCount := c.lastFitTradeCount
    fittedAt := c.fittedAt }
  x_clipped : ∀ x ∈ c.xThresholds, clipProbability x = x
  y_clipped : ∀ y ∈ c.yThresholds, clipProbability y = y

lemma FittedFrom.of_create (h : create args = some c) : FittedFrom c c := by
  rw [create] at h
  split_ifs at h
  obtain rfl := Option.some.inj h
  exact ⟨rfl, by simp, by simp⟩

/-- The thresholds of a regression are clipped: it is given clipped probabilities. -/
lemma FittedFrom.fit {fresh : ProbabilityCalibrator} (h : FittedFrom fresh c)
    (hnum : num.Documented) (call : FitCall) : FittedFrom fresh (c.perform num py (.fit call)) := by
  rw [perform]
  rcases fit_cases num c call with hsame | hfit
  · rw [hsame]
    exact h
  · rw [hfit]
    refine ⟨?_, ?_, ?_⟩
    · rw [h.args]
    · intro x hx
      obtain ⟨q, hq, rfl⟩ := List.mem_map.mp hx
      obtain ⟨sample, hsample, rfl⟩ := List.mem_map.mp (hnum.x_mem _ q hq)
      obtain ⟨raw, -, hclean⟩ := List.mem_filterMap.mp hsample
      match raw, hclean with
      | (.finite prob, .finite label), hclean =>
        obtain rfl := Option.some.inj hclean
        exact clipProbability_idem (.finite prob)
    · intro y hy
      obtain ⟨q, -, rfl⟩ := List.mem_map.mp hy
      exact clipProbability_idem (.finite q)

lemma FittedFrom.runCalls {fresh : ProbabilityCalibrator} (h : FittedFrom fresh c)
    (hnum : num.Documented) (fits : List FitCall) :
    FittedFrom fresh (c.runCalls num py (fits.map .fit)) := by
  induction fits generalizing c with
  | nil => exact h
  | cons call fits ih =>
    rw [ProbabilityCalibrator.runCalls, List.map_cons, List.foldl_cons]
    exact ih (h.fit hnum call)

lemma readThresholds_of_fields {payload : PersistedValue} {method : String} {xs ys : List PyFloat}
    (hmethod : payload.getItem "method" = .ok (.str method))
    (hxs : payload.getItem "x_thresholds" = .ok (.arr (xs.map .float)))
    (hys : payload.getItem "y_thresholds" = .ok (.arr (ys.map .float)))
    (hlength : 2 ≤ xs.length ∧ xs.length = ys.length) :
    readThresholds py method payload = .ok (xs, ys) := by
  rw [readThresholds_of_values hmethod hxs (PersistedValue.toFloats_floats py xs) hys
    (PersistedValue.toFloats_floats py ys)]
  exact if_pos ⟨rfl, hlength⟩

lemma restore_of_counts {payload : PersistedValue} {xs ys : List PyFloat} {n m : ℤ}
    (hn : ∀ default, (payload.getD "sample_count" default).toInt py = .ok n)
    (hm : ∀ default, (payload.getD "last_fit_trade_count" default).toInt py = .ok m) :
    c.restore py payload xs ys =
      (.ok true, { c.withThresholds xs ys with
        sampleCount := n
        lastFitTradeCount := m
        fittedAt := readFittedAt py payload }) := by
  rw [restore]
  simp only [hn, hm]

lemma readFittedAt_payload (c : ProbabilityCalibrator) : readFittedAt py c.payload = c.fittedAt := by
  have hget : c.payload.getD "fitted_at" .null = (c.fittedAt.map .str).getD .null := rfl
  rw [readFittedAt, hget]
  cases c.fittedAt <;> rfl

/-- A fitted calibrator is loaded as it was saved. -/
lemma FittedFrom.load_payload {fresh : ProbabilityCalibrator} (h : FittedFrom fresh c)
    (henabled : c.enabled = true) (hfitted : c.isFitted = true) :
    fresh.load py (some (.ok c.payload)) = (.ok true, c) := by
  have hmethod : c.method = fresh.method := by rw [h.args]
  have henabled' : fresh.enabled = true := by
    rw [h.args] at henabled
    exact henabled
  have hx : c.xThresholds.map clipProbability = c.xThresholds :=
    (List.map_congr_left h.x_clipped).trans (List.map_id' _)
  have hy : c.yThresholds.map clipProbability = c.yThresholds :=
    (List.map_congr_left h.y_clipped).trans (List.map_id' _)
  have hread : readThresholds py fresh.method c.payload = .ok (c.xThresholds, c.yThresholds) :=
    readThresholds_of_fields (by rw [← hmethod]; rfl) rfl rfl (of_decide_eq_true hfitted)
  have hrestore : fresh.restore py c.payload c.xThresholds c.yThresholds = (.ok true, c) := by
    rw [restore_of_counts (fun _ => rfl) (fun _ => rfl), withThresholds, hx, hy,
      readFittedAt_payload, ← h.args]
  simp only [load, henabled', not_true_eq_false, if_false, hread, hrestore]
  rfl

/-- After any calls of `fit`, an enabled calibrator that is fitted is saved, and loaded into a fresh one
with the same arguments: that one calibrates and is refitted as the first. -/
theorem load_save (hnum : num.Documented) {fresh : ProbabilityCalibrator}
    (hcreate : create args = some fresh) (fits : List FitCall)
    (hc : fresh.runCalls num py (fits.map .fit) = c) (henabled : c.enabled = true)
    (hfitted : c.isFitted = true) :
    ∃ payload loaded, c.save = some payload ∧
      fresh.load py (some (.ok payload)) = (.ok true, loaded) ∧
      (∀ probability, loaded.calibrate num probability = c.calibrate num probability) ∧
      ∀ tradeCount, loaded.shouldRefit tradeCount = c.shouldRefit tradeCount := by
  have hfrom : FittedFrom fresh c := hc ▸ (FittedFrom.of_create hcreate).runCalls hnum fits
  refine ⟨c.payload, c, ?_, hfrom.load_payload henabled hfitted, fun _ => rfl, fun _ => rfl⟩
  rw [save, if_neg (by simp [henabled, hfitted])]

/-! ### A file out of order -/

/-- The libraries, as far as the regression finds its samples in order. -/
def referenceNumerics : Numerics where
  isotonic samples :=
    if (samples.map (·.1)).Pairwise (· < ·) ∧ (samples.map (·.2)).Pairwise (· ≤ ·) then
      ⟨samples.map (·.1), samples.map (·.2), samples.map (·.2)⟩
    else ⟨[], [], []⟩
  interp x xp fp _ _ :=
    match x, xp.filterMap PyFloat.toRat?, fp.filterMap PyFloat.toRat? with
    | .finite x, xp, fp => .finite (Interpolation.interpolate x (xp.zip fp))
    | _, _, _ => .nan

lemma referenceNumerics_documented : referenceNumerics.Documented where
  same_length samples := by
    rw [referenceNumerics]
    dsimp only
    split_ifs <;> simp
  x_increasing samples := by
    rw [referenceNumerics]
    dsimp only
    split_ifs with h
    · exact h.1
    · exact List.Pairwise.nil
  y_nondecreasing samples := by
    rw [referenceNumerics]
    dsimp only
    split_ifs with h
    · exact h.2
    · exact List.Pairwise.nil
  x_mem samples x hx := by
    rw [referenceNumerics] at hx
    dsimp only at hx
    split_ifs at hx
    · exact hx
    · cases hx
  interp_eq x xp fp left right _ _ _ _ := by
    have hfinite : ∀ qs : List ℚ, (qs.map PyFloat.finite).filterMap PyFloat.toRat? = qs := by
      intro qs
      rw [List.filterMap_map]
      exact List.filterMap_some
    simp only [referenceNumerics, hfinite]

def freshCalibrator : ProbabilityCalibrator where
  enabled := true
  method := "isotonic"
  minSamples := 30
  refitInterval := 25
  supported := by decide
  two_le_minSamples := by decide
  one_le_refitInterval := by decide

/-- A calibration file with two thresholds. -/
def thresholdFile (x x' y y' : ℚ) : PersistedFile :=
  some (.ok (.obj
    [("method", .str "isotonic"), ("x_thresholds", .arr [.float (.finite x), .float (.finite x')]),
      ("y_thresholds", .arr [.float (.finite y), .float (.finite y')])]))

theorem runCalls_isCalibration_rising :
    (freshCalibrator.runCalls referenceNumerics .noTexts
      [.load (thresholdFile (1 / 5) (4 / 5) (1 / 10) (9 / 10))]).IsCalibration
        referenceNumerics := by
  have hcreate : create {} = some freshCalibrator := rfl
  refine runCalls_isCalibration referenceNumerics_documented hcreate _ fun _ => ?_
  rw [List.forall_mem_singleton]
  intro payload xs ys hfile hread
  obtain rfl := Except.ok.inj (Option.some.inj hfile)
  obtain ⟨rfl, rfl⟩ := Prod.mk.inj (Except.ok.inj hread)
  exact ⟨⟨[1 / 5, 4 / 5], by decide +kernel, by decide +kernel⟩,
    [1 / 10, 9 / 10], by decide +kernel, by decide +kernel⟩

/-- A file whose thresholds fall is loaded, and turns the probabilities around. -/
theorem fallingFile_not_calibration :
    (freshCalibrator.load .noTexts (thresholdFile (1 / 5) (4 / 5) (9 / 10) (1 / 10))).1 = .ok true ∧
      ¬ (freshCalibrator.runCalls referenceNumerics .noTexts
        [.load (thresholdFile (1 / 5) (4 / 5) (9 / 10) (1 / 10))]).IsCalibration
          referenceNumerics := by
  refine ⟨by decide +kernel, ?_⟩
  rintro ⟨g, hmono, -, hg⟩
  have hlow : PyFloat.finite (g (1 / 5)) = .finite (9 / 10) := by
    rw [← hg]
    decide +kernel
  have hhigh : PyFloat.finite (g (4 / 5)) = .finite (1 / 10) := by
    rw [← hg]
    decide +kernel
  have hle : g (1 / 5) ≤ g (4 / 5) := hmono (by norm_num)
  rw [PyFloat.finite.inj hlow, PyFloat.finite.inj hhigh] at hle
  norm_num at hle

/-! ### A calibrator that is saved -/

/-- Two samples are enough for it. -/
def eagerCalibrator : ProbabilityCalibrator :=
  { freshCalibrator with minSamples := 2, two_le_minSamples := le_rfl }

def twoSamples : FitCall where
  samples := [(.finite (3 / 10), .finite 0), (.finite (7 / 10), .finite 1)]
  now := "2026-01-01T00:00:00+00:00"

theorem load_save_twoSamples : ∃ payload loaded,
    (eagerCalibrator.runCalls referenceNumerics .noTexts [.fit twoSamples]).save = some payload ∧
      eagerCalibrator.load .noTexts (some (.ok payload)) = (.ok true, loaded) ∧
      loaded.calibrate referenceNumerics (.finite (2 / 5)) = .finite (51 / 200) := by
  have hcreate : create { minSamples := 2 } = some eagerCalibrator := rfl
  have hc : eagerCalibrator.runCalls referenceNumerics .noTexts ([twoSamples].map .fit) =
      eagerCalibrator.runCalls referenceNumerics .noTexts [.fit twoSamples] := rfl
  obtain ⟨payload, loaded, hsave, hload, hcalibrate, -⟩ :=
    load_save referenceNumerics_documented hcreate [twoSamples] hc (by decide +kernel)
      (by decide +kernel)
  refine ⟨payload, loaded, hsave, hload, (hcalibrate _).trans ?_⟩
  decide +kernel

end ProbabilityCalibrator
end PolyCortex
