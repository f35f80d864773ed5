import PolyCortex.Data.Persisted
import PolyCortex.Models.Edge
import PolyCortex.Models.Regime
import PolyCortex.Numeric.Interpolation
import PolyCortex.Tracking.Scoring

/-!
# Probability calibration

`ProbabilityCalibrator`: an isotonic regression of outcomes on raw probabilities, kept as a list of
thresholds between which probabilities are interpolated, and its file. The regression of `sklearn` and
`np.interp` are parameters, with what their documentation says of them.
-/

namespace PolyCortex

/-- What a fitted `IsotonicRegression` has. -/
structure IsotonicFit where
  xThresholds : List ℚ
  yThresholds : List ℚ
  calibrated : List ℚ

/-- The libraries: `IsotonicRegression(y_min=0.0, y_max=1.0, increasing=True).fit_transform` on pairs of
a probability and a label, and `np.interp(x, xp, fp, left, right)`. -/
structure Numerics where
  isotonic : List (ℚ × ℚ) → IsotonicFit
  interp : PyFloat → List PyFloat → List PyFloat → PyFloat → PyFloat → PyFloat

/-- The thresholds are an increasing function from some of the probabilities, and `np.interp` is linear
between sample points that increase. -/
structure Numerics.Documented (num : Numerics) : Prop where
  same_length : ∀ samples,
    (num.isotonic samples).xThresholds.length = (num.isotonic samples).yThresholds.length
  x_increasing : ∀ samples, (num.isotonic samples).xThresholds.Pairwise (· < ·)
  y_nondecreasing : ∀ samples, (num.isotonic samples).yThresholds.Pairwise (· ≤ ·)
  x_mem : ∀ samples, ∀ x ∈ (num.isotonic samples).xThresholds, x ∈ samples.map (·.1)
  interp_eq : ∀ (x : ℚ) (xp fp : List ℚ) (left right : ℚ), xp.length = fp.length →
    xp.Pairwise (· ≤ ·) → fp.head? = some left → fp.getLast? = some right →
    num.interp (.finite x) (xp.map .finite) (fp.map .finite) (.finite left) (.finite right) =
      .finite (Interpolation.interpolate x (xp.zip fp))

structure CalibrationFitMetrics where
  sampleCount : ℕ
  positiveRate : ℚ
  brierBefore : ℚ
  brierAfter : ℚ
  deriving DecidableEq, Repr

/-- `_clip_probability`. -/
def clipProbability (probability : PyFloat) : PyFloat := probability.clip (1 / 100) (99 / 100)

/-- `SUPPORTED_METHODS`. -/
def supportedMethods : List String := ["isotonic"]

/-- The arguments of the constructor, except for the path. -/
structure CalibratorArgs where
  enabled : Bool := true
  method : String := "isotonic"
  minSamples : ℤ := 30
  refitInterval : ℤ := 25
  deriving DecidableEq, Repr

structure ProbabilityCalibrator where
  enabled : Bool
  method : String
  minSamples : ℤ
  refitInterval : ℤ
  xThresholds : List PyFloat := []
  yThresholds : List PyFloat := []
  sampleCount : ℤ := 0
  lastFitTradeCount : ℤ := 0
  fittedAt : Option String := none
  supported : method ∈ supportedMethods
  two_le_minSamples : 2 ≤ minSamples
  one_le_refitInterval : 1 ≤ refitInterval

namespace ProbabilityCalibrator

/-- `__init__`; a method that is not supported raises. -/
def create (args : CalibratorArgs) : Option ProbabilityCalibrator :=
  if h : args.method ∈ supportedMethods then
    some
      { enabled := args.enabled
        method := args.method
        minSamples := max args.minSamples 2
        refitInterval := max args.refitInterval 1
        supported := h
        two_le_minSamples := le_max_right _ _
        one_le_refitInterval := le_max_right _ _ }
  else none

/-- `is_fitted`. -/
def isFitted (c : ProbabilityCalibrator) : Bool :=
  2 ≤ c.xThresholds.length ∧ c.xThresholds.length = c.yThresholds.length

/-- `should_refit`. -/
def shouldRefit (tradeCount : ℤ) (c : ProbabilityCalibrator) : Bool :=
  if ¬ c.enabled ∨ tradeCount < c.minSamples then false
  else if ¬ c.isFitted then true
  else c.lastFitTradeCount + c.refitInterval ≤ tradeCount

/-- `calibrate`. -/
def calibrate (num : Numerics) (probability : PyFloat) (c : ProbabilityCalibrator) : PyFloat :=
  let clipped := clipProbability probability
  if ¬ c.enabled ∨ ¬ c.isFitted then clipped
  else
    clipProbability (num.interp clipped c.xThresholds c.yThresholds (c.yThresholds.headD .nan)
      (c.yThresholds.getLastD .nan))

/-! ### Fitting -/

/-- A sample that is finite, clipped. -/
def cleanSample : PyFloat × PyFloat → Option (ℚ × ℚ)
  | (.finite prob, .finite label) =>
    some (EdgeDetector.clip (1 / 100) (99 / 100) prob, EdgeDetector.clip 0 1 label)
  | _ => none

def cleanSamples (samples : List (PyFloat × PyFloat)) : List (ℚ × ℚ) :=
  samples.filterMap cleanSample

/-- The mean squared distance of the labels. -/
def brier (probs labels : List ℚ) : ℚ :=
  mean (List.zipWith (fun prob label => (prob - label) ^ 2) probs labels)

/-- `fit`, on the predictions with their outcomes. -/
def fit (num : Numerics) (samples : List (PyFloat × PyFloat)) (tradeCount : Option ℤ) (now : String)
    (c : ProbabilityCalibrator) : Option CalibrationFitMetrics × ProbabilityCalibrator :=
  let samples := cleanSamples samples
  let labels := samples.map (·.2)
  if samples.length < c.minSamples then (none, c)
  else if labels.dedup.length < 2 then (none, c)
  else
    let model := num.isotonic samples
    (some
      { sampleCount := samples.length
        positiveRate := mean labels
        brierBefore := brier (samples.map (·.1)) labels
        brierAfter := brier model.calibrated labels },
    { c with
      xThresholds := model.xThresholds.map .finite
      yThresholds := model.yThresholds.map fun y => clipProbability (.finite y)
      sampleCount := samples.length
      lastFitTradeCount := tradeCount.getD samples.length
      fittedAt := some now })

/-- The sample of a trade, unless it has no probability or no PnL. -/
def sampleOf (trade : Scoring.ClosedTrade) : Option (PyFloat × PyFloat) :=
  match trade.rawEstimatedProb.or trade.estimatedProb, trade.pnl with
  | some rawProb, some pnl => some (.finite rawProb, .finite (if 0 < pnl then 1 else 0))
  | _, _ => none

def tradeSamples (trades : List Scoring.ClosedTrade) : List (PyFloat × PyFloat) :=
  trades.filterMap sampleOf

/-- `fit_from_trades`. -/
def fitFromTrades (num : Numerics) (trades : List Scoring.ClosedTrade) (tradeCount : Option ℤ)
    (now : String) (c : ProbabilityCalibrator) :
    Option CalibrationFitMetrics × ProbabilityCalibrator :=
  c.fit num (tradeSamples trades) tradeCount now

/-! ### The file -/

/-- What `save` writes. -/
def payload (c : ProbabilityCalibrator) : PersistedValue :=
  .obj
    [("version", .int 1), ("method", .str c.method), ("x_thresholds", .arr (c.xThresholds.map .float)),
      ("y_thresholds", .arr (c.yThresholds.map .float)), ("sample_count", .int c.sampleCount),
      ("last_fit_trade_count", .int c.lastFitTradeCount),
      ("fitted_at", (c.fittedAt.map .str).getD .null)]

/-- `save`: the new content of the file, `none` when it returns `False`. -/
def save (c : ProbabilityCalibrator) : Option PersistedValue :=
  if ¬ c.enabled ∨ ¬ c.isFitted then none else some c.payload

variable (py : PyConversions)

/-- The part of `load` that checks the file. -/
def readThresholds (method : String) (payload : PersistedValue) :
    Except PyError (List PyFloat × List PyFloat) := do
  let found := (← payload.getItem "method").toStr py
  let xThresholds ← (← payload.getItem "x_thresholds").toFloats py
  let yThresholds ← (← payload.getItem "y_thresholds").toFloats py
  if found ≠ method then throw .valueError
  if xThresholds.length < 2 ∨ xThresholds.length ≠ yThresholds.length then throw .valueError
  return (xThresholds, yThresholds)

/-- The thresholds are assigned. -/
def withThresholds (xThresholds yThresholds : List PyFloat) (c : ProbabilityCalibrator) :
    ProbabilityCalibrator :=
  { c with
    xThresholds := xThresholds.map clipProbability
    yThresholds := yThresholds.map clipProbability }

/-- `str(fitted_at) if fitted_at is not None else None`. -/
def readFittedAt (payload : PersistedValue) : Option String :=
  match payload.getD "fitted_at" .null with
  | .null => none
  | fittedAt => some (fittedAt.toStr py)

/-- The part of `load` that assigns: a conversion that fails leaves the fields before it. -/
def restore (payload : PersistedValue) (xThresholds yThresholds : List PyFloat)
    (c : ProbabilityCalibrator) : Except PyError Bool × ProbabilityCalibrator :=
  let c := c.withThresholds xThresholds yThresholds
  match (payload.getD "sample_count" (.int c.xThresholds.length)).toInt py with
  | .error e => (.error e, c)
  | .ok sampleCount =>
    let c := { c with sampleCount }
    match (payload.getD "last_fit_trade_count" (.int c.sampleCount)).toInt py with
    | .error e => (.error e, c)
    | .ok lastFitTradeCount =>
      (.ok true, { c with lastFitTradeCount, fittedAt := readFittedAt py payload })

/-- `except (json.JSONDecodeError, OSError, TypeError, ValueError)`. -/
def loadCatches : PyError → Bool
  | .jsonDecodeError | .osError | .typeError | .valueError => true
  | .keyError | .overflowError | .recursionError => false

/-- `load`. -/
def load (file : PersistedFile) (c : ProbabilityCalibrator) :
    Except PyError Bool × ProbabilityCalibrator :=
  match file with
  | none => (.ok false, c)
  | some contents =>
    if ¬ c.enabled then (.ok false, c)
    else
      catching loadCatches <|
        match contents with
        | .error e => (.error e, c)
        | .ok payload =>
          match readThresholds py c.method payload with
          | .error e => (.error e, c)
          | .ok (xThresholds, yThresholds) => c.restore py payload xThresholds yThresholds

/-- Thresholds that are read are accepted when the method is that of the calibrator and there are as
many of one kind as of the other, at least two. -/
lemma readThresholds_of_values {py : PyConversions} {expected : String}
    {payload method xValue yValue : PersistedValue} {xs ys : List PyFloat}
    (hmethod : payload.getItem "method" = .ok method)
    (hx : payload.getItem "x_thresholds" = .ok xValue) (hxs : xValue.toFloats py = .ok xs)
    (hy : payload.getItem "y_thresholds" = .ok yValue) (hys : yValue.toFloats py = .ok ys) :
    readThresholds py expected payload =
      if method.toStr py = expected ∧ 2 ≤ xs.length ∧ xs.length = ys.length then .ok (xs, ys)
      else .error .valueError := by
  rw [readThresholds, hmethod, hx, hy]
  simp only [bind, Except.bind, hxs, hys]
  by_cases hsame : method.toStr py = expected
  · rw [if_neg (not_not.mpr hsame)]
    dsimp only [pure, Except.pure]
    by_cases hlength : 2 ≤ xs.length ∧ xs.length = ys.length
    · have hvalid : ¬ (xs.length < 2 ∨ xs.length ≠ ys.length) := by omega
      rw [if_neg hvalid, if_pos ⟨hsame, hlength⟩]
    · have hinvalid : xs.length < 2 ∨ xs.length ≠ ys.length := by omega
      rw [if_pos hinvalid, if_neg fun h => hlength h.2]
      rfl
  · rw [if_pos hsame]
    exact (if_neg fun h => hsame h.1).symm

end ProbabilityCalibrator
end PolyCortex
