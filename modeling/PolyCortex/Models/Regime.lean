import Mathlib.Data.List.DropRight
import PolyCortex.Risk.Sizer

/-!
# The regime of a market

`RegimeDetector`, around a hidden Markov model: the observations it was shown since it was fitted are
kept in a buffer of bounded length, and the state of the last one names the regime.
-/

namespace PolyCortex

/-- A row of the price history of a market. -/
structure PriceRow where
  timestamp : Time
  midpoint : ℚ
  spread : ℚ
  bidDepth : ℚ
  askDepth : ℚ
  volume : ℚ
  deriving DecidableEq, Repr

/-! ### Windows over a series -/

/-- The value of the last window of a series, `none` for `NaN`. -/
def lastWindow (n : ℕ) (f : List ℚ → ℚ) (xs : List (Option ℚ)) : Option ℚ :=
  if n ≤ xs.length then ((xs.rtake n).mapM id).map f else none

/-- `rolling(n)`. -/
def rolling (n : ℕ) (f : List ℚ → ℚ) (xs : List (Option ℚ)) : List (Option ℚ) :=
  xs.inits.tail.map (lastWindow n f)

/-- `pct_change`; a division by zero is no number. -/
def pctChange (xs : List ℚ) : List (Option ℚ) :=
  none :: List.zipWith (fun before after => if before = 0 then none else some (after / before - 1))
    xs xs.tail

def mean (xs : List ℚ) : ℚ := xs.sum / xs.length

/-! ### The detector -/

structure Observation where
  volatility : ℚ
  volumeRatio : ℚ
  spread : ℚ
  deriving DecidableEq, Repr

/-- The Gaussian model of `hmmlearn` and the standard deviation of `pandas`. `fit` leaves a model, also
when it raises; `predict` gives the state of the last observation, or raises. -/
structure Hmm (M : Type) where
  unfitted : M
  fit : List Observation → M → M × Bool
  volatilityMeans : M → List ℚ
  predict : M → List Observation → Option ℕ
  std : List ℚ → ℚ

/-- `REGIMES`. -/
def regimes : List Regime := [.stable, .trending, .volatile]

structure RegimeDetector (M : Type) where
  model : M
  fitted : Bool := false
  regimeLabels : List Regime := []
  historyBuffer : List Observation := []
  bufferMaxlen : ℕ := 50

namespace RegimeDetector

variable {M : Type}

/-- The labels of the states: the rank of its mean volatility names a state. -/
def labelsOf (means : List ℚ) : List Regime :=
  means.zipIdx.map fun (m, state) =>
    let rank := (means.zipIdx.filter fun (m', state') => m' < m ∨ m' = m ∧ state' < state).length
    (regimes[rank]?).getD .stable

/-- `fit`; the second value tells whether it returned. -/
def fit (hmm : Hmm M) (features : List Observation) (d : RegimeDetector M) : RegimeDetector M × Bool :=
  if features.length < 100 then (d, true)
  else
    match hmm.fit features d.model with
    | (model, true) =>
      ({ d with
          model
          regimeLabels := labelsOf (hmm.volatilityMeans model)
          fitted := true
          historyBuffer := [] }, true)
    | (model, false) => ({ d with model }, false)

/-- The volatility of a history: of the changes of the midpoint, over windows of 20 rows. -/
def volatility (hmm : Hmm M) (history : List PriceRow) : List (Option ℚ) :=
  rolling 20 hmm.std (pctChange (history.map (·.midpoint)))

/-- The mean volume of the last 20 rows, at least `1e-8`. -/
def volumeMeans (history : List PriceRow) : List (Option ℚ) :=
  (rolling 20 mean (history.map fun row => some row.volume)).map (·.map (max (1 / 10 ^ 8)))

/-- The observations of a history; the rows with a `NaN` are left out. -/
def observations (hmm : Hmm M) (history : List PriceRow) : List Observation :=
  (history.zip ((volatility hmm history).zip (volumeMeans history))).filterMap fun
    | (row, some volatility, some volumeMean) => some ⟨volatility, row.volume / volumeMean, row.spread⟩
    | _ => none

/-- `fit_from_history`. -/
def fitFromHistory (hmm : Hmm M) (history : List PriceRow) (d : RegimeDetector M) :
    RegimeDetector M × Bool :=
  d.fit hmm (observations hmm history)

/-- The end of a buffer that is longer than `bufferMaxlen`; `buffer[-0:]` is all of it. -/
def keepLast (bufferMaxlen : ℕ) (buffer : List Observation) : List Observation :=
  if bufferMaxlen = 0 then buffer else buffer.rtake bufferMaxlen

/-- `predict`. -/
def predict (hmm : Hmm M) (observation : Observation) (d : RegimeDetector M) :
    Regime × RegimeDetector M :=
  if d.fitted then
    let buffer := keepLast d.bufferMaxlen (d.historyBuffer ++ [observation])
    match hmm.predict d.model buffer with
    | some state => ((d.regimeLabels[state]?).getD .stable, { d with historyBuffer := buffer })
    | none => (.stable, { d with historyBuffer := buffer })
  else (.stable, d)

end RegimeDetector
end PolyCortex
