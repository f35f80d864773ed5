import PolyCortex.Execution.Order
import PolyCortex.Numeric.NumpyFloat

/-!
# The feature engine

`create_features`: ten features for every row of a history, eight of them normalised over a rolling
window, and the rows without a NaN. Three things are taken from the whole frame: whether all volumes are
zero, the first timestamp, and the length of the window of the normalisation.
-/

namespace PolyCortex

/-- A row of the history of a market. -/
structure HistoryRow (K : Type) where
  timestamp : Time
  midpoint : NumpyFloat K
  volume : NumpyFloat K
  spread : NumpyFloat K
  bookImbalance : NumpyFloat K

/-- The functions of `numpy` and `pandas` that are not arithmetic. The deviation of a window of equal
values is zero. -/
structure ArrayFunctions (K : Type) [Zero K] where
  log : K → K
  exp : K → K
  std : List K → K
  astypeFloat32 : NumpyFloat K → NumpyFloat K
  std_replicate : ∀ (n : ℕ) (x : K), std (List.replicate n x) = 0

/-- `(date - timestamp).days`. -/
def daysUntil (timestamp date : Time) : ℤ := (date - timestamp) / 86400000000

namespace FeatureEngine

open NumpyFloat

variable {K : Type} [Field K] [LinearOrder K]

/-- The rows of a frame, as the features of one kind. -/
abbrev Column (K : Type) := List (NumpyFloat K)

/-- `1e-8`. -/
def epsilon : K := 1 / 10 ^ 8

def midpoints (rows : List (HistoryRow K)) : Column K := rows.map (·.midpoint)

def volumes (rows : List (HistoryRow K)) : Column K := rows.map (·.volume)

/-- Row by row, the quotient of two columns. -/
def ratio (numerators denominators : Column K) : Column K :=
  List.zipWith (· / ·) numerators (denominators.map (· + finite epsilon))

def logit (fn : ArrayFunctions K) (midpoint : NumpyFloat K) : NumpyFloat K :=
  let clipped := midpoint.clip (1 / 100) (99 / 100)
  (clipped / (finite 1 - clipped)).apply fn.log

def logitReturn (fn : ArrayFunctions K) (rows : List (HistoryRow K)) : Column K :=
  diff ((midpoints rows).map (logit fn))

def priceExtremity (rows : List (HistoryRow K)) : Column K :=
  (midpoints rows).map fun midpoint => finite 2 * (midpoint - finite (1 / 2)).abs

def gain (rows : List (HistoryRow K)) : Column K :=
  rollingMean 14 14 ((diff (midpoints rows)).map (clipLower 0))

def loss (rows : List (HistoryRow K)) : Column K :=
  rollingMean 14 14 ((diff (midpoints rows)).map fun delta => -clipUpper 0 delta)

def rsi (rows : List (HistoryRow K)) : Column K :=
  (ratio (gain rows) (loss rows)).map fun rs => finite 1 - finite 1 / (finite 1 + rs)

def priceVsSma (rows : List (HistoryRow K)) : Column K :=
  List.zipWith (· - ·) (midpoints rows) (rollingMean 20 20 (midpoints rows))

/-- `(volume == 0).all()`. -/
def isFlat (rows : List (HistoryRow K)) : Bool := rows.all (·.volume.isZero)

/-- A ratio to the mean volume of 20 rows, which is 1 in a frame without volume. -/
def volumeFeature (flat : Bool) (numerators : List (HistoryRow K) → Column K)
    (rows : List (HistoryRow K)) : Column K :=
  if flat then rows.map fun _ => finite 1
  else ratio (numerators rows) (rollingMean 20 20 (volumes rows))

def volumeRatio (flat : Bool) (rows : List (HistoryRow K)) : Column K := volumeFeature flat volumes rows

def volumeMomentum (flat : Bool) (rows : List (HistoryRow K)) : Column K :=
  volumeFeature flat (fun rows => rollingMean 5 5 (volumes rows)) rows

/-- The time left, as a share of that at the first timestamp. -/
def timeRemainingPct (first : Time) (resolutionDate : Option Time) (rows : List (HistoryRow K)) :
    Column K :=
  match resolutionDate with
  | none => rows.map fun _ => finite 1
  | some date =>
    let totalDays := daysUntil first date
    if totalDays ≤ 0 then rows.map fun _ => finite 0
    else
      rows.map fun row =>
        (finite (daysUntil row.timestamp date : K) / finite (totalDays : K)).clip 0 1

def urgency (fn : ArrayFunctions K) (resolutionDate : Option Time) (rows : List (HistoryRow K)) :
    Column K :=
  match resolutionDate with
  | none => rows.map fun _ => finite 0
  | some date => rows.map fun row => finite (fn.exp (-(daysUntil row.timestamp date : K) / 30))

/-- A column less its rolling mean, over its rolling deviation. -/
def normalise (fn : ArrayFunctions K) (rollWin : ℕ) (column : Column K) : Column K :=
  ratio (List.zipWith (· - ·) column (rollingMean rollWin 1 column)) (rollingStd fn.std rollWin 1 column)

/-- What the features take from the whole frame. -/
structure FrameFacts where
  flat : Bool
  first : Time
  rollWin : ℕ

def factsOf (rows : List (HistoryRow K)) : FrameFacts where
  flat := isFlat rows
  first := ((rows.head?).map (·.timestamp)).getD 0
  rollWin := min 50 rows.length

/-- The features 0 to 7, before they are normalised. -/
def rawColumns (fn : ArrayFunctions K) (flat : Bool) (rows : List (HistoryRow K)) : List (Column K) :=
  [logitReturn fn rows, priceExtremity rows, rsi rows, priceVsSma rows, volumeRatio flat rows,
    volumeMomentum flat rows, rows.map (·.spread), rows.map (·.bookImbalance)]

/-- The columns of `features_df`. -/
def columns (fn : ArrayFunctions K) (facts : FrameFacts) (resolutionDate : Option Time)
    (rows : List (HistoryRow K)) : List (Column K) :=
  (rawColumns fn facts.flat rows).map (normalise fn facts.rollWin) ++
    [timeRemainingPct facts.first resolutionDate rows, urgency fn resolutionDate rows]

/-- The features of the row at one place. -/
def featuresAt (i : ℕ) (columns : List (Column K)) : List (NumpyFloat K) :=
  columns.map fun column => column[i]?.getD nan

/-- The rows of `features_df` by their timestamps, before `dropna`. -/
def frame (fn : ArrayFunctions K) (facts : FrameFacts) (resolutionDate : Option Time)
    (rows : List (HistoryRow K)) : List (Time × List (NumpyFloat K)) :=
  rows.zipIdx.map fun (row, i) => (row.timestamp, featuresAt i (columns fn facts resolutionDate rows))

/-- `dropna()`. -/
def dropNan (rows : List (Time × List (NumpyFloat K))) : List (Time × List (NumpyFloat K)) :=
  rows.filter fun row => !row.2.any isNan

/-- `sort_index()`. -/
def sortIndex (history : List (HistoryRow K)) : List (HistoryRow K) :=
  history.insertionSort fun x y => x.timestamp ≤ y.timestamp

/-- `features_df` after `dropna`. -/
def featuresDf (fn : ArrayFunctions K) (resolutionDate : Option Time) (history : List (HistoryRow K)) :
    List (Time × List (NumpyFloat K)) :=
  let rows := sortIndex history
  dropNan (frame fn (factsOf rows) resolutionDate rows)

/-- `create_features`. -/
def createFeatures (fn : ArrayFunctions K) (resolutionDate : Option Time)
    (history : List (HistoryRow K)) : Option (List (List (NumpyFloat K))) :=
  if history.length < 2 then none
  else
    let features := featuresDf fn resolutionDate history
    if features.length < 2 then none
    else some (features.map fun row => row.2.map fn.astypeFloat32)

end FeatureEngine
end PolyCortex
