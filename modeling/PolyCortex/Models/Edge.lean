import PolyCortex.Risk.Sizer

/-!
# The edge of a market

`UnifiedEdgeDetector.estimate_edge`: the signals are added to the market price, the sum is blended with
the prediction of the TCN and calibrated, and the edge is its distance to the market price.
-/

namespace PolyCortex

/-- What the detector is told about another market. -/
structure RelatedMarket where
  priceChange24h : ℚ := 0
  correlation : ℚ := 0
  deriving DecidableEq, Repr

/-- What `estimate_edge` reads of a market. -/
structure EdgeDetector.MarketData where
  marketId : MarketId
  category : String
  midpoint : ℚ
  bidDepth : ℚ := 0
  askDepth : ℚ := 0
  volume24h : ℚ := 0
  priceRoc24h : ℚ := 0
  newsVolumeRatio : ℚ := 1
  relatedMarkets : List RelatedMarket := []
  deriving DecidableEq, Repr

structure SentimentResult where
  score : ℚ
  confidence : ℚ
  deriving DecidableEq, Repr

/-- The weights of a regime, `{"bayesian": _, "tcn": _}`. -/
structure BlendWeights where
  bayesian : ℚ := 6 / 10
  tcn : ℚ := 4 / 10
  deriving DecidableEq, Repr

/-- The `EdgeResult` of the source; the sizer reads a part of it. -/
structure EdgeEstimate where
  estimatedProb : ℚ
  marketPrice : ℚ
  edge : ℚ
  direction : Direction
  confidence : ℚ
  regime : Regime
  marketId : MarketId
  category : String
  signalBreakdown : List (String × ℚ)
  rawEstimatedProb : ℚ
  calibratedProb : ℚ
  deriving DecidableEq, Repr

/-- The probability calibrator is a function here, and there may be none. -/
structure EdgeDetector where
  minEdge : ℚ := 8 / 100
  useLlmSentiment : Bool := true
  regimeWeights : List (Regime × BlendWeights) := []
  signalWeights : List (String × ℚ) :=
    [("order_book", 15 / 100), ("momentum", 10 / 100), ("sentiment", 30 / 100),
      ("news_volume", 10 / 100), ("cross_market", 10 / 100), ("tcn_model", 25 / 100)]
  probabilityCalibrator : Option (ℚ → ℚ) := none

namespace EdgeDetector

/-- `np.clip`. -/
def clip (low high x : ℚ) : ℚ := min (max x low) high

/-- `signal_weights.get(name, default)`. -/
def signalWeight (d : EdgeDetector) (name : String) (fallback : ℚ) : ℚ :=
  (d.signalWeights.lookup name).getD fallback

def orderBookSignal (d : EdgeDetector) (data : MarketData) : ℚ :=
  (data.bidDepth - data.askDepth) / (data.bidDepth + data.askDepth + 1 / 10 ^ 8) *
    d.signalWeight "order_book" (15 / 100)

/-- Momentum counts at extreme prices only. -/
def momentumSignal (d : EdgeDetector) (data : MarketData) : ℚ :=
  if 85 / 100 < data.midpoint ∨ data.midpoint < 15 / 100 then
    clip (-3 / 100) (3 / 100) (data.priceRoc24h * d.signalWeight "momentum" (10 / 100) * 5)
  else 0

/-- The sentiment that is cached, amplified when there is much news. -/
def sentimentSignal (d : EdgeDetector) (data : MarketData) (cached : Option SentimentResult) : ℚ :=
  let sentiment :=
    match cached with
    | some result =>
      if d.useLlmSentiment then result.score * result.confidence * d.signalWeight "sentiment" (30 / 100)
      else 0
    | none => 0
  if 2 < data.newsVolumeRatio then sentiment * min (data.newsVolumeRatio / 2) 2 else sentiment

/-- `_calc_cross_signal`. -/
def calcCrossSignal (related : List RelatedMarket) : ℚ :=
  if related = [] then 0
  else clip (-5 / 100) (5 / 100)
    ((related.map fun market => market.priceChange24h * market.correlation).sum / related.length)

/-- `signals`, in the order in which they are computed. -/
def signals (d : EdgeDetector) (data : MarketData) (cached : Option SentimentResult)
    (tcnProb : Option ℚ) : List (String × ℚ) :=
  [("order_book", d.orderBookSignal data), ("momentum", d.momentumSignal data),
    ("sentiment", d.sentimentSignal data cached),
    ("cross_market", calcCrossSignal data.relatedMarkets * d.signalWeight "cross_market" (10 / 100))] ++
  match tcnProb with
  | some prob => [("tcn", prob)]
  | none => []

def bayesianProb (d : EdgeDetector) (data : MarketData) (cached : Option SentimentResult) : ℚ :=
  clip (1 / 100) (99 / 100)
    (data.midpoint + d.orderBookSignal data + d.momentumSignal data + d.sentimentSignal data cached +
      calcCrossSignal data.relatedMarkets * d.signalWeight "cross_market" (10 / 100))

/-- The probability before the calibration. -/
def rawProb (d : EdgeDetector) (data : MarketData) (cached : Option SentimentResult)
    (tcnProb : Option ℚ) (regime : Regime) : ℚ :=
  match tcnProb with
  | some prob =>
    let weights := (d.regimeWeights.lookup regime).getD {}
    d.bayesianProb data cached * weights.bayesian + prob * weights.tcn
  | none => d.bayesianProb data cached

def calibrate (d : EdgeDetector) (prob : ℚ) : ℚ :=
  match d.probabilityCalibrator with
  | some calibrator => calibrator prob
  | none => prob

/-- The part of the signals, by magnitude, that agrees with the direction. -/
def agreement (signals : List (String × ℚ)) (edge : ℚ) : ℚ :=
  let nonzero := (signals.map (·.2)).filter (· ≠ 0)
  if nonzero = [] then 0
  else ((nonzero.filter fun v => (0 < v : Bool) = (0 < edge : Bool)).map (|·|)).sum /
    ((nonzero.map (|·|)).sum + 1 / 10 ^ 8)

/-- `estimate_edge`; `none` when it raises, for depths that cancel out or outside the domain of
`log1p`. The sentiment is what the analyzer has cached and the TCN has answered `tcnProb`, if there
are any. -/
def estimateEdge (log1p : ℚ → Option ℚ) (d : EdgeDetector) (data : MarketData)
    (cached : Option SentimentResult) (tcnProb : Option ℚ) (regime : Regime) : Option EdgeEstimate :=
  if data.bidDepth + data.askDepth + 1 / 10 ^ 8 = 0 then none
  else
    (log1p data.volume24h).map fun logVolume =>
      let volumeConfidence := min (logVolume / 15) (3 / 10)
      let raw := d.rawProb data cached tcnProb regime
      let calibrated := d.calibrate raw
      let edge := calibrated - data.midpoint
      let signals := d.signals data cached tcnProb
      { estimatedProb := calibrated
        marketPrice := data.midpoint
        edge := |edge|
        direction := if 0 < edge then .yes else .no
        confidence := agreement signals edge * max (7 / 10) (1 - volumeConfidence)
        regime
        marketId := data.marketId
        category := data.category
        signalBreakdown := signals
        rawEstimatedProb := raw
        calibratedProb := calibrated }

end EdgeDetector
end PolyCortex
