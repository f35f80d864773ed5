import Mathlib.Data.List.Sort
import PolyCortex.Models.Edge
import PolyCortex.Models.Regime
import PolyCortex.Risk.Drawdown

/-!
# The walk-forward backtester

`WalkForwardBacktester.run`: the markets are simulated one after the other, in the order in which they
resolve. The regime detector is fitted on the first part of a market's history, trades are taken along
the rest of it, and all of them are resolved before the next market starts.
-/

namespace PolyCortex.Backtest

/-- A `BacktestMarket`. -/
structure Market where
  conditionId : MarketId
  category : String
  resolution : ℚ
  priceHistory : List PriceRow
  resolutionDate : Time
  deriving DecidableEq, Repr

/-- The configuration, as far as the backtest reads it. -/
structure Config where
  bankroll : ℚ := 100
  minEdge : ℚ := 8 / 100
  applyCosts : Bool := true
  feeBps : ℚ := 10
  slippageBps : ℚ := 5
  spreadImpact : ℚ := 35 / 100
  sizer : PositionSizer := {}
  detector : EdgeDetector := {}
  drawdownReduce : ℚ := 8 / 100
  drawdownStop : ℚ := 15 / 100
  drawdownEmergency : ℚ := 20 / 100

/-- What the backtest does not compute itself: the hidden Markov model, `log1p`, and the day on which
it runs. -/
structure Outside (M : Type) where
  hmm : Hmm M
  log1p : ℚ → Option ℚ
  today : Day

/-- An entry of `open_positions`. -/
structure Position where
  marketId : MarketId
  direction : Direction
  entryPrice : ℚ
  size : ℚ
  tradeCost : ℚ
  slippage : ℚ
  edge : ℚ
  confidence : ℚ
  regime : Regime
  category : String
  estimatedProb : ℚ
  timestamp : Time
  deriving DecidableEq, Repr

/-- An entry of `all_trades`. -/
structure Trade extends Position where
  exitPrice : ℚ
  pnl : ℚ
  deriving DecidableEq, Repr

/-- What goes from one market to the next. -/
structure State (M : Type) where
  bankroll : ℚ
  sizer : PositionSizer
  drawdown : DrawdownController
  regimeDetector : RegimeDetector M
  allTrades : List Trade := []
  equityPoints : List (Time × ℚ) := []

variable {M : Type}

def Config.feeRate (cfg : Config) : ℚ := cfg.feeBps / 10000

def Config.slippageRate (cfg : Config) : ℚ := cfg.slippageBps / 10000

/-- The detector of the backtest asks no language model, and has neither a TCN nor a calibrator. -/
def Config.edgeDetector (cfg : Config) : EdgeDetector :=
  { cfg.detector with minEdge := cfg.minEdge, useLlmSentiment := false, probabilityCalibrator := none }

/-- The state before the first market. -/
def start (cfg : Config) (out : Outside M) : State M where
  bankroll := cfg.bankroll
  sizer := cfg.sizer.updateBankroll cfg.bankroll
  drawdown :=
    DrawdownController.update cfg.bankroll
      { reduceAt := cfg.drawdownReduce
        stopAt := cfg.drawdownStop
        emergencyAt := cfg.drawdownEmergency
        dailyResetDate := out.today }
  regimeDetector := { model := out.hmm.unfitted }

/-! ### One row of the test portion -/

/-- The regime at the last row of a history. -/
def regimeAt (out : Outside M) (history : List PriceRow) (row : PriceRow) (detector : RegimeDetector M) :
    Regime × RegimeDetector M :=
  if detector.fitted then
    let volatility := lastWindow 20 out.hmm.std (pctChange (history.map (·.midpoint)))
    let volumeMean := (lastWindow 20 mean (history.map fun row => some row.volume)).map (max (1 / 10 ^ 8))
    detector.predict out.hmm
      { volatility := volatility.getD (1 / 100)
        volumeRatio := row.volume / (volumeMean.getD 0 + 1 / 10 ^ 8)
        spread := row.spread }
  else (.stable, detector)

/-- `market_data` at a row. -/
def marketDataAt (market : Market) (row : PriceRow) : EdgeDetector.MarketData where
  marketId := market.conditionId
  category := market.category
  midpoint := row.midpoint
  bidDepth := row.bidDepth
  askDepth := row.askDepth
  volume24h := row.volume

/-- The edge at a row; `none` when the estimate raises. -/
def edgeAt (cfg : Config) (out : Outside M) (market : Market) (row : PriceRow) (regime : Regime) :
    Option EdgeEstimate :=
  cfg.edgeDetector.estimateEdge out.log1p (marketDataAt market row) none none regime

/-- `edge_dict`, what the sizer reads of the estimate; no signal is called `spread`. -/
def edgeDict (market : Market) (estimate : EdgeEstimate) (regime : Regime) : EdgeResult where
  marketId := market.conditionId
  category := some market.category
  direction := estimate.direction
  edge := estimate.edge
  confidence := estimate.confidence
  estimatedProb := estimate.estimatedProb
  marketPrice := estimate.marketPrice
  regime
  spread := (estimate.signalBreakdown.lookup "spread").getD 0

def Position.held (position : Position) : HeldPosition := ⟨position.size, some position.category⟩

/-- `execution_slippage`. -/
def executionSlippage (cfg : Config) (row : PriceRow) (size : ℚ) : ℚ :=
  if cfg.applyCosts then
    cfg.slippageRate + min (size / max (row.bidDepth + row.askDepth) 1) 1 * row.spread * cfg.spreadImpact
  else 0

/-- `entry_price`, of the YES side. -/
def entryPrice (direction : Direction) (midpoint slippage : ℚ) : ℚ :=
  if direction = .yes then min (99 / 100) (midpoint + slippage) else max (1 / 100) (midpoint - slippage)

def tradeCost (cfg : Config) (row : PriceRow) (size : ℚ) : ℚ :=
  if cfg.applyCosts then size * (cfg.feeRate + row.spread * cfg.spreadImpact * (25 / 100)) else 0

/-- The position that is opened at a row, if any. -/
def openPosition (cfg : Config) (out : Outside M) (s : State M) (market : Market) (row : PriceRow)
    (regime : Regime) (openPositions : List Position) : Option Position :=
  match edgeAt cfg out market row regime with
  | none => none
  | some estimate =>
    if estimate.edge < cfg.minEdge then none
    else
      let multiplier := s.drawdown.getMultiplier s.bankroll
      if multiplier ≤ 0 then none
      else
        let size := s.sizer.calculatePosition (edgeDict market estimate regime)
          (openPositions.map (·.held)) multiplier
        if size ≤ 0 then none
        else some
          { marketId := market.conditionId
            direction := estimate.direction
            entryPrice := entryPrice estimate.direction row.midpoint (executionSlippage cfg row size)
            size
            tradeCost := tradeCost cfg row size
            slippage := executionSlippage cfg row size
            edge := estimate.edge
            confidence := estimate.confidence
            regime
            category := market.category
            estimatedProb := estimate.estimatedProb
            timestamp := row.timestamp }

/-- The walk along the test portion, with the history before it: the positions, and the detector. -/
def walk (cfg : Config) (out : Outside M) (s : State M) (market : Market) :
    List PriceRow → List PriceRow → RegimeDetector M → List Position → List Position × RegimeDetector M
  | _, [], detector, positions => (positions, detector)
  | history, row :: rows, detector, positions =>
    let (regime, detector) := regimeAt out (history ++ [row]) row detector
    walk cfg out s market (history ++ [row]) rows detector
      (positions ++ (openPosition cfg out s market row regime positions).toList)

/-! ### The resolution -/

/-- The PnL of a position that is resolved, after its cost. -/
def resolutionPnl (resolution : ℚ) (position : Position) : ℚ :=
  (if position.direction = .yes then
    if position.entryPrice = 0 then 0
    else (resolution - position.entryPrice) * position.size / position.entryPrice
  else
    if 1 - position.entryPrice = 0 then 0
    else (position.entryPrice - resolution) * position.size / (1 - position.entryPrice)) -
  position.tradeCost

def Position.resolve (resolution : ℚ) (position : Position) : Trade where
  toPosition := position
  exitPrice := resolution
  pnl := resolutionPnl resolution position

/-- The bankroll follows a resolved position. -/
def resolvePosition (market : Market) (s : State M) (position : Position) : State M :=
  let trade := position.resolve market.resolution
  let bankroll := s.bankroll + trade.pnl
  { s with
    bankroll
    drawdown := s.drawdown.update bankroll
    sizer := s.sizer.updateBankroll bankroll
    allTrades := s.allTrades ++ [trade]
    equityPoints := s.equityPoints ++ [(market.resolutionDate, bankroll)] }

/-! ### The run -/

/-- `int(len(df) * 0.8)`. -/
def splitIdx (market : Market) : ℕ := market.priceHistory.length * 8 / 10

def trainRows (market : Market) : List PriceRow := market.priceHistory.take (splitIdx market)

/-- The test portion; a market with a short history has none. -/
def testRows (market : Market) : List PriceRow :=
  if market.priceHistory.length < 64 then []
  else
    let rows := market.priceHistory.drop (splitIdx market)
    if rows.length < 2 then [] else rows

/-- The detector after the training; a fit that raises is only logged. -/
def train (out : Outside M) (market : Market) (detector : RegimeDetector M) : RegimeDetector M :=
  if 100 ≤ (trainRows market).length then (detector.fitFromHistory out.hmm (trainRows market)).1
  else detector

/-- One market: walk along its test portion, then resolve what was opened. -/
def simulateMarket (cfg : Config) (out : Outside M) (s : State M) (market : Market) : State M :=
  if testRows market = [] then s
  else
    let (positions, detector) :=
      walk cfg out s market (trainRows market) (testRows market) (train out market s.regimeDetector) []
    positions.foldl (resolvePosition market) { s with regimeDetector := detector }

/-- `sorted(markets, key=lambda m: m.resolution_date)`; the sorting is stable. -/
def sortedMarkets (markets : List Market) : List Market :=
  markets.insertionSort fun m m' => m.resolutionDate ≤ m'.resolutionDate

/-- `run`, up to its last state; the statistics are computed from it. -/
def run (cfg : Config) (out : Outside M) (markets : List Market) : State M :=
  (sortedMarkets markets).foldl (simulateMarket cfg out) (start cfg out)

/-- `_compute_brier`. -/
def computeBrier (trades : List Trade) (resolutions : MarketId → Option ℚ) : ℚ :=
  let scores := trades.filterMap fun trade =>
    (resolutions trade.marketId).map fun actual => (trade.estimatedProb - actual) ^ 2
  if scores = [] then 0 else mean scores

end PolyCortex.Backtest
