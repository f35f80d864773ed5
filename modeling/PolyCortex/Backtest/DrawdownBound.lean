import PolyCortex.Backtest.Simulator
import PolyCortex.Risk.Sizing

/-!
# How far a backtest can fall

The backtest opens positions in a market as long as the bankroll is above the stop of the drawdown
controller, and resolves them only when the market ends: until then the controller sees none of their
losses. What is open at once is bounded by the cap of the portfolio. Together the two bound the drawdown
of every run (`computeMaxDrawdown_le`): the bankroll keeps a share of `(1 - stop) * (1 - stake)` of its
peak, where the stake is what a market can lose at most, costs included.
-/

namespace PolyCortex.Backtest

open Rounding

/-! ### The drawdown of a curve -/

/-- The drawdowns of the values of a curve, from the peak before them on. -/
def drawdowns : ℚ → List ℚ → List ℚ
  | _, [] => []
  | peak, value :: values => (max peak value - value) / max peak value :: drawdowns (max peak value) values

/-- `_compute_max_drawdown`; the first value has none. -/
def computeMaxDrawdown : List ℚ → ℚ
  | [] => 0
  | first :: values => (drawdowns first values).foldl max 0

/-- The values of `equity_curve`. -/
def equityCurve {M : Type} (cfg : Config) (s : State M) : List ℚ :=
  cfg.bankroll :: s.equityPoints.map (·.2)

variable {ρ peak : ℚ} {values : List ℚ}

lemma forall_mem_drawdowns (hpeak : 0 < peak) (hρ : ρ ≤ 1)
    (h : (peak :: values).Pairwise fun earlier later => ρ * earlier ≤ later) :
    ∀ drawdown ∈ drawdowns peak values, drawdown ≤ 1 - ρ := by
  induction values generalizing peak with
  | nil => simp [drawdowns]
  | cons value values ih =>
    obtain ⟨hfirst, hrest⟩ := List.pairwise_cons.mp h
    have hmax : 0 < max peak value := lt_max_of_lt_left hpeak
    have hkeeps : ρ * max peak value ≤ value := by
      rcases max_choice peak value with heq | heq <;> rw [heq]
      · exact hfirst value List.mem_cons_self
      · have hvalue : 0 < value := heq ▸ hmax
        exact mul_le_of_le_one_left hvalue.le hρ
    rw [drawdowns, List.forall_mem_cons]
    refine ⟨?_, ih hmax (List.pairwise_cons.mpr ⟨fun later hlater => ?_, (List.pairwise_cons.mp hrest).2⟩)⟩
    · rw [div_le_iff₀ hmax]
      linarith
    · rcases max_choice peak value with heq | heq <;> rw [heq]
      · exact hfirst later (List.mem_cons_of_mem _ hlater)
      · exact (List.pairwise_cons.mp hrest).1 later hlater

lemma foldl_max_le {bound start : ℚ} (hstart : start ≤ bound) (h : ∀ value ∈ values, value ≤ bound) :
    values.foldl max start ≤ bound := by
  induction values generalizing start with
  | nil => exact hstart
  | cons value values ih =>
    obtain ⟨hfirst, hrest⟩ := List.forall_mem_cons.mp h
    exact ih (max_le hstart hfirst) hrest

/-- A curve whose values keep a share of all the values before them has fallen by no more than the rest. -/
lemma computeMaxDrawdown_of_pairwise (hpeak : 0 < peak) (hρ : ρ ≤ 1)
    (h : (peak :: values).Pairwise fun earlier later => ρ * earlier ≤ later) :
    computeMaxDrawdown (peak :: values) ≤ 1 - ρ :=
  foldl_max_le (sub_nonneg.mpr hρ) (forall_mem_drawdowns hpeak hρ h)

/-! ### Settings and markets -/

/-- What a position costs at most, by its size. -/
def Config.costRate (cfg : Config) : ℚ := cfg.feeRate + cfg.spreadImpact * (25 / 100)

/-- The part of the bankroll that the positions of a market can lose at most. The cents of the rounding
are within a thousandth, as nothing smaller than the minimum is opened. -/
def Config.stake (cfg : Config) : ℚ := cfg.sizer.maxPortfolioPct * (1001 / 1000) * (1 + cfg.costRate)

/-- Settings within their meaning. -/
structure Config.Sound (cfg : Config) : Prop where
  bankroll : 0 < cfg.bankroll
  fee : 0 ≤ cfg.feeBps
  slippage : 0 ≤ cfg.slippageBps
  impact : 0 ≤ cfg.spreadImpact
  minPosition : 5 ≤ cfg.sizer.minPosition
  portfolio : 0 ≤ cfg.sizer.maxPortfolioPct
  stake : cfg.stake ≤ 1
  reduce_lt : cfg.drawdownReduce < cfg.drawdownStop
  stop : 0 ≤ cfg.drawdownStop ∧ cfg.drawdownStop ≤ 1

/-- A market with prices, spreads and a resolution from 0 to 1. -/
structure Market.Sound (market : Market) : Prop where
  midpoint : ∀ row ∈ market.priceHistory, 0 ≤ row.midpoint ∧ row.midpoint ≤ 1
  spread : ∀ row ∈ market.priceHistory, 0 ≤ row.spread ∧ row.spread ≤ 1
  resolution : 0 ≤ market.resolution ∧ market.resolution ≤ 1

/-- What the bankroll keeps of its peak, about two thirds with the settings that are preset. -/
def Config.kept (cfg : Config) : ℚ := (1 - cfg.drawdownStop) * (1 - cfg.stake)

variable {M : Type} {cfg : Config} {out : Outside M} {s : State M} {market : Market} {row : PriceRow}
  {position : Position} {positions : List Position}

lemma Config.costRate_nonneg (hcfg : cfg.Sound) : 0 ≤ cfg.costRate := by
  have hfee := hcfg.fee
  have himpact := hcfg.impact
  rw [Config.costRate, Config.feeRate]
  positivity

lemma Config.stake_nonneg (hcfg : cfg.Sound) : 0 ≤ cfg.stake := by
  have hcost := Config.costRate_nonneg hcfg
  have hportfolio := hcfg.portfolio
  rw [Config.stake]
  positivity

/-! ### One position -/

/-- The least that a position can bring, its size and its cost being lost. -/
def Position.loss (cfg : Config) (position : Position) : ℚ := position.size * (1 + cfg.costRate)

/-- A position whose loss is bounded by its size and the rates of the costs. -/
structure Position.Sound (cfg : Config) (position : Position) : Prop where
  size_pos : 0 < position.size
  price_nonneg : 0 ≤ position.entryPrice
  price_le_one : position.entryPrice ≤ 1
  cost_le : position.tradeCost ≤ position.size * cfg.costRate

lemma Position.Sound.neg_loss_le (h : position.Sound cfg) {resolution : ℚ} (hlow : 0 ≤ resolution)
    (hhigh : resolution ≤ 1) : -position.loss cfg ≤ resolutionPnl resolution position := by
  have hsize := h.size_pos
  have hcost := h.cost_le
  have hgain : -position.size ≤ resolutionPnl resolution position + position.tradeCost := by
    rw [resolutionPnl, sub_add_cancel]
    split_ifs with hyes hprice hprice
    · linarith
    · have hpos : 0 < position.entryPrice := lt_of_le_of_ne h.price_nonneg (Ne.symm hprice)
      rw [le_div_iff₀ hpos]
      nlinarith
    · linarith
    · have hpos : 0 < 1 - position.entryPrice :=
        lt_of_le_of_ne (sub_nonneg.mpr h.price_le_one) (Ne.symm hprice)
      rw [le_div_iff₀ hpos]
      nlinarith
  rw [Position.loss]
  linarith

/-- The sizes of the open positions. -/
def exposed (positions : List Position) : ℚ := (positions.map (·.size)).sum

lemma exposure_held (positions : List Position) :
    PositionSizer.exposure (positions.map (·.held)) = exposed positions := by
  rw [PositionSizer.exposure, List.map_map]
  rfl

/-- A size leaves room in the portfolio, up to the rounding, and needs room for the minimum. -/
lemma size_le_room {sizer : PositionSizer} {edge : EdgeResult} {held : List HeldPosition} {d : ℚ}
    (hmin : 5 ≤ sizer.minPosition) (hd : 0 ≤ d) (hd' : d ≤ 1)
    (hpos : 0 < sizer.calculatePosition edge held d) :
    5 ≤ sizer.bankroll * sizer.maxPortfolioPct - PositionSizer.exposure held ∧
      sizer.calculatePosition edge held d ≤
        sizer.bankroll * sizer.maxPortfolioPct - PositionSizer.exposure held + 5 / 1000 := by
  have hadmits : sizer.Admits edge held := by
    by_contra hnot
    rw [PositionSizer.calculatePosition_of_not_admits hnot] at hpos
    exact lt_irrefl 0 hpos
  have hroom : sizer.cappedPosition edge held ≤
      max 0 (sizer.bankroll * sizer.maxPortfolioPct - PositionSizer.exposure held) := by
    refine (min_le_right _ _).trans ?_
    rw [PositionSizer.positionCap]
    cases sizer.maxSingleLossUsdc with
    | none => exact (min_le_right _ _).trans (min_le_left _ _)
    | some cap => exact (min_le_left _ _).trans ((min_le_right _ _).trans (min_le_left _ _))
  have hscaled : sizer.cappedPosition edge held * d ≤
      max 0 (sizer.bankroll * sizer.maxPortfolioPct - PositionSizer.exposure held) :=
    (mul_le_mul_of_nonneg_right hroom hd).trans (mul_le_of_le_one_right (le_max_left _ _) hd')
  rw [PositionSizer.calculatePosition_of_admits hadmits, PositionSizer.finish] at hpos ⊢
  split_ifs at hpos ⊢ with hsmall
  · exact absurd hpos (lt_irrefl 0)
  · have hfive : 5 ≤ sizer.cappedPosition edge held * d := hmin.trans (not_lt.mp hsmall)
    have hroom' := hfive.trans hscaled
    rw [le_max_iff, or_iff_right (by norm_num)] at hroom'
    rw [max_eq_right (by linarith)] at hscaled
    have hround := roundTo_le_add (n := 2) (sizer.cappedPosition edge held * d)
    have hhalf : (1 : ℚ) / 2 / 10 ^ 2 = 5 / 1000 := by norm_num
    rw [hhalf] at hround
    exact ⟨hroom', by linarith⟩

/-! ### The positions of a market -/

/-- Sizer and controller have the settings of the backtest. -/
structure Follows (cfg : Config) (s : State M) : Prop where
  sizer : s.sizer = cfg.sizer.updateBankroll s.bankroll
  reduceAt : s.drawdown.reduceAt = cfg.drawdownReduce
  stopAt : s.drawdown.stopAt = cfg.drawdownStop

/-- Positions are opened at most in full, and only above the stop. -/
lemma multiplier_bounds (hcfg : cfg.Sound) (hs : Follows cfg s) (hpeak : 0 < s.drawdown.peak)
    (hpos : 0 < s.drawdown.getMultiplier s.bankroll) :
    s.drawdown.getMultiplier s.bankroll ≤ 1 ∧ (1 - cfg.drawdownStop) * s.drawdown.peak < s.bankroll := by
  rw [DrawdownController.getMultiplier, if_neg (not_le.mpr hpeak), hs.reduceAt, hs.stopAt] at hpos ⊢
  dsimp only at hpos ⊢
  split_ifs at hpos ⊢ with hlimit hemergency hstop hreduce
  any_goals exact absurd hpos (lt_irrefl 0)
  all_goals rw [not_le, div_lt_iff₀ hpeak] at hstop
  · have hwidth : 0 < cfg.drawdownStop - cfg.drawdownReduce := sub_pos.mpr hcfg.reduce_lt
    exact ⟨sub_le_self 1 (div_nonneg (sub_nonneg.mpr hreduce) hwidth.le), by linarith⟩
  · exact ⟨le_rfl, by linarith⟩

/-- What is open is sound, within the cap of the portfolio, and was opened above the stop. -/
structure Opened (cfg : Config) (s : State M) (positions : List Position) : Prop where
  sound : ∀ position ∈ positions, position.Sound cfg
  room : positions ≠ [] → 5 ≤ s.bankroll * cfg.sizer.maxPortfolioPct ∧
    exposed positions ≤ s.bankroll * cfg.sizer.maxPortfolioPct + 5 / 1000 ∧
    (1 - cfg.drawdownStop) * s.drawdown.peak < s.bankroll

lemma Opened.exposed_nonneg (h : Opened cfg s positions) : 0 ≤ exposed positions :=
  List.sum_nonneg fun size hsize => by
    obtain ⟨position, hposition, rfl⟩ := List.mem_map.mp hsize
    exact (h.sound position hposition).size_pos.le

lemma slippage_nonneg (hcfg : cfg.Sound) (hspread : 0 ≤ row.spread) {size : ℚ} (hsize : 0 ≤ size) :
    0 ≤ executionSlippage cfg row size := by
  have hslippage := hcfg.slippage
  have himpact := hcfg.impact
  have hdepth : 0 < max (row.bidDepth + row.askDepth) 1 := lt_max_of_lt_right one_pos
  have hshare : 0 ≤ min (size / max (row.bidDepth + row.askDepth) 1) 1 :=
    le_min (div_nonneg hsize hdepth.le) zero_le_one
  rw [executionSlippage, Config.slippageRate]
  split_ifs
  · positivity
  · exact le_rfl

lemma entryPrice_bounds (direction : Direction) {midpoint slippage : ℚ} (hlow : 0 ≤ midpoint)
    (hhigh : midpoint ≤ 1) (hslippage : 0 ≤ slippage) :
    0 ≤ entryPrice direction midpoint slippage ∧ entryPrice direction midpoint slippage ≤ 1 := by
  rw [entryPrice]
  split_ifs
  · exact ⟨le_min (by norm_num) (by linarith), (min_le_left _ _).trans (by norm_num)⟩
  · exact ⟨(by norm_num : (0 : ℚ) ≤ 1 / 100).trans (le_max_left _ _), max_le (by norm_num) (by linarith)⟩

lemma tradeCost_le (hcfg : cfg.Sound) (hspread : row.spread ≤ 1) {size : ℚ} (hsize : 0 ≤ size) :
    tradeCost cfg row size ≤ size * cfg.costRate := by
  rw [tradeCost]
  split_ifs
  · have himpact := mul_le_of_le_one_left hcfg.impact hspread
    rw [Config.costRate]
    exact mul_le_mul_of_nonneg_left (by linarith) hsize
  · exact mul_nonneg hsize (Config.costRate_nonneg hcfg)

lemma Opened.openPosition (hcfg : cfg.Sound) (hs : Follows cfg s) (hpeak : 0 < s.drawdown.peak)
    (h : Opened cfg s positions) (hmid : 0 ≤ row.midpoint ∧ row.midpoint ≤ 1)
    (hspread : 0 ≤ row.spread ∧ row.spread ≤ 1) {regime : Regime}
    (hopen : openPosition cfg out s market row regime positions = some position) :
    Opened cfg s (positions ++ [position]) := by
  rw [Backtest.openPosition] at hopen
  split at hopen
  · cases hopen
  · next estimate hestimate =>
    dsimp only at hopen
    split_ifs at hopen with hedge hmultiplier hsize
    obtain rfl := Option.some.inj hopen
    rw [not_le] at hmultiplier hsize
    obtain ⟨hle, hstop⟩ := multiplier_bounds hcfg hs hpeak hmultiplier
    have hmin : 5 ≤ s.sizer.minPosition := by
      rw [hs.sizer]
      exact hcfg.minPosition
    obtain ⟨hfive, hroom⟩ := size_le_room hmin hmultiplier.le hle hsize
    have hportfolio : s.sizer.bankroll * s.sizer.maxPortfolioPct = s.bankroll * cfg.sizer.maxPortfolioPct := by
      rw [hs.sizer]
      rfl
    rw [exposure_held, hportfolio] at hfive hroom
    have hexposed := h.exposed_nonneg
    obtain ⟨hprice, hprice'⟩ := entryPrice_bounds estimate.direction hmid.1 hmid.2
      (slippage_nonneg hcfg hspread.1 hsize.le)
    constructor
    · rw [List.forall_mem_append, List.forall_mem_singleton]
      exact ⟨h.sound, hsize, hprice, hprice', tradeCost_le hcfg hspread.2 hsize.le⟩
    · intro _
      rw [exposed, List.map_append, List.sum_append, List.map_singleton, List.sum_singleton, ← exposed]
      exact ⟨by linarith, by linarith, hstop⟩

lemma Opened.walk (hcfg : cfg.Sound) (hs : Follows cfg s) (hpeak : 0 < s.drawdown.peak)
    {rows history : List PriceRow} {detector : RegimeDetector M}
    (hmid : ∀ row ∈ rows, 0 ≤ row.midpoint ∧ row.midpoint ≤ 1)
    (hspread : ∀ row ∈ rows, 0 ≤ row.spread ∧ row.spread ≤ 1) (h : Opened cfg s positions) :
    Opened cfg s (walk cfg out s market history rows detector positions).1 := by
  induction rows generalizing history detector positions with
  | nil => exact h
  | cons row rows ih =>
    obtain ⟨hmid_row, hmid_rows⟩ := List.forall_mem_cons.mp hmid
    obtain ⟨hspread_row, hspread_rows⟩ := List.forall_mem_cons.mp hspread
    rw [Backtest.walk]
    generalize regimeAt out (history ++ [row]) row detector = predicted
    obtain ⟨regime, detector'⟩ := predicted
    apply ih hmid_rows hspread_rows
    cases hopen : Backtest.openPosition cfg out s market row regime positions with
    | none => simpa [hopen] using h
    | some position => simpa [hopen] using h.openPosition hcfg hs hpeak hmid_row hspread_row hopen

/-! ### The resolution -/

/-- What the positions can lose at most. -/
def losses (cfg : Config) (positions : List Position) : ℚ := (positions.map (Position.loss cfg)).sum

lemma losses_eq (positions : List Position) :
    losses cfg positions = exposed positions * (1 + cfg.costRate) := by
  rw [losses, exposed, ← List.sum_map_mul_right]
  rfl

/-- The bankroll keeps its share of the peak, and the curve has kept it so far. -/
structure Bounded (cfg : Config) (s : State M) : Prop extends Follows cfg s where
  peak_pos : 0 < s.drawdown.peak
  bankroll_le : s.bankroll ≤ s.drawdown.peak
  le_bankroll : cfg.kept * s.drawdown.peak ≤ s.bankroll
  le_peak : ∀ value ∈ equityCurve cfg s, value ≤ s.drawdown.peak
  curve : (equityCurve cfg s).Pairwise fun earlier later => cfg.kept * earlier ≤ later

/-- The bankroll keeps its share even if everything that is open is lost. -/
structure Covers (cfg : Config) (s : State M) (positions : List Position) : Prop where
  le_bankroll : cfg.kept * s.drawdown.peak ≤ s.bankroll - losses cfg positions
  losses_le : losses cfg positions ≤ cfg.stake * s.drawdown.peak

lemma Config.kept_bounds (hcfg : cfg.Sound) : 0 ≤ cfg.kept ∧ cfg.kept ≤ 1 - cfg.stake := by
  have hstop := hcfg.stop
  have hstake := hcfg.stake
  rw [Config.kept]
  exact ⟨mul_nonneg (by linarith) (by linarith), mul_le_of_le_one_left (by linarith) (by linarith)⟩

lemma losses_nonneg (hcfg : cfg.Sound) (h : ∀ position ∈ positions, position.Sound cfg) :
    0 ≤ losses cfg positions := by
  have hcost := Config.costRate_nonneg hcfg
  apply List.sum_nonneg
  intro loss hloss
  obtain ⟨position, hposition, rfl⟩ := List.mem_map.mp hloss
  exact mul_nonneg (h position hposition).size_pos.le (by linarith)

/-- What is open when a market ends is covered. -/
lemma covers_of_opened (hcfg : cfg.Sound) (hs : Bounded cfg s) (h : Opened cfg s positions) :
    Covers cfg s positions := by
  have hstake := Config.stake_nonneg hcfg
  have hcost := Config.costRate_nonneg hcfg
  rcases eq_or_ne positions [] with rfl | hne
  · constructor
    · simpa [losses] using hs.le_bankroll
    · simpa [losses] using mul_nonneg hstake hs.peak_pos.le
  · obtain ⟨hfive, hexposed, hstop⟩ := h.room hne
    have hlosses : losses cfg positions ≤ cfg.stake * s.bankroll := by
      rw [losses_eq, Config.stake]
      nlinarith
    have hle : cfg.stake * s.bankroll ≤ cfg.stake * s.drawdown.peak :=
      mul_le_mul_of_nonneg_left hs.bankroll_le hstake
    constructor
    · have hkept : (1 - cfg.stake) * ((1 - cfg.drawdownStop) * s.drawdown.peak) ≤
          (1 - cfg.stake) * s.bankroll :=
        mul_le_mul_of_nonneg_left hstop.le (sub_nonneg.mpr hcfg.stake)
      rw [Config.kept]
      linarith
    · exact hlosses.trans hle

/-- A position is resolved: the others stay covered, also when the bankroll is a new peak. -/
lemma covers_resolvePosition (hcfg : cfg.Sound) (hmarket : market.Sound) (hs : Bounded cfg s)
    (hsound : ∀ other ∈ position :: positions, other.Sound cfg)
    (h : Covers cfg s (position :: positions)) :
    Covers cfg (resolvePosition market s position) positions := by
  obtain ⟨hposition, hpositions⟩ := List.forall_mem_cons.mp hsound
  have hpnl := hposition.neg_loss_le hmarket.resolution.1 hmarket.resolution.2
  have hsplit : losses cfg (position :: positions) = position.loss cfg + losses cfg positions := by
    rw [losses, List.map_cons, List.sum_cons, ← losses]
  have hnonneg := losses_nonneg hcfg hpositions
  have hloss : 0 ≤ position.loss cfg :=
    mul_nonneg hposition.size_pos.le (by linarith [Config.costRate_nonneg hcfg])
  have hle := h.le_bankroll
  have hlosses := h.losses_le
  rw [hsplit] at hle hlosses
  have hpeak : s.drawdown.peak ≤ max s.drawdown.peak (s.bankroll + resolutionPnl market.resolution position) :=
    le_max_left _ _
  have hstake := mul_le_mul_of_nonneg_left hpeak (Config.stake_nonneg hcfg)
  constructor
  · change cfg.kept * max s.drawdown.peak (s.bankroll + resolutionPnl market.resolution position) ≤
      s.bankroll + resolutionPnl market.resolution position - losses cfg positions
    rcases max_choice s.drawdown.peak (s.bankroll + resolutionPnl market.resolution position) with heq | heq
    · rw [heq]
      linarith
    · rw [heq] at hstake ⊢
      have hpos : 0 ≤ s.bankroll + resolutionPnl market.resolution position :=
        hs.peak_pos.le.trans (heq ▸ hpeak)
      have hkept := mul_le_mul_of_nonneg_right (Config.kept_bounds hcfg).2 hpos
      linarith
  · change losses cfg positions ≤
      cfg.stake * max s.drawdown.peak (s.bankroll + resolutionPnl market.resolution position)
    linarith

lemma equityCurve_resolvePosition : equityCurve cfg (resolvePosition market s position) =
    equityCurve cfg s ++ [s.bankroll + resolutionPnl market.resolution position] := by
  rw [equityCurve, equityCurve, resolvePosition, List.map_append, List.map_singleton, List.cons_append]
  rfl

lemma bounded_resolvePosition (hcfg : cfg.Sound) (hs : Bounded cfg s)
    (hsound : ∀ other ∈ positions, other.Sound cfg)
    (h : Covers cfg (resolvePosition market s position) positions) :
    Bounded cfg (resolvePosition market s position) := by
  have hkept := (Config.kept_bounds hcfg).1
  have hbankroll : cfg.kept * (resolvePosition market s position).drawdown.peak ≤
      (resolvePosition market s position).bankroll :=
    h.le_bankroll.trans (sub_le_self _ (losses_nonneg hcfg hsound))
  have hpeak : s.drawdown.peak ≤ (resolvePosition market s position).drawdown.peak := le_max_left _ _
  exact
    { sizer := by
        change s.sizer.updateBankroll _ = _
        rw [hs.sizer]
        rfl
      reduceAt := hs.reduceAt
      stopAt := hs.stopAt
      peak_pos := hs.peak_pos.trans_le hpeak
      bankroll_le := le_max_right _ _
      le_bankroll := hbankroll
      le_peak := by
        rw [equityCurve_resolvePosition, List.forall_mem_append, List.forall_mem_singleton]
        exact ⟨fun value hvalue => (hs.le_peak value hvalue).trans hpeak, le_max_right _ _⟩
      curve := by
        rw [equityCurve_resolvePosition, List.pairwise_append]
        refine ⟨hs.curve, List.pairwise_singleton _ _, fun earlier hearlier later hlater => ?_⟩
        rw [List.mem_singleton.mp hlater]
        exact (mul_le_mul_of_nonneg_left ((hs.le_peak earlier hearlier).trans hpeak) hkept).trans hbankroll }

lemma bounded_resolve (hcfg : cfg.Sound) (hmarket : market.Sound)
    (hsound : ∀ position ∈ positions, position.Sound cfg) (hs : Bounded cfg s)
    (h : Covers cfg s positions) : Bounded cfg (positions.foldl (resolvePosition market) s) := by
  induction positions generalizing s with
  | nil => exact hs
  | cons position positions ih =>
    have hcovers := covers_resolvePosition hcfg hmarket hs hsound h
    have hrest := (List.forall_mem_cons.mp hsound).2
    exact ih hrest (bounded_resolvePosition hcfg hs hrest hcovers) hcovers

/-! ### The run -/

lemma mem_of_mem_testRows (hrow : row ∈ testRows market) : row ∈ market.priceHistory := by
  rw [testRows] at hrow
  dsimp only at hrow
  split_ifs at hrow
  · cases hrow
  · cases hrow
  · exact List.mem_of_mem_drop hrow

lemma bounded_simulateMarket (hcfg : cfg.Sound) (hmarket : market.Sound) (hs : Bounded cfg s) :
    Bounded cfg (simulateMarket cfg out s market) := by
  rw [simulateMarket]
  split_ifs
  · exact hs
  · have hopened : Opened cfg s (walk cfg out s market (trainRows market) (testRows market)
        (train out market s.regimeDetector) []).1 :=
      Opened.walk hcfg hs.toFollows hs.peak_pos
        (fun row hrow => hmarket.midpoint row (mem_of_mem_testRows hrow))
        (fun row hrow => hmarket.spread row (mem_of_mem_testRows hrow))
        ⟨by simp, fun hne => absurd rfl hne⟩
    have hcovers := covers_of_opened hcfg hs hopened
    generalize walk cfg out s market (trainRows market) (testRows market)
      (train out market s.regimeDetector) [] = walked at hopened hcovers
    obtain ⟨positions, detector⟩ := walked
    have hs' : Bounded cfg { s with regimeDetector := detector } :=
      ⟨⟨hs.sizer, hs.reduceAt, hs.stopAt⟩, hs.peak_pos, hs.bankroll_le, hs.le_bankroll, hs.le_peak, hs.curve⟩
    exact bounded_resolve hcfg hmarket hopened.sound hs' ⟨hcovers.le_bankroll, hcovers.losses_le⟩

lemma bounded_start (hcfg : cfg.Sound) (out : Outside M) : Bounded cfg (start cfg out) := by
  have hpeak : (start cfg out).drawdown.peak = cfg.bankroll := max_eq_right hcfg.bankroll.le
  have hkept : cfg.kept ≤ 1 := (Config.kept_bounds hcfg).2.trans (by linarith [Config.stake_nonneg hcfg])
  exact
    { sizer := rfl
      reduceAt := rfl
      stopAt := rfl
      peak_pos := hpeak ▸ hcfg.bankroll
      bankroll_le := hpeak.ge
      le_bankroll := by
        rw [hpeak]
        exact mul_le_of_le_one_left hcfg.bankroll.le hkept
      le_peak := by
        rw [hpeak]
        simp [equityCurve, start]
      curve := by simp [equityCurve, start] }

lemma bounded_run (hcfg : cfg.Sound) (out : Outside M) {markets : List Market}
    (hmarkets : ∀ market ∈ markets, market.Sound) : Bounded cfg (run cfg out markets) := by
  have hsorted : ∀ market ∈ sortedMarkets markets, market.Sound := fun market hmarket =>
    hmarkets market ((List.perm_insertionSort _ _).mem_iff.mp hmarket)
  rw [run]
  generalize sortedMarkets markets = sorted at hsorted
  have hstart := bounded_start hcfg out
  generalize start cfg out = s at hstart
  induction sorted generalizing s with
  | nil => exact hstart
  | cons market sorted ih =>
    obtain ⟨hmarket, hrest⟩ := List.forall_mem_cons.mp hsorted
    exact ih hrest _ (bounded_simulateMarket hcfg hmarket hstart)

/-- The drawdown that a backtest reports is bounded by the stop and by what a market can lose, and the
bankroll never falls below the share of the first one that this leaves. -/
theorem computeMaxDrawdown_le (hcfg : cfg.Sound) (out : Outside M) {markets : List Market}
    (hmarkets : ∀ market ∈ markets, market.Sound) :
    computeMaxDrawdown (equityCurve cfg (run cfg out markets)) ≤ 1 - cfg.kept ∧
      ∀ value ∈ equityCurve cfg (run cfg out markets), cfg.kept * cfg.bankroll ≤ value := by
  have hcurve := (bounded_run hcfg out hmarkets).curve
  have hkept : cfg.kept ≤ 1 := (Config.kept_bounds hcfg).2.trans (by linarith [Config.stake_nonneg hcfg])
  rw [equityCurve] at hcurve ⊢
  refine ⟨computeMaxDrawdown_of_pairwise hcfg.bankroll hkept hcurve, ?_⟩
  rw [List.forall_mem_cons]
  exact ⟨mul_le_of_le_one_left hcfg.bankroll.le hkept, (List.pairwise_cons.mp hcurve).1⟩

/-- No model is fitted, and nothing is traded in the last day, so that `log1p` is asked about 0 only. -/
def unfitted : Outside Unit where
  hmm :=
    { unfitted := ()
      fit := fun _ _ => ((), false)
      volatilityMeans := fun _ => []
      predict := fun _ _ => none
      std := fun _ => 0 }
  log1p volume := if volume = 0 then some 0 else none
  today := 0

/-- A market at 0.5 for 64 hours, with many more bids than asks, which resolves to YES. -/
def lopsided : Market where
  conditionId := "lopsided"
  category := "science"
  resolution := 1
  priceHistory := (List.range 64).map fun hour => ⟨hour, 1 / 2, 1 / 50, 1000, 10, 0⟩
  resolutionDate := 200

def thousand : Config := { bankroll := 1000 }

theorem computeMaxDrawdown_le_lopsided :
    computeMaxDrawdown (equityCurve thousand (run thousand unfitted [lopsided])) ≤ 1 - thousand.kept ∧
      ∀ value ∈ equityCurve thousand (run thousand unfitted [lopsided]),
        thousand.kept * thousand.bankroll ≤ value := by
  refine computeMaxDrawdown_le ?_ unfitted fun market hmarket => ?_
  · constructor <;> norm_num [thousand, Config.stake, Config.costRate, Config.feeRate]
  · obtain rfl := List.mem_singleton.mp hmarket
    constructor
    · intro row hrow
      obtain ⟨hour, -, rfl⟩ := List.mem_map.mp hrow
      norm_num
    · intro row hrow
      obtain ⟨hour, -, rfl⟩ := List.mem_map.mp hrow
      norm_num
    · norm_num [lopsided]

end PolyCortex.Backtest
