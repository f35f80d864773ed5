import PolyCortex.Data.Json
import PolyCortex.Machine.History
import PolyCortex.Models.EdgeMirror
import PolyCortex.Strategies.Registry

/-!
# The built-in strategies

`MomentumStrategy` follows the last prices of a market, `BayesianTCNStrategy` adjusts the price by the order
book, the momentum, the sentiment and a prediction. An ensemble of them does not prefer a side: seen from
the other side of the markets, every signal has the other probability and the same confidence, over any
calls (`ensembleSignals_mirror`).
-/

namespace PolyCortex

open Machine

/-- `max(low, min(high, x))`. -/
def clampTo (low high x : ℚ) : ℚ := max low (min high x)

/-! ### Markets -/

/-- What a strategy is told about a market. -/
abbrev ScoredMarket := List (String × Json)

namespace ScoredMarket

variable (py : PyText) (market : ScoredMarket)

/-- `float(market.get(key, default))`; `none` when it raises. -/
def number (key : String) (default : ℚ) : Option ℚ := ((market.lookup key).getD (.num default)).float py

def price : Option ℚ :=
  ((market.lookup "midpoint").getD ((market.lookup "best_bid").getD (.num (1 / 2)))).float py

def marketId : String :=
  ((((Json.get "market_id" market).or (Json.get "condition_id" market)).or (Json.get "id" market)).or
    (.str "default")).toStr py

/-- `tcn_prob`, when it is a number. -/
def tcnProb : Option ℚ :=
  match Json.get "tcn_prob" market with
  | .num q => some q
  | .bool b => some (if b then 1 else 0)
  | _ => none

/-- `tcn_prob is not None`. -/
def tcnUsed : Bool :=
  match Json.get "tcn_prob" market with
  | .null => false
  | _ => true

end ScoredMarket

/-- The `metadata` of a signal. -/
inductive StrategyData where
  | momentum (lookback : ℕ) (deltaAndNudge : Option (ℚ × ℚ))
  | bayesian (orderBook momentum sentiment : ℚ) (tcnUsed : Bool)

/-! ### Momentum -/

structure MomentumStrategy where
  lookback : ℕ
  lookback_le : 2 ≤ lookback
  history : Dict String (List ℚ)

namespace MomentumStrategy

/-- `MomentumStrategy(lookback)`. -/
def new (lookback : ℤ) : MomentumStrategy where
  lookback := (max 2 lookback).toNat
  lookback_le := by omega
  history := .empty

/-- `_record`. -/
def record (s : MomentumStrategy) (marketId : String) (price : ℚ) : List ℚ × MomentumStrategy :=
  let buf := push s.lookback (find [] s.history marketId) price
  (buf, { s with history := s.history.set marketId buf })

/-- The signal for a buffer that ends with the price. -/
def signalOf (lookback : ℕ) (price : ℚ) (buf : List ℚ) : Signal StrategyData :=
  if buf.length < 2 then Signal.make price 0 (.momentum buf.length none)
  else
    let first := buf.headD 0
    let last := buf.getLastD 0
    let delta := last - first
    let nudge := clampTo (-(3 / 10)) (3 / 10) (delta * 2)
    let probability := clampTo (1 / 100) (99 / 100) (price + nudge)
    let confidence := min 1 (buf.length / lookback * min 1 (|delta| * 5))
    Signal.make probability confidence (.momentum buf.length (some (delta, nudge)))

def score (py : PyText) (s : MomentumStrategy) (market : ScoredMarket) :
    Option (Signal StrategyData) × MomentumStrategy :=
  match market.price py with
  | none => (none, s)
  | some price =>
    let (buf, s) := s.record (market.marketId py) price
    (some (signalOf s.lookback price buf), s)

end MomentumStrategy

/-! ### Order book, sentiment and prediction -/

structure BayesianTCNStrategy where
  obWeight : ℚ := 15 / 100
  momentumWeight : ℚ := 10 / 100
  sentimentWeight : ℚ := 30 / 100
  tcnWeight : ℚ := 25 / 100

namespace BayesianTCNStrategy

variable (s : BayesianTCNStrategy)

/-- `ob_adj`; `none` when the depths are divided by zero. -/
def obAdj (bidDepth askDepth : ℚ) : Option ℚ :=
  if bidDepth + askDepth + 1 / 10 ^ 8 = 0 then none
  else some ((bidDepth - askDepth) / (bidDepth + askDepth + 1 / 10 ^ 8) * s.obWeight)

def momAdj (price priceRoc : ℚ) : ℚ :=
  if 85 / 100 < price ∨ price < 15 / 100 then
    clampTo (-(3 / 100)) (3 / 100) (priceRoc * s.momentumWeight * 5)
  else 0

def sentAdj (sentiment sentConf : ℚ) : ℚ := sentiment * sentConf * s.sentimentWeight

/-- `combined`, with the prediction if there is one. -/
def combined (adjusted : ℚ) : Option ℚ → ℚ
  | some tcnProb => adjusted * (1 - s.tcnWeight) + tcnProb * s.tcnWeight
  | none => adjusted

def magnitude (price obAdj momAdj sentAdj : ℚ) (tcnProb : Option ℚ) : ℚ :=
  |obAdj| + |momAdj| + |sentAdj| + (tcnProb.map fun tcnProb => |tcnProb - price| * s.tcnWeight).getD 0

def score (py : PyText) (market : ScoredMarket) : Option (Signal StrategyData) := do
  let price ← market.price py
  let bidDepth ← market.number py "bid_depth" 0
  let askDepth ← market.number py "ask_depth" 0
  let obAdj ← s.obAdj bidDepth askDepth
  let priceRoc ← market.number py "price_roc_24h" 0
  let momAdj := s.momAdj price priceRoc
  let sentiment ← market.number py "sentiment_score" 0
  let sentConf ← market.number py "sentiment_confidence" 0
  let sentAdj := s.sentAdj sentiment sentConf
  let combined := s.combined (price + obAdj + momAdj + sentAdj) market.tcnProb
  let confidence := min 1 (s.magnitude price obAdj momAdj sentAdj market.tcnProb * 5)
  return Signal.make (clampTo (1 / 100) (99 / 100) combined) confidence
    (.bayesian obAdj momAdj sentAdj market.tcnUsed)

end BayesianTCNStrategy

/-! ### An ensemble of them -/

inductive BuiltinStrategy where
  | bayesianTcn (s : BayesianTCNStrategy)
  | momentum (s : MomentumStrategy)

def BuiltinStrategy.score (py : PyText) (s : BuiltinStrategy) (market : ScoredMarket) :
    Option (Signal StrategyData) × BuiltinStrategy :=
  match s with
  | .bayesianTcn b => (b.score py market, s)
  | .momentum m => ((m.score py market).1, .momentum (m.score py market).2)

abbrev BuiltinRegistry := StrategyRegistry BuiltinStrategy

inductive RegistryCall where
  | register (name : String) (strategy : BuiltinStrategy) (weight : ℚ)
  | unregister (name : String)
  | getEnsembleSignal (market : ScoredMarket)

/-- The registry after a call; one that raises leaves it as it is. -/
def RegistryCall.run (py : PyText) (registry : BuiltinRegistry) : RegistryCall → BuiltinRegistry
  | .register name strategy weight => (registry.register name strategy weight).toOption.getD registry
  | .unregister name => registry.unregister name
  | .getEnsembleSignal market => (registry.getEnsembleSignal (BuiltinStrategy.score py) market).2

/-- The probability and the confidence that a call returns. -/
def RegistryCall.result (py : PyText) (registry : BuiltinRegistry) : RegistryCall → Option (ℚ × ℚ)
  | .getEnsembleSignal market =>
    some (registry.getEnsembleSignal (BuiltinStrategy.score py) market).1.values
  | _ => none

/-- The signals of a run. -/
def signals (py : PyText) (registry : BuiltinRegistry) : List RegistryCall → List (ℚ × ℚ)
  | [] => []
  | call :: calls => (call.result py registry).toList ++ signals py (call.run py registry) calls

/-! ### The other side -/

/-- The prices of the other side. -/
def MomentumStrategy.mirror (s : MomentumStrategy) : MomentumStrategy :=
  { s with history := s.history.mapValues fun _ buf => buf.map (1 - ·) }

def BuiltinStrategy.mirror : BuiltinStrategy → BuiltinStrategy
  | .bayesianTcn b => .bayesianTcn b
  | .momentum m => .momentum m.mirror

def BuiltinRegistry.mirror (registry : BuiltinRegistry) : BuiltinRegistry :=
  registry.mapValues fun _ entry => { entry with strategy := entry.strategy.mirror }

/-- The same market from the other side, as far as the strategies look at it. -/
structure ScoredMarket.Mirrors (py : PyText) (market other : ScoredMarket) : Prop where
  marketId : other.marketId py = market.marketId py
  price : other.price py = (market.price py).map (1 - ·)
  bidDepth : other.number py "bid_depth" 0 = market.number py "ask_depth" 0
  askDepth : other.number py "ask_depth" 0 = market.number py "bid_depth" 0
  priceRoc : other.number py "price_roc_24h" 0 = (market.number py "price_roc_24h" 0).map (-·)
  sentiment : other.number py "sentiment_score" 0 = (market.number py "sentiment_score" 0).map (-·)
  sentConf : other.number py "sentiment_confidence" 0 = market.number py "sentiment_confidence" 0
  tcnProb : other.tcnProb = market.tcnProb.map (1 - ·)

inductive RegistryCall.Mirrors (py : PyText) : RegistryCall → RegistryCall → Prop where
  | register (name strategy weight) :
      Mirrors py (.register name strategy weight) (.register name strategy.mirror weight)
  | unregister (name) : Mirrors py (.unregister name) (.unregister name)
  | getEnsembleSignal {market other} (h : ScoredMarket.Mirrors py market other) :
      Mirrors py (.getEnsembleSignal market) (.getEnsembleSignal other)

/-- What the other side makes of a signal. -/
def mirrorValues (values : ℚ × ℚ) : ℚ × ℚ := (1 - values.1, values.2)

/-! ### Clamped numbers -/

lemma clampTo_eq_clip {low high : ℚ} (h : low ≤ high) (x : ℚ) :
    clampTo low high x = EdgeDetector.clip low high x := by
  rw [clampTo, EdgeDetector.clip, max_min_distrib_left, max_eq_right h, min_comm, max_comm]

lemma clampTo_neg {bound : ℚ} (hbound : 0 ≤ bound) (x : ℚ) :
    clampTo (-bound) bound (-x) = -clampTo (-bound) bound x := by
  rw [clampTo_eq_clip (neg_le_self hbound), clampTo_eq_clip (neg_le_self hbound),
    EdgeDetector.clip_neg hbound]

/-- A clamp around one half. -/
lemma clampTo_compl {low high : ℚ} (h : low ≤ high) (hsum : low + high = 1) (x : ℚ) :
    clampTo low high (1 - x) = 1 - clampTo low high x := by
  rw [clampTo_eq_clip h, clampTo_eq_clip h, ← hsum, EdgeDetector.clip_reflect h]

lemma clipUnit_compl (x : ℚ) : clipUnit (1 - x) = 1 - clipUnit x := clampTo_compl zero_le_one (zero_add 1) x

/-- The complement of a probability that has been made from a complement. -/
lemma values_make_mirror {μ μ' : Type} (p c : ℚ) (metadata : μ) (metadata' : μ') :
    (Signal.make (1 - p) c metadata').values = mirrorValues (Signal.make p c metadata).values := by
  rw [values_make, values_make, mirrorValues, clipUnit_compl]

/-! ### One strategy -/

variable {py : PyText} {market other : ScoredMarket}

namespace MomentumStrategy

lemma record_mirror (s : MomentumStrategy) (marketId : String) (price : ℚ) :
    s.mirror.record marketId (1 - price) =
      ((s.record marketId price).1.map (1 - ·), (s.record marketId price).2.mirror) := by
  have hfind : find [] s.mirror.history marketId = (find [] s.history marketId).map (1 - ·) := by
    rw [find, find, mirror, Dict.get?_mapValues]
    cases s.history.get? marketId <;> rfl
  have hpush : push s.mirror.lookback (find [] s.mirror.history marketId) (1 - price) =
      (push s.lookback (find [] s.history marketId) price).map (1 - ·) := by
    rw [push, push, map_rtake, hfind, List.map_append]
    rfl
  rw [record, record, hpush, mirror, mirror]
  dsimp only
  rw [Dict.mapValues_set]

lemma signalOf_mirror (lookback : ℕ) (price : ℚ) (buf : List ℚ) :
    (signalOf lookback (1 - price) (buf.map (1 - ·))).values =
      mirrorValues (signalOf lookback price buf).values := by
  rw [signalOf, signalOf, List.length_map]
  split_ifs with hlength
  · exact values_make_mirror _ _ _ _
  · have hne : buf ≠ [] := by
      rintro rfl
      exact hlength Nat.zero_lt_two
    have hdelta : (buf.map (1 - ·)).getLastD 0 - (buf.map (1 - ·)).headD 0 =
        -(buf.getLastD 0 - buf.headD 0) := by
      rw [List.getLastD_eq_getLast?, List.getLastD_eq_getLast?, List.headD_eq_head?_getD,
        List.headD_eq_head?_getD, List.getLast?_map, List.head?_map, List.getLast?_eq_some_getLast hne,
        List.head?_eq_some_head hne]
      simp
    dsimp only
    rw [hdelta, abs_neg, neg_mul, clampTo_neg (by norm_num)]
    generalize buf.getLastD 0 - buf.headD 0 = delta
    have hprobability : 1 - price + -clampTo (-(3 / 10)) (3 / 10) (delta * 2) =
        1 - (price + clampTo (-(3 / 10)) (3 / 10) (delta * 2)) := by ring
    rw [hprobability, clampTo_compl (by norm_num) (by norm_num)]
    exact values_make_mirror _ _ _ _

lemma score_mirror (s : MomentumStrategy) (h : market.Mirrors py other) :
    (s.mirror.score py other).1.map (·.values) = ((s.score py market).1.map (·.values)).map mirrorValues ∧
      (s.mirror.score py other).2 = (s.score py market).2.mirror := by
  rw [score, score, h.price, h.marketId]
  cases market.price py with
  | none => exact ⟨rfl, rfl⟩
  | some price =>
    simp only [Option.map_some, record_mirror]
    exact ⟨congrArg some (signalOf_mirror _ _ _), trivial⟩

end MomentumStrategy

namespace BayesianTCNStrategy

variable {s : BayesianTCNStrategy}

lemma obAdj_mirror (bidDepth askDepth : ℚ) :
    s.obAdj askDepth bidDepth = (s.obAdj bidDepth askDepth).map (-·) := by
  rw [obAdj, obAdj, add_comm askDepth bidDepth]
  split_ifs
  · rfl
  · rw [Option.map_some, ← neg_sub bidDepth askDepth, neg_div, neg_mul]

lemma momAdj_mirror (price priceRoc : ℚ) : s.momAdj (1 - price) (-priceRoc) = -s.momAdj price priceRoc := by
  have hextreme : (85 / 100 < 1 - price ∨ 1 - price < 15 / 100) ↔
      (85 / 100 < price ∨ price < 15 / 100) := by
    constructor
    · rintro (h | h)
      · exact Or.inr (by linarith)
      · exact Or.inl (by linarith)
    · rintro (h | h)
      · exact Or.inr (by linarith)
      · exact Or.inl (by linarith)
  simp only [momAdj, hextreme]
  split_ifs
  · rw [neg_mul, neg_mul, clampTo_neg (by norm_num)]
  · exact neg_zero.symm

lemma combined_mirror (adjusted : ℚ) (tcnProb : Option ℚ) :
    s.combined (1 - adjusted) (tcnProb.map (1 - ·)) = 1 - s.combined adjusted tcnProb := by
  cases tcnProb with
  | none => rfl
  | some tcnProb =>
    simp only [Option.map_some, combined]
    ring

lemma magnitude_mirror (price obAdj momAdj sentAdj : ℚ) (tcnProb : Option ℚ) :
    s.magnitude (1 - price) (-obAdj) (-momAdj) (-sentAdj) (tcnProb.map (1 - ·)) =
      s.magnitude price obAdj momAdj sentAdj tcnProb := by
  cases tcnProb with
  | none => simp [magnitude]
  | some tcnProb =>
    have hdiff : 1 - tcnProb - (1 - price) = -(tcnProb - price) := by ring
    simp only [magnitude, Option.map_some, abs_neg, hdiff]

lemma score_mirror (h : market.Mirrors py other) :
    (s.score py other).map (·.values) = ((s.score py market).map (·.values)).map mirrorValues := by
  rw [score, score, h.price, h.bidDepth, h.askDepth, h.priceRoc, h.sentiment, h.sentConf, h.tcnProb]
  cases market.price py with
  | none => rfl
  | some price =>
  cases market.number py "bid_depth" 0 with
  | none => cases market.number py "ask_depth" 0 <;> rfl
  | some bidDepth =>
  cases market.number py "ask_depth" 0 with
  | none => rfl
  | some askDepth =>
  simp only [Option.map_some, Option.bind_eq_bind, Option.bind_some, obAdj_mirror bidDepth askDepth]
  cases s.obAdj bidDepth askDepth with
  | none => rfl
  | some obAdj =>
  cases market.number py "price_roc_24h" 0 with
  | none => rfl
  | some priceRoc =>
  cases market.number py "sentiment_score" 0 with
  | none => rfl
  | some sentiment =>
  cases market.number py "sentiment_confidence" 0 with
  | none => rfl
  | some sentConf =>
  have hsent : s.sentAdj (-sentiment) sentConf = -s.sentAdj sentiment sentConf := by
    rw [sentAdj, sentAdj, neg_mul, neg_mul]
  have hadjusted : 1 - price + -obAdj + -s.momAdj price priceRoc + -s.sentAdj sentiment sentConf =
      1 - (price + obAdj + s.momAdj price priceRoc + s.sentAdj sentiment sentConf) := by ring
  simp only [Option.map_some, Option.bind_some, momAdj_mirror, hsent, hadjusted, combined_mirror,
    magnitude_mirror]
  rw [clampTo_compl (by norm_num) (by norm_num)]
  exact congrArg some (values_make_mirror _ _ _ _)

end BayesianTCNStrategy

/-- A strategy sees the other probability on the other side, and goes on seeing that side. -/
lemma BuiltinStrategy.score_mirror (s : BuiltinStrategy) (h : market.Mirrors py other) :
    (s.mirror.score py other).1.map (·.values) = ((s.score py market).1.map (·.values)).map mirrorValues ∧
      (s.mirror.score py other).2 = (s.score py market).2.mirror := by
  cases s with
  | bayesianTcn b => exact ⟨b.score_mirror h, rfl⟩
  | momentum m => exact ⟨(m.score_mirror h).1, congrArg BuiltinStrategy.momentum (m.score_mirror h).2⟩

/-! ### The ensemble -/

/-- The weights of some contributors, with their values. -/
def weightedValues {μ : Type} (contributors : List (ℚ × Signal μ)) : List (ℚ × ℚ × ℚ) :=
  contributors.map fun c => (c.1, c.2.values)

lemma contributors_mirror (registry : BuiltinRegistry) (h : market.Mirrors py other) :
    weightedValues (registry.mirror.contributors (BuiltinStrategy.score py) other) =
      (weightedValues (registry.contributors (BuiltinStrategy.score py) market)).map
        fun part => (part.1, mirrorValues part.2) := by
  rw [weightedValues, weightedValues, StrategyRegistry.contributors, StrategyRegistry.contributors,
    BuiltinRegistry.mirror, Dict.items_mapValues, List.filterMap_map, List.map_filterMap,
    List.map_filterMap, List.map_filterMap]
  refine List.filterMap_congr fun item _ => ?_
  have hscore := (item.2.strategy.score_mirror h).1
  simp only [Function.comp_apply, contribution]
  split_ifs
  · rfl
  · simpa [Option.map_map, Function.comp_def] using congrArg (Option.map (Prod.mk item.2.weight)) hscore

lemma weighted_mirror {μ : Type} {contributors others : List (ℚ × Signal μ)}
    (h : weightedValues others =
      (weightedValues contributors).map fun part => (part.1, mirrorValues part.2)) :
    weighted Signal.probability others =
        (weighted Signal.probability contributors).map (fun part => (part.1, 1 - part.2)) ∧
      weighted Signal.confidence others = weighted Signal.confidence contributors := by
  constructor
  · have hfirst := congrArg (List.map fun part => (part.1, part.2.1)) h
    simpa [weightedValues, weighted, Signal.values, mirrorValues, Function.comp_def] using hfirst
  · have hsecond := congrArg (List.map fun part => (part.1, part.2.2)) h
    simpa [weightedValues, weighted, Signal.values, mirrorValues, Function.comp_def] using hsecond

lemma ensembleValues_mirror {μ : Type} {contributors others : List (ℚ × Signal μ)}
    (hpos : ∀ c ∈ contributors, 0 < c.1)
    (h : weightedValues others =
      (weightedValues contributors).map fun part => (part.1, mirrorValues part.2)) :
    ensembleValues others = mirrorValues (ensembleValues contributors) := by
  obtain ⟨hprobability, hconfidence⟩ := weighted_mirror h
  have hempty : others.isEmpty = contributors.isEmpty := by
    have hlength := congrArg List.length h
    simp only [weightedValues, List.length_map] at hlength
    rw [Bool.eq_iff_iff, List.isEmpty_iff_length_eq_zero, List.isEmpty_iff_length_eq_zero, hlength]
  rw [ensembleValues, ensembleValues, hempty, hprobability, hconfidence]
  split_ifs with hnone
  · norm_num [mirrorValues]
  · have hweight : Weighted.weight (weighted Signal.probability contributors) ≠ 0 :=
      (Weighted.weight_pos (weighted_pos _ hpos) (weighted_ne_nil _ (by simpa using hnone))).ne'
    rw [Weighted.mean_compl 1 hweight]
    rfl

lemma getEnsembleSignal_mirror (registry : BuiltinRegistry) (h : market.Mirrors py other) :
    (registry.mirror.getEnsembleSignal (BuiltinStrategy.score py) other).1.values =
      mirrorValues (registry.getEnsembleSignal (BuiltinStrategy.score py) market).1.values := by
  rw [values_getEnsembleSignal, values_getEnsembleSignal]
  exact ensembleValues_mirror (fun c => weight_pos_of_mem) (contributors_mirror registry h)

/-! ### Runs -/

lemma scored_mirror (registry : BuiltinRegistry) (h : market.Mirrors py other) :
    registry.mirror.scored (BuiltinStrategy.score py) other =
      BuiltinRegistry.mirror (registry.scored (BuiltinStrategy.score py) market) := by
  rw [StrategyRegistry.scored, StrategyRegistry.scored, BuiltinRegistry.mirror, BuiltinRegistry.mirror,
    Dict.mapValues_mapValues, Dict.mapValues_mapValues]
  refine Dict.mapValues_congr fun name entry _ => ?_
  have hscore := (entry.strategy.score_mirror h).2
  dsimp only
  split_ifs
  · rfl
  · rw [hscore]

lemma unregister_mirror (registry : BuiltinRegistry) (name : String) :
    registry.mirror.unregister name = BuiltinRegistry.mirror (registry.unregister name) := by
  refine Dict.ext ?_ (funext fun key => ?_)
  · simp only [StrategyRegistry.unregister, BuiltinRegistry.mirror, Dict.filter, Dict.mapValues]
    refine List.filter_congr fun key _ => ?_
    cases registry.get? key <;> rfl
  · simp only [StrategyRegistry.unregister, BuiltinRegistry.mirror, Dict.get?_filter, Dict.get?_mapValues]
    cases registry.get? key with
    | none => rfl
    | some entry => by_cases hkey : key = name <;> simp [Option.filter, hkey]

variable {call callOther : RegistryCall}

/-- A call on the other side leaves the registry of the other side. -/
lemma RegistryCall.Mirrors.run (h : call.Mirrors py callOther) (registry : BuiltinRegistry) :
    callOther.run py registry.mirror = (call.run py registry).mirror := by
  cases h with
  | register name strategy weight =>
    simp only [RegistryCall.run, StrategyRegistry.register]
    split_ifs
    · rfl
    · exact (Dict.mapValues_set registry (fun entry => { entry with strategy := entry.strategy.mirror })
        name ⟨strategy, weight, _⟩).symm
  | unregister name => exact unregister_mirror registry name
  | getEnsembleSignal hmarket =>
    have hkeys : registry.mirror.keys = registry.keys := rfl
    simp only [RegistryCall.run, StrategyRegistry.getEnsembleSignal, hkeys]
    by_cases hnone : registry.keys = []
    · rw [if_pos hnone, if_pos hnone]
    · rw [if_neg hnone, if_neg hnone]
      exact scored_mirror registry hmarket

lemma RegistryCall.Mirrors.result (h : call.Mirrors py callOther) (registry : BuiltinRegistry) :
    callOther.result py registry.mirror = (call.result py registry).map mirrorValues := by
  cases h with
  | register => rfl
  | unregister => rfl
  | getEnsembleSignal hmarket => exact congrArg some (getEnsembleSignal_mirror registry hmarket)

/-- Over any calls, on the other side of all markets every signal is the other side of the signal. -/
theorem ensembleSignals_mirror (registry : BuiltinRegistry) {calls others : List RegistryCall}
    (h : List.Forall₂ (RegistryCall.Mirrors py) calls others) :
    signals py registry.mirror others = (signals py registry calls).map mirrorValues := by
  induction h generalizing registry with
  | nil => rfl
  | cons hcall _ ih =>
    rw [signals, signals, hcall.run, hcall.result, ih, List.map_append]
    congr 1
    cases RegistryCall.result py registry _ <;> rfl

/-- A market with a bid side that is deeper than the ask side, or the other way round. -/
def bookedMarket (price bidDepth askDepth : ℚ) : ScoredMarket :=
  [("market_id", .str "m"), ("midpoint", .num price), ("bid_depth", .num bidDepth),
    ("ask_depth", .num askDepth)]

lemma bookedMarket_mirrors (py : PyText) (price bidDepth askDepth : ℚ) :
    (bookedMarket price bidDepth askDepth).Mirrors py (bookedMarket (1 - price) askDepth bidDepth) := by
  constructor <;> simp [bookedMarket, ScoredMarket.marketId, ScoredMarket.price, ScoredMarket.number,
    ScoredMarket.tcnProb, Json.get, Json.float, List.lookup_cons]

/-- Two strategies with equal weights, asked twice about a market that rises, and about one that falls. -/
def askedTwice (momentum : BuiltinStrategy) (first second : ScoredMarket) : List RegistryCall :=
  [.register "bayesian_tcn" (.bayesianTcn {}) 1, .register "momentum" momentum 1, .getEnsembleSignal first,
    .getEnsembleSignal second]

theorem ensembleSignals_mirror_askedTwice :
    let py : PyText := ⟨fun _ => none, fun _ => none, fun _ => none, fun _ => ""⟩
    let momentum := BuiltinStrategy.momentum (.new 10)
    signals py (BuiltinRegistry.mirror .empty)
        (askedTwice momentum.mirror (bookedMarket (1 - 2 / 5) 100 300) (bookedMarket (1 - 1 / 2) 100 300)) =
      (signals py .empty
        (askedTwice momentum (bookedMarket (2 / 5) 300 100) (bookedMarket (1 / 2) 300 100))).map
          mirrorValues := by
  intro py momentum
  apply ensembleSignals_mirror
  refine .cons (.register "bayesian_tcn" (.bayesianTcn {}) 1) (.cons (.register "momentum" momentum 1) ?_)
  exact .cons (.getEnsembleSignal (bookedMarket_mirrors py _ _ _))
    (.cons (.getEnsembleSignal (bookedMarket_mirrors py _ _ _)) .nil)

end PolyCortex
