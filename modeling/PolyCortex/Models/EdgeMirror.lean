import PolyCortex.Execution.Mirror
import PolyCortex.Models.Edge

/-!
# The edge from the other side of the market

Mirroring a market negates the signals and complements the probabilities, so that the edge stays and the
direction turns (`signedEdge_mirror`). The confidence compares the magnitudes of the signals that point
up and down; the TCN takes part in it with a probability, which always points up, and that is why it is
not the same from both sides (`confidence_mirror_iff`).
-/

namespace PolyCortex

/-- The other side of a sentiment. -/
def SentimentResult.mirror (s : SentimentResult) : SentimentResult := { s with score := -s.score }

def RelatedMarket.mirror (market : RelatedMarket) : RelatedMarket :=
  { market with priceChange24h := -market.priceChange24h }

namespace EdgeDetector

/-- The market with YES and NO exchanged. -/
def MarketData.mirror (data : MarketData) : MarketData :=
  { data with
    midpoint := 1 - data.midpoint
    bidDepth := data.askDepth
    askDepth := data.bidDepth
    priceRoc24h := -data.priceRoc24h
    relatedMarkets := data.relatedMarkets.map (·.mirror) }

variable {d : EdgeDetector} {data : MarketData} {cached : Option SentimentResult}
  {tcnProb : Option ℚ} {regime : Regime} {signals : List (String × ℚ)} {x : ℚ}

/-! ### Signals -/

/-- Clipping commutes with the reflection of the interval. -/
lemma clip_reflect {low high : ℚ} (h : low ≤ high) (x : ℚ) :
    clip low high (low + high - x) = low + high - clip low high x := by
  unfold clip
  rcases le_total x low with hlow | hlow
  · rw [max_eq_left (by linarith), min_eq_right (by linarith), max_eq_right hlow, min_eq_left h]
    ring
  · rcases le_total x high with hhigh | hhigh
    · rw [max_eq_left (by linarith), min_eq_left (by linarith), max_eq_left hlow, min_eq_left hhigh]
    · rw [max_eq_right (by linarith), min_eq_left h, max_eq_left hlow, min_eq_right hhigh]
      ring

lemma clip_neg {bound : ℚ} (hbound : 0 ≤ bound) (x : ℚ) :
    clip (-bound) bound (-x) = -clip (-bound) bound x := by
  have hreflect := clip_reflect (neg_le_self hbound) x
  rwa [neg_add_cancel, zero_sub, zero_sub] at hreflect

lemma orderBookSignal_mirror : d.orderBookSignal data.mirror = -d.orderBookSignal data := by
  simp only [orderBookSignal, MarketData.mirror]
  rw [add_comm data.askDepth, ← neg_sub data.bidDepth, neg_div, neg_mul]

lemma momentumSignal_mirror : d.momentumSignal data.mirror = -d.momentumSignal data := by
  have hextreme : (85 / 100 < 1 - data.midpoint ∨ 1 - data.midpoint < 15 / 100) ↔
      (85 / 100 < data.midpoint ∨ data.midpoint < 15 / 100) := by
    constructor
    · rintro (h | h)
      · exact Or.inr (by linarith)
      · exact Or.inl (by linarith)
    · rintro (h | h)
      · exact Or.inr (by linarith)
      · exact Or.inl (by linarith)
  simp only [momentumSignal, MarketData.mirror, hextreme]
  split_ifs
  · rw [neg_mul, neg_mul, neg_div, clip_neg (by norm_num)]
  · exact neg_zero.symm

lemma sentimentSignal_mirror : d.sentimentSignal data.mirror (cached.map (·.mirror)) =
    -d.sentimentSignal data cached := by
  simp only [sentimentSignal, MarketData.mirror]
  cases cached with
  | none => simp
  | some result =>
    simp only [Option.map_some, SentimentResult.mirror]
    split_ifs <;> ring

lemma calcCrossSignal_mirror (related : List RelatedMarket) :
    calcCrossSignal (related.map (·.mirror)) = -calcCrossSignal related := by
  have hsum : ((related.map (·.mirror)).map fun market =>
      market.priceChange24h * market.correlation).sum =
      -(related.map fun market => market.priceChange24h * market.correlation).sum := by
    rw [List.map_map, List.sum_neg, List.map_map]
    congr 2
    funext market
    exact neg_mul _ _
  simp only [calcCrossSignal, hsum, List.map_eq_nil_iff, List.length_map]
  split_ifs
  · exact neg_zero.symm
  · rw [neg_div, neg_div, clip_neg (by norm_num)]

/-! ### Probabilities -/

lemma bayesianProb_mirror : d.bayesianProb data.mirror (cached.map (·.mirror)) =
    1 - d.bayesianProb data cached := by
  rw [bayesianProb, bayesianProb, orderBookSignal_mirror, momentumSignal_mirror,
    sentimentSignal_mirror]
  have hrelated : data.mirror.relatedMarkets = data.relatedMarkets.map (·.mirror) := rfl
  have hmidpoint : data.mirror.midpoint = 1 - data.midpoint := rfl
  rw [hrelated, hmidpoint, calcCrossSignal_mirror]
  have hbounds : (1 : ℚ) / 100 ≤ 99 / 100 := by norm_num
  have hreflect := clip_reflect hbounds
    (data.midpoint + d.orderBookSignal data + d.momentumSignal data + d.sentimentSignal data cached +
      calcCrossSignal data.relatedMarkets * d.signalWeight "cross_market" (10 / 100))
  have hone : (1 : ℚ) / 100 + 99 / 100 = 1 := by norm_num
  rw [hone] at hreflect
  rw [← hreflect]
  congr 1
  ring

/-- The weights with which the two probabilities of a regime are blended. -/
def blendWeights (d : EdgeDetector) (regime : Regime) : BlendWeights :=
  (d.regimeWeights.lookup regime).getD {}

lemma rawProb_mirror (hweights : (d.blendWeights regime).bayesian + (d.blendWeights regime).tcn = 1) :
    d.rawProb data.mirror (cached.map (·.mirror)) (tcnProb.map (1 - ·)) regime =
      1 - d.rawProb data cached tcnProb regime := by
  cases tcnProb with
  | none => exact bayesianProb_mirror
  | some prob =>
    simp only [rawProb, Option.map_some, bayesianProb_mirror]
    rw [blendWeights] at hweights
    linear_combination hweights

/-- The calibrator does not prefer a side. -/
def Unbiased (d : EdgeDetector) : Prop :=
  ∀ calibrator ∈ d.probabilityCalibrator, ∀ prob, calibrator (1 - prob) = 1 - calibrator prob

lemma calibrate_compl (hcalibrator : d.Unbiased) (prob : ℚ) :
    d.calibrate (1 - prob) = 1 - d.calibrate prob := by
  rw [calibrate, calibrate]
  cases hc : d.probabilityCalibrator with
  | none => rfl
  | some calibrator => exact hcalibrator calibrator hc prob

/-- How far the calibrated probability is above the price. -/
def signedEdge (d : EdgeDetector) (data : MarketData) (cached : Option SentimentResult)
    (tcnProb : Option ℚ) (regime : Regime) : ℚ :=
  d.calibrate (d.rawProb data cached tcnProb regime) - data.midpoint

lemma signedEdge_mirror (hweights : (d.blendWeights regime).bayesian + (d.blendWeights regime).tcn = 1)
    (hcalibrator : d.Unbiased) :
    d.signedEdge data.mirror (cached.map (·.mirror)) (tcnProb.map (1 - ·)) regime =
      -d.signedEdge data cached tcnProb regime := by
  rw [signedEdge, signedEdge, rawProb_mirror hweights, calibrate_compl hcalibrator]
  simp only [MarketData.mirror]
  ring

/-! ### The confidence -/

/-- The magnitude of the signals that point up. -/
def upward (signals : List (String × ℚ)) : ℚ := (signals.map fun signal => max signal.2 0).sum

/-- The magnitude of the signals that point down. -/
def downward (signals : List (String × ℚ)) : ℚ := (signals.map fun signal => max (-signal.2) 0).sum

lemma upward_nonneg (signals : List (String × ℚ)) : 0 ≤ upward signals := by
  apply List.sum_nonneg
  intro v hv
  obtain ⟨signal, -, rfl⟩ := List.mem_map.mp hv
  exact le_max_right _ _

lemma downward_nonneg (signals : List (String × ℚ)) : 0 ≤ downward signals := by
  apply List.sum_nonneg
  intro v hv
  obtain ⟨signal, -, rfl⟩ := List.mem_map.mp hv
  exact le_max_right _ _

/-- All signals together, without those that are zero. -/
lemma sum_abs_nonzero (signals : List (String × ℚ)) :
    (((signals.map (·.2)).filter (· ≠ 0)).map (|·|)).sum = upward signals + downward signals := by
  induction signals with
  | nil => simp [upward, downward]
  | cons signal signals ih =>
    simp only [upward, downward, List.map_cons, List.sum_cons] at ih ⊢
    by_cases hzero : signal.2 = 0
    · rw [List.filter_cons_of_neg (by simp [hzero]), ih, hzero, neg_zero, max_self]
      ring
    · rw [List.filter_cons_of_pos (by simpa using hzero), List.map_cons, List.sum_cons, ih,
        ← max_zero_add_max_neg_zero_eq_abs_self signal.2]
      ring

/-- The signals that agree with the direction. -/
lemma sum_abs_agreeing (signals : List (String × ℚ)) (edge : ℚ) :
    ((((signals.map (·.2)).filter (· ≠ 0)).filter fun v => (0 < v : Bool) = (0 < edge : Bool)).map
      (|·|)).sum = if 0 < edge then upward signals else downward signals := by
  induction signals with
  | nil => simp [upward, downward]
  | cons signal signals ih =>
    simp only [upward, downward, List.map_cons, List.sum_cons] at ih ⊢
    rcases lt_trichotomy signal.2 0 with hneg | hzero | hpos
    · rw [List.filter_cons_of_pos (by simpa using hneg.ne), max_eq_right hneg.le,
        max_eq_left (by linarith)]
      by_cases hedge : 0 < edge
      · rw [List.filter_cons_of_neg (by simp [hedge, hneg.le]), ih, if_pos hedge, if_pos hedge, zero_add]
      · rw [List.filter_cons_of_pos (by simp [hedge, not_lt.mpr hneg.le]), List.map_cons, List.sum_cons,
          ih, if_neg hedge, if_neg hedge, abs_of_neg hneg]
    · rw [List.filter_cons_of_neg (by simp [hzero]), ih, hzero, neg_zero, max_self, zero_add, zero_add]
    · rw [List.filter_cons_of_pos (by simpa using hpos.ne'), max_eq_left hpos.le,
        max_eq_right (by linarith)]
      by_cases hedge : 0 < edge
      · rw [List.filter_cons_of_pos (by simp [hedge, hpos]), List.map_cons, List.sum_cons, ih,
          if_pos hedge, if_pos hedge, abs_of_pos hpos]
      · rw [List.filter_cons_of_neg (by simp [hedge, hpos]), ih, if_neg hedge, if_neg hedge, zero_add]

/-- The agreement compares the two magnitudes. -/
lemma agreement_eq (signals : List (String × ℚ)) (edge : ℚ) :
    agreement signals edge =
      (if 0 < edge then upward signals else downward signals) /
        (upward signals + downward signals + 1 / 10 ^ 8) := by
  rw [agreement]
  split_ifs with hnil hedge hedge
  · have hagreeing := sum_abs_agreeing signals edge
    rw [hnil, if_pos hedge] at hagreeing
    rw [← hagreeing]
    simp
  · have hagreeing := sum_abs_agreeing signals edge
    rw [hnil, if_neg hedge] at hagreeing
    rw [← hagreeing]
    simp
  · rw [sum_abs_agreeing, sum_abs_nonzero, if_pos hedge]
  · rw [sum_abs_agreeing, sum_abs_nonzero, if_neg hedge]

/-- The signals of the mirrored market, the TCN aside. -/
lemma signals_mirror : d.signals data.mirror (cached.map (·.mirror)) none =
    (d.signals data cached none).map fun signal => (signal.1, -signal.2) := by
  have hrelated : data.mirror.relatedMarkets = data.relatedMarkets.map (·.mirror) := rfl
  simp only [signals, orderBookSignal_mirror, momentumSignal_mirror, sentimentSignal_mirror, hrelated,
    calcCrossSignal_mirror, List.append_nil, List.map_cons, List.map_nil, neg_mul]

lemma upward_negated (signals : List (String × ℚ)) :
    upward (signals.map fun signal => (signal.1, -signal.2)) = downward signals := by
  rw [upward, List.map_map]
  rfl

lemma downward_negated (signals : List (String × ℚ)) :
    downward (signals.map fun signal => (signal.1, -signal.2)) = upward signals := by
  simp [downward, upward, Function.comp_def]

/-- The TCN points up, with its probability. -/
lemma upward_signals_some {prob : ℚ} (hprob : 0 ≤ prob) :
    upward (d.signals data cached (some prob)) = upward (d.signals data cached none) + prob := by
  simp [upward, signals, hprob]
  ring

lemma downward_signals_some {prob : ℚ} (hprob : 0 ≤ prob) :
    downward (d.signals data cached (some prob)) = downward (d.signals data cached none) := by
  simp [downward, signals, hprob]

/-- The confidence is the same from both sides of the market: without the TCN when there is a direction
or the signals cancel out, and with it when it adds nothing to the signals that agree. -/
def ConfidenceMirrors (d : EdgeDetector) (data : MarketData) (cached : Option SentimentResult)
    (tcnProb : Option ℚ) (regime : Regime) : Prop :=
  let up := upward (d.signals data cached none)
  let down := downward (d.signals data cached none)
  let edge := d.signedEdge data cached tcnProb regime
  match tcnProb with
  | none => edge ≠ 0 ∨ up = down
  | some prob => 0 < edge ∧ prob = 0 ∧ up = 0 ∨ edge < 0 ∧ prob = 1 ∧ down = 0 ∨
      edge = 0 ∧ down * (up + down + (1 - prob) + 1 / 10 ^ 8) = up * (up + down + prob + 1 / 10 ^ 8)

/-- With the weight of the TCN among the signals that agree on one side only, the shares are the same
when there is nothing that agrees. -/
lemma share_eq_iff {up down prob : ℚ} (hup : 0 ≤ up) (hdown : 0 ≤ down) (hprob : 0 ≤ prob)
    (hprob' : prob ≤ 1) :
    (up + prob) / (up + down + prob + 1 / 10 ^ 8) = up / (up + down + (1 - prob) + 1 / 10 ^ 8) ↔
      prob = 0 ∧ up = 0 := by
  have hcompl := sub_nonneg.mpr hprob'
  rw [div_eq_div_iff (by positivity) (by positivity)]
  have hcross : (up + prob) * (up + down + (1 - prob) + 1 / 10 ^ 8) =
      up * (up + down + prob + 1 / 10 ^ 8) ↔
      up * (1 - prob) + prob * (down + (1 - prob) + 1 / 10 ^ 8) = 0 := by
    constructor <;> intro h <;> linear_combination h
  rw [hcross, add_eq_zero_iff_of_nonneg (by positivity) (by positivity), mul_eq_zero, mul_eq_zero]
  have hrest : down + (1 - prob) + 1 / 10 ^ 8 ≠ 0 := by positivity
  constructor
  · rintro ⟨hleft, hright⟩
    obtain rfl := hright.resolve_right hrest
    exact ⟨rfl, hleft.resolve_right (by norm_num)⟩
  · rintro ⟨rfl, rfl⟩
    exact ⟨Or.inl rfl, Or.inl rfl⟩

lemma agreement_mirror_iff (hprob : ∀ prob ∈ tcnProb, 0 ≤ prob ∧ prob ≤ 1) :
    agreement (d.signals data.mirror (cached.map (·.mirror)) (tcnProb.map (1 - ·)))
        (-d.signedEdge data cached tcnProb regime) =
      agreement (d.signals data cached tcnProb) (d.signedEdge data cached tcnProb regime) ↔
        d.ConfidenceMirrors data cached tcnProb regime := by
  have hup := upward_nonneg (d.signals data cached none)
  have hdown := downward_nonneg (d.signals data cached none)
  rw [agreement_eq, agreement_eq]
  unfold ConfidenceMirrors
  cases tcnProb with
  | none =>
    rw [Option.map_none, signals_mirror, upward_negated, downward_negated]
    dsimp only
    generalize upward (d.signals data cached none) = up at hup
    generalize downward (d.signals data cached none) = down at hdown
    rw [add_comm down up, div_left_inj' (by positivity)]
    rcases lt_trichotomy (d.signedEdge data cached none regime) 0 with hneg | hzero | hpos
    · simp [hneg, hneg.not_gt, hneg.ne]
    · simp [hzero]
    · simp [hpos, hpos.not_gt, hpos.ne']
  | some prob =>
    obtain ⟨hprob, hprob'⟩ := hprob prob rfl
    have hcompl := sub_nonneg.mpr hprob'
    rw [Option.map_some, upward_signals_some hcompl, downward_signals_some hcompl, signals_mirror,
      upward_negated, downward_negated, upward_signals_some hprob, downward_signals_some hprob]
    dsimp only
    generalize upward (d.signals data cached none) = up at hup
    generalize downward (d.signals data cached none) = down at hdown
    have hsum : up + prob + down + 1 / 10 ^ 8 = up + down + prob + 1 / 10 ^ 8 := by ring
    have hsum' : down + (1 - prob) + up + 1 / 10 ^ 8 = up + down + (1 - prob) + 1 / 10 ^ 8 := by ring
    rw [hsum, hsum']
    rcases lt_trichotomy (d.signedEdge data cached (some prob) regime) 0 with hneg | hzero | hpos
    · have hshare := share_eq_iff hdown hup hcompl (sub_le_self 1 hprob)
      rw [sub_sub_cancel, add_comm down up, sub_eq_zero] at hshare
      simp only [neg_pos, hneg, hneg.not_gt, hneg.ne, if_true, if_false, false_and, true_and, false_or,
        or_false, hshare, eq_comm]
    · simp only [hzero, neg_zero, lt_irrefl, if_false, false_and, false_or, true_and]
      rw [div_eq_div_iff (by positivity) (by positivity), eq_comm]
    · have hshare := share_eq_iff hup hdown hprob hprob'
      simp only [neg_pos, hpos, hpos.not_gt, hpos.ne', if_true, if_false, false_and, true_and, or_false]
      rw [eq_comm, hshare]

end EdgeDetector

/-- The estimate of the mirrored market is the mirror of the estimate. -/
structure EdgeEstimate.Mirrors (e e' : EdgeEstimate) : Prop where
  edge : e'.edge = e.edge
  confidence : e'.confidence = e.confidence
  estimatedProb : e'.estimatedProb = 1 - e.estimatedProb
  direction : e.edge ≠ 0 → e'.direction = e.direction.opposite

namespace EdgeDetector

variable {log1p : ℚ → Option ℚ} {d : EdgeDetector} {data : MarketData}
  {cached : Option SentimentResult} {tcnProb : Option ℚ} {regime : Regime} {e : EdgeEstimate}

/-- The mirrored market has the mirrored estimate, exactly when the confidence is the same. -/
theorem estimateEdge_mirrors_iff
    (hweights : (d.blendWeights regime).bayesian + (d.blendWeights regime).tcn = 1)
    (hcalibrator : d.Unbiased) (hprob : ∀ prob ∈ tcnProb, 0 ≤ prob ∧ prob ≤ 1)
    (h : estimateEdge log1p d data cached tcnProb regime = some e) :
    ∃ e', estimateEdge log1p d data.mirror (cached.map (·.mirror)) (tcnProb.map (1 - ·)) regime =
        some e' ∧
      (e.Mirrors e' ↔ d.ConfidenceMirrors data cached tcnProb regime) := by
  have hraw : d.rawProb data.mirror (cached.map (·.mirror)) (tcnProb.map (1 - ·)) regime =
      1 - d.rawProb data cached tcnProb regime := rawProb_mirror hweights
  have hsigned : d.calibrate (d.rawProb data.mirror (cached.map (·.mirror)) (tcnProb.map (1 - ·))
      regime) - data.mirror.midpoint = -d.signedEdge data cached tcnProb regime :=
    signedEdge_mirror hweights hcalibrator
  have hdepth : data.mirror.bidDepth + data.mirror.askDepth = data.bidDepth + data.askDepth :=
    add_comm _ _
  rw [estimateEdge] at h
  split_ifs at h with hzero
  obtain ⟨logVolume, hlog, rfl⟩ := Option.map_eq_some_iff.mp h
  have hlog' : log1p data.mirror.volume24h = some logVolume := hlog
  refine ⟨_, by rw [estimateEdge, hdepth, if_neg hzero, hlog', Option.map_some], ?_⟩
  rw [← agreement_mirror_iff hprob]
  have hfactor : max (7 / 10) (1 - min (logVolume / 15) (3 / 10)) ≠ 0 :=
    (lt_max_of_lt_left (by norm_num)).ne'
  constructor
  · intro hmirrors
    have hconfidence := hmirrors.confidence
    dsimp only at hconfidence
    rw [hsigned] at hconfidence
    exact mul_right_cancel₀ hfactor hconfidence
  · intro hagreement
    refine ⟨?_, ?_, ?_, ?_⟩
    · dsimp only
      rw [hsigned, abs_neg]
      rfl
    · dsimp only
      rw [hsigned, hagreement]
      rfl
    · dsimp only
      rw [hraw, calibrate_compl hcalibrator]
    · intro hedge
      have hne : d.signedEdge data cached tcnProb regime ≠ 0 :=
        fun hnone => hedge (abs_eq_zero.mpr hnone)
      change (if 0 < d.calibrate _ - data.mirror.midpoint then Direction.yes else .no) =
        (if 0 < d.signedEdge data cached tcnProb regime then Direction.yes else .no).opposite
      rw [hsigned]
      rcases lt_or_gt_of_ne hne with hneg | hpos
      · rw [if_pos (neg_pos.mpr hneg), if_neg hneg.not_gt]
        rfl
      · rw [if_neg (not_lt.mpr (neg_nonpos.mpr hpos.le)), if_pos hpos]
        rfl

/-- A coin at a half, with bids only. -/
def bidCoin : MarketData where
  marketId := "coin"
  category := "coins"
  midpoint := 1 / 2
  bidDepth := 100

/-- `log1p` where nothing was traded. -/
def log1pOfNone (volume : ℚ) : Option ℚ := if volume = 0 then some 0 else none

lemma bidCoin_confidenceMirrors : ConfidenceMirrors {} bidCoin none none .stable := by
  refine Or.inl ?_
  decide +kernel

/-- Without the TCN the estimate of the coin is mirrored. -/
theorem estimateEdge_mirrors_bidCoin :
    ∃ e e', estimateEdge log1pOfNone {} bidCoin none none .stable = some e ∧
      estimateEdge log1pOfNone {} bidCoin.mirror none none .stable = some e' ∧ e.Mirrors e' := by
  obtain ⟨e, he⟩ : ∃ e, estimateEdge log1pOfNone {} bidCoin none none .stable = some e :=
    Option.isSome_iff_exists.mp (by decide +kernel)
  obtain ⟨e', he', hmirrors⟩ := estimateEdge_mirrors_iff (by decide +kernel)
    (fun _ h => by cases h) (fun _ h => by cases h) he
  exact ⟨e, e', he, he', hmirrors.mpr bidCoin_confidenceMirrors⟩

/-- The TCN agrees with the bids, and its mirror disagrees with the asks. -/
theorem bidCoin_confidence_differs :
    (estimateEdge log1pOfNone {} bidCoin none (some (7 / 10)) .stable).any (fun e =>
      (estimateEdge log1pOfNone {} bidCoin.mirror none (some (3 / 10)) .stable).any fun e' =>
        9 / 10 < e.confidence ∧ e'.confidence < 4 / 10) = true := by
  decide +kernel

end EdgeDetector
end PolyCortex
