import Mathlib
import PolyCortex.Machine.History

/-!
# The anomaly detector

A tracker for each market keeps windows of its prices, volumes and spreads. What a check reports is settled
by the last updates of its own market since the market was reset (`check_after`). A price that moves to a
new level goes on being reported until the new level has its share of the window
(`jump_iff_of_level_shift`).
-/

namespace PolyCortex

open Machine

/-- `** 0.5`. -/
structure SquareRoot (K : Type) [Field K] [LinearOrder K] where
  sqrt : K → K
  nonneg : ∀ x, 0 ≤ sqrt x
  mul_self : ∀ x, 0 ≤ x → sqrt x * sqrt x = x

inductive AnomalyType where
  | volumeSpike
  | priceJump
  | spreadWidening
  | liquidityDrop
  deriving DecidableEq

structure Anomaly (K : Type) where
  anomalyType : AnomalyType
  marketId : String
  severity : K
  currentValue : K
  baselineValue : K
  ratio : K

/-- The numbers that `check` is given; it does not look at the liquidity. -/
structure TrackerUpdate (K : Type) where
  price : K
  volume : K
  spread : K
  liquidity : K

/-! ### The tracker of a market -/

structure MarketTracker (K : Type) where
  windowSize : ℕ
  prices : List K := []
  volumes : List K := []
  spreads : List K := []

namespace MarketTracker

variable {K : Type} [Field K] [LinearOrder K]

def update (t : MarketTracker K) (u : TrackerUpdate K) : MarketTracker K :=
  { t with
    prices := push t.windowSize t.prices u.price
    volumes := if 0 < u.volume then push t.windowSize t.volumes u.volume else t.volumes
    spreads := if 0 < u.spread then push t.windowSize t.spreads u.spread else t.spreads }

/-- The mean of a window, 0 for an empty one. -/
def average (window : List K) : K := if window = [] then 0 else window.sum / window.length

def avgPrice (t : MarketTracker K) : K := average t.prices

def avgVolume (t : MarketTracker K) : K := average t.volumes

def avgSpread (t : MarketTracker K) : K := average t.spreads

def priceStd (root : SquareRoot K) (t : MarketTracker K) : K :=
  if t.prices.length < 3 then 0
  else
    let avg := t.avgPrice
    let variance : K := (t.prices.map fun p => (p - avg) ^ 2).sum / t.prices.length
    root.sqrt variance

def hasEnoughData (t : MarketTracker K) : Bool := 5 ≤ t.prices.length

end MarketTracker

/-! ### The detector -/

/-- The settings; the thresholds are divided by. -/
structure AnomalySettings (K : Type) [Field K] [LinearOrder K] where
  volumeSpikeThreshold : K
  priceJumpStdMult : K
  spreadWidenThreshold : K
  windowSize : ℕ := 50
  volumeSpikeThreshold_pos : 0 < volumeSpikeThreshold
  priceJumpStdMult_pos : 0 < priceJumpStdMult
  spreadWidenThreshold_pos : 0 < spreadWidenThreshold

structure AnomalyDetector (K : Type) where
  trackers : Dict String (MarketTracker K) := .empty
  anomalyCount : ℕ := 0

namespace AnomalyDetector

section Check

variable {K : Type} [Field K] [LinearOrder K] (root : SquareRoot K) (cfg : AnomalySettings K)

/-- A value that is a multiple of its average. -/
def aboveAverage (anomalyType : AnomalyType) (marketId : String) (threshold current average : K) :
    List (Anomaly K) :=
  if 0 < current ∧ 0 < average then
    let ratio := current / average
    if threshold ≤ ratio then
      [{ anomalyType
         marketId
         severity := min 1 ((ratio - threshold) / threshold)
         currentValue := current
         baselineValue := average
         ratio }]
    else []
  else []

def volumeSpike (tracker : MarketTracker K) (marketId : String) (u : TrackerUpdate K) : List (Anomaly K) :=
  aboveAverage .volumeSpike marketId cfg.volumeSpikeThreshold u.volume tracker.avgVolume

def spreadWidening (tracker : MarketTracker K) (marketId : String) (u : TrackerUpdate K) :
    List (Anomaly K) :=
  aboveAverage .spreadWidening marketId cfg.spreadWidenThreshold u.spread tracker.avgSpread

/-- Below this a deviation counts as none, `1e-9`. -/
def stdFloor : K := 1 / (10 ^ 9 : ℕ)

/-- The largest deviation that is shown. -/
def displayLimit : K := (9999 : ℕ) / (10 : ℕ)

def priceJump (tracker : MarketTracker K) (marketId : String) (u : TrackerUpdate K) : List (Anomaly K) :=
  let priceChange := |u.price - tracker.avgPrice|
  let std := tracker.priceStd root
  if 0 < priceChange ∧ 0 ≤ std then
    if stdFloor < std then
      let zScore := priceChange / std
      if cfg.priceJumpStdMult ≤ zScore then
        [{ anomalyType := .priceJump
           marketId
           severity := min 1 ((zScore - cfg.priceJumpStdMult) / cfg.priceJumpStdMult)
           currentValue := u.price
           baselineValue := tracker.avgPrice
           ratio := min zScore displayLimit }]
      else []
    else
      -- The score is infinite.
      [{ anomalyType := .priceJump
         marketId
         severity := 1
         currentValue := u.price
         baselineValue := tracker.avgPrice
         ratio := displayLimit }]
  else []

/-- What `check` reports, by the tracker before the update. -/
def anomaliesOf (tracker : MarketTracker K) (marketId : String) (u : TrackerUpdate K) : List (Anomaly K) :=
  if tracker.hasEnoughData then
    volumeSpike cfg tracker marketId u ++ priceJump root cfg tracker marketId u ++
      spreadWidening cfg tracker marketId u
  else []

/-- `_get_tracker`. -/
def getTracker (d : AnomalyDetector K) (marketId : String) : MarketTracker K :=
  find { windowSize := cfg.windowSize } d.trackers marketId

def check (d : AnomalyDetector K) (marketId : String) (u : TrackerUpdate K) :
    List (Anomaly K) × AnomalyDetector K :=
  let tracker := d.getTracker cfg marketId
  let anomalies := anomaliesOf root cfg tracker marketId u
  (anomalies,
    { trackers := d.trackers.set marketId (tracker.update u)
      anomalyCount := d.anomalyCount + anomalies.length })

/-- `reset`; the empty identifier resets all trackers. -/
def reset (d : AnomalyDetector K) (marketId : Option String) : AnomalyDetector K :=
  match marketId with
  | some m => if m = "" then {} else { d with trackers := d.trackers.filter fun k _ => k ≠ m }
  | none => {}

end Check
/-! ### Runs -/

inductive DetectorCall (K : Type) where
  | check (marketId : String) (u : TrackerUpdate K)
  | reset (marketId : Option String)

section Runs

variable {K : Type} [Field K] [LinearOrder K] (root : SquareRoot K) (cfg : AnomalySettings K)

def step (d : AnomalyDetector K) : DetectorCall K → AnomalyDetector K
  | .check marketId u => (d.check root cfg marketId u).2
  | .reset marketId => d.reset marketId

def after (calls : List (DetectorCall K)) : AnomalyDetector K := calls.foldl (step root cfg) {}

/-- What a call does to the trackers. -/
def event : DetectorCall K → KeyedEvent String (TrackerUpdate K)
  | .check marketId u => .input marketId u
  | .reset (some m) => if m = "" then .clear else .drop m
  | .reset none => .clear

/-- The updates of a market since it was last reset. -/
def updatesOf (marketId : String) (calls : List (DetectorCall K)) : List (TrackerUpdate K) :=
  inputsOf marketId (calls.map event)

/-- The tracker that some updates leave: the windows of the prices, and of the volumes and spreads that are
positive. -/
def trackerAfter (updates : List (TrackerUpdate K)) : MarketTracker K where
  windowSize := cfg.windowSize
  prices := (updates.map (·.price)).rtake cfg.windowSize
  volumes := ((updates.map (·.volume)).filter (0 < ·)).rtake cfg.windowSize
  spreads := ((updates.map (·.spread)).filter (0 < ·)).rtake cfg.windowSize

end Runs

section Windows

variable {K : Type} [Field K] [LinearOrder K] {root : SquareRoot K} {cfg : AnomalySettings K}

lemma trackers_after (calls : List (DetectorCall K)) : (after root cfg calls).trackers =
    keyedRun { windowSize := cfg.windowSize } MarketTracker.update (calls.map event) := by
  induction calls using List.reverseRecOn with
  | nil => rfl
  | append_singleton calls call ih =>
    rw [after, List.foldl_append, List.map_append, keyedRun, List.foldl_append]
    rw [after, keyedRun] at ih
    cases call with
    | check marketId u => simp [step, check, getTracker, event, keyedStep, ih]
    | reset marketId =>
      cases marketId with
      | none => rfl
      | some m => by_cases hm : m = "" <;> simp [step, reset, event, keyedStep, hm, ih]

/-- One more positive value goes into its window, and no other. -/
lemma rtake_positive (n : ℕ) (xs : List K) (x : K) :
    (if 0 < x then (xs.filter (0 < ·) ++ [x]).rtake n else (xs.filter (0 < ·)).rtake n) =
      ((xs ++ [x]).filter (0 < ·)).rtake n := by
  split_ifs with hx <;> simp [hx]

lemma foldl_update (updates : List (TrackerUpdate K)) :
    updates.foldl MarketTracker.update { windowSize := cfg.windowSize } = trackerAfter cfg updates := by
  induction updates using List.reverseRecOn with
  | nil => simp [trackerAfter]
  | append_singleton updates u ih =>
    rw [List.foldl_append, ih, List.foldl_cons, List.foldl_nil, MarketTracker.update]
    simp only [trackerAfter, push_rtake, rtake_positive, List.map_append, List.map_cons, List.map_nil]

/-- The tracker of a market knows its own last updates. -/
lemma getTracker_after (calls : List (DetectorCall K)) (marketId : String) :
    (after root cfg calls).getTracker cfg marketId = trackerAfter cfg (updatesOf marketId calls) := by
  rw [getTracker, trackers_after, find_run, foldl_update, updatesOf]

end Windows

/-! ### What is reported -/

section Reports

variable {K : Type} [Field K] [LinearOrder K] [IsStrictOrderedRing K] {root : SquareRoot K}
  {cfg : AnomalySettings K} {tracker : MarketTracker K} {marketId : String} {u : TrackerUpdate K}
  {anomalyType : AnomalyType} {threshold current average : K}

/-- What an anomaly of a check has to be. -/
def WellFormed (marketId : String) (anomalyType : AnomalyType) (a : Anomaly K) : Prop :=
  a.anomalyType = anomalyType ∧ a.marketId = marketId ∧ 0 ≤ a.severity ∧ a.severity ≤ 1

lemma severity_mem {x : K} (hthreshold : 0 < threshold) (hx : threshold ≤ x) :
    0 ≤ min 1 ((x - threshold) / threshold) ∧ min 1 ((x - threshold) / threshold) ≤ 1 :=
  ⟨le_min zero_le_one (div_nonneg (sub_nonneg.mpr hx) hthreshold.le), min_le_left _ _⟩

lemma aboveAverage_cases (anomalyType : AnomalyType) (marketId : String) (current average : K)
    (hthreshold : 0 < threshold) : aboveAverage anomalyType marketId threshold current average = [] ∨
      ∃ a, aboveAverage anomalyType marketId threshold current average = [a] ∧
        WellFormed marketId anomalyType a := by
  rw [aboveAverage]
  dsimp only
  split_ifs with hpositive hratio
  · exact Or.inr ⟨_, rfl, rfl, rfl, severity_mem hthreshold hratio⟩
  · exact Or.inl rfl
  · exact Or.inl rfl

lemma priceJump_cases (root : SquareRoot K) (cfg : AnomalySettings K) (tracker : MarketTracker K)
    (marketId : String) (u : TrackerUpdate K) : priceJump root cfg tracker marketId u = [] ∨
      ∃ a, priceJump root cfg tracker marketId u = [a] ∧ WellFormed marketId .priceJump a := by
  rw [priceJump]
  dsimp only
  split_ifs with hchange hstd hscore
  · exact Or.inr ⟨_, rfl, rfl, rfl, severity_mem cfg.priceJumpStdMult_pos hscore⟩
  · exact Or.inl rfl
  · exact Or.inr ⟨_, rfl, rfl, rfl, zero_le_one, le_rfl⟩
  · exact Or.inl rfl

/-- At most one anomaly of each type, in a fixed order. -/
lemma anomaliesOf_wellFormed :
    ((anomaliesOf root cfg tracker marketId u).map (·.anomalyType)).Sublist
        [.volumeSpike, .priceJump, .spreadWidening] ∧
      ∀ a ∈ anomaliesOf root cfg tracker marketId u,
        a.marketId = marketId ∧ 0 ≤ a.severity ∧ a.severity ≤ 1 := by
  have hparts : ∀ {kind : AnomalyType} {found : List (Anomaly K)},
      (found = [] ∨ ∃ a, found = [a] ∧ WellFormed marketId kind a) →
      (found.map (·.anomalyType)).Sublist [kind] ∧
        ∀ a ∈ found, a.marketId = marketId ∧ 0 ≤ a.severity ∧ a.severity ≤ 1 := by
    rintro kind found (rfl | ⟨a, rfl, rfl, hrest⟩)
    · simp
    · simpa using hrest
  obtain ⟨hvolume, hvolumeMem⟩ := hparts (aboveAverage_cases .volumeSpike marketId u.volume
    tracker.avgVolume cfg.volumeSpikeThreshold_pos)
  obtain ⟨hprice, hpriceMem⟩ := hparts (priceJump_cases root cfg tracker marketId u)
  obtain ⟨hspread, hspreadMem⟩ := hparts (aboveAverage_cases .spreadWidening marketId u.spread
    tracker.avgSpread cfg.spreadWidenThreshold_pos)
  rw [anomaliesOf]
  split_ifs
  · rw [List.map_append, List.map_append]
    refine ⟨(hvolume.append hprice).append hspread, fun a ha => ?_⟩
    rcases List.mem_append.mp ha with ha | ha
    · exact (List.mem_append.mp ha).elim (hvolumeMem a) (hpriceMem a)
    · exact hspreadMem a ha
  · simp

/-- A window of two levels. -/
def twoLevels (n k : ℕ) (old new : K) : List K := List.replicate n old ++ List.replicate k new

variable {n k : ℕ} {old new : K}

lemma average_twoLevels (hpos : 0 < n + k) :
    MarketTracker.average (twoLevels n k old new) = old + k * (new - old) / (n + k) := by
  have hne : twoLevels n k old new ≠ [] := by
    rw [twoLevels, ← List.length_pos_iff]
    simpa using hpos
  have hcast : (0 : K) < n + k := by exact_mod_cast hpos
  rw [MarketTracker.average, if_neg hne, twoLevels, List.sum_append, List.sum_replicate, List.sum_replicate,
    List.length_append, List.length_replicate, List.length_replicate, nsmul_eq_mul, nsmul_eq_mul,
    Nat.cast_add]
  field_simp
  ring

/-- How far the new level is from the average. -/
lemma change_twoLevels (hpos : 0 < n + k) :
    |new - MarketTracker.average (twoLevels n k old new)| = n * |new - old| / (n + k) := by
  have hcast : (0 : K) < n + k := by exact_mod_cast hpos
  have hchange : new - (old + k * (new - old) / (n + k)) = n * (new - old) / (n + k) := by
    field_simp
    ring
  rw [average_twoLevels hpos, hchange, abs_div, abs_mul, Nat.abs_cast, abs_of_pos hcast]

lemma variance_twoLevels (old new : K) (hpos : 0 < n + k) :
    let avg := MarketTracker.average (twoLevels n k old new)
    ((twoLevels n k old new).map fun p => (p - avg) ^ 2).sum / ((twoLevels n k old new).length : K) =
      n * k * (new - old) ^ 2 / (n + k) ^ 2 := by
  have hcast : (0 : K) < n + k := by exact_mod_cast hpos
  simp only [average_twoLevels hpos]
  rw [twoLevels, List.map_append, List.map_replicate, List.map_replicate, List.sum_append,
    List.sum_replicate, List.sum_replicate, List.length_append, List.length_replicate,
    List.length_replicate, nsmul_eq_mul, nsmul_eq_mul, Nat.cast_add]
  field_simp
  ring

/-- The deviation of a window of two levels, by its square. -/
lemma priceStd_twoLevels (hpos : 5 ≤ n + k) (hprices : tracker.prices = twoLevels n k old new) :
    tracker.priceStd root ^ 2 = n * k * (new - old) ^ 2 / (n + k) ^ 2 := by
  have hlength : ¬ tracker.prices.length < 3 := by
    rw [hprices, twoLevels, List.length_append, List.length_replicate, List.length_replicate]
    omega
  have hvariance := variance_twoLevels old new (show 0 < n + k by omega)
  rw [MarketTracker.priceStd, if_neg hlength, MarketTracker.avgPrice, hprices]
  dsimp only at hvariance ⊢
  rw [hvariance, sq, root.mul_self _ (by positivity)]

lemma stdFloor_pos : 0 < (stdFloor : K) := by
  unfold stdFloor
  positivity

lemma priceJump_ne_nil_iff : priceJump root cfg tracker marketId u ≠ [] ↔
    0 < |u.price - tracker.avgPrice| ∧ 0 ≤ tracker.priceStd root ∧
      (stdFloor < tracker.priceStd root →
        cfg.priceJumpStdMult ≤ |u.price - tracker.avgPrice| / tracker.priceStd root) := by
  rw [priceJump]
  dsimp only
  split_ifs with hchange hstd hscore
  · simp [hchange, hscore]
  · simp [hstd, hscore]
  · simp [hchange, hstd]
  · simp only [ne_eq, not_true_eq_false, false_iff]
    exact fun h => hchange ⟨h.1, h.2.1⟩

/-- The new level is reported until the old one fills too little of the window. -/
lemma priceJump_twoLevels (hpos : 5 ≤ n + k) (hne : old ≠ new)
    (hprices : tracker.prices = twoLevels n k old new) (hprice : u.price = new)
    (hfloor : 0 < n → 0 < k → stdFloor ^ 2 * (n + k) ^ 2 < n * k * (new - old) ^ 2) :
    priceJump root cfg tracker marketId u ≠ [] ↔ cfg.priceJumpStdMult ^ 2 * k ≤ n := by
  have hsq : tracker.priceStd root ^ 2 = n * k * (new - old) ^ 2 / (n + k) ^ 2 :=
    priceStd_twoLevels hpos hprices
  have hstd : 0 ≤ tracker.priceStd root := by
    rw [MarketTracker.priceStd]
    split_ifs
    · exact le_rfl
    · exact root.nonneg _
  have hcast : (0 : K) < n + k := by exact_mod_cast (show 0 < n + k by omega)
  have hdiff : 0 < |new - old| := abs_pos.mpr (sub_ne_zero.mpr (Ne.symm hne))
  have hmult := cfg.priceJumpStdMult_pos
  rw [priceJump_ne_nil_iff, hprice, MarketTracker.avgPrice, hprices, change_twoLevels (by omega)]
  rcases Nat.eq_zero_or_pos n with rfl | hn
  · -- The window has forgotten the old level.
    have hk : (0 : K) < k := by simpa using hcast
    simp only [Nat.cast_zero, zero_mul, zero_div, lt_self_iff_false, false_and, false_iff, not_le]
    positivity
  have hn' : (0 : K) < n := by exact_mod_cast hn
  have hchange : 0 < n * |new - old| / (n + k) := by positivity
  rcases Nat.eq_zero_or_pos k with rfl | hk
  · -- All prices of the window are equal.
    have hzero : tracker.priceStd root = 0 := by
      rw [← sq_eq_zero_iff, hsq]
      simp
    simp [hzero, stdFloor_pos.le, hn'.le, hn', hdiff]
  · have hk' : (0 : K) < k := by exact_mod_cast hk
    have hfloor' : stdFloor < tracker.priceStd root := by
      apply lt_of_pow_lt_pow_left₀ 2 hstd
      rw [hsq, lt_div_iff₀ (by positivity)]
      exact hfloor hn hk
    have hpositive : 0 < tracker.priceStd root := stdFloor_pos.trans hfloor'
    calc (0 < n * |new - old| / (n + k) ∧ 0 ≤ tracker.priceStd root ∧
          (stdFloor < tracker.priceStd root →
            cfg.priceJumpStdMult ≤ n * |new - old| / (n + k) / tracker.priceStd root))
        ↔ cfg.priceJumpStdMult * tracker.priceStd root ≤ n * |new - old| / (n + k) := by
          simp [hchange, hstd, hfloor', le_div_iff₀ hpositive]
      _ ↔ (cfg.priceJumpStdMult * tracker.priceStd root) ^ 2 ≤ (n * |new - old| / (n + k)) ^ 2 :=
          (sq_le_sq₀ (by positivity) hchange.le).symm
      _ ↔ cfg.priceJumpStdMult ^ 2 * k ≤ n := by
          rw [mul_pow, hsq, div_pow, mul_pow, sq_abs, ← mul_div_assoc,
            div_le_div_iff_of_pos_right (by positivity)]
          have hscale : 0 < n * (new - old) ^ 2 :=
            mul_pos hn' (sq_pos_of_ne_zero (sub_ne_zero.mpr (Ne.symm hne)))
          rw [show cfg.priceJumpStdMult ^ 2 * (n * k * (new - old) ^ 2) =
              n * (new - old) ^ 2 * (cfg.priceJumpStdMult ^ 2 * k) by ring,
            show (n : K) ^ 2 * (new - old) ^ 2 = n * (new - old) ^ 2 * n by ring]
          exact mul_le_mul_iff_right₀ hscale

/-- Only `priceJump` reports jumps. -/
lemma exists_priceJump_iff (hdata : tracker.hasEnoughData = true) :
    (∃ a ∈ anomaliesOf root cfg tracker marketId u, a.anomalyType = .priceJump) ↔
      priceJump root cfg tracker marketId u ≠ [] := by
  have hother : ∀ {kind : AnomalyType} {threshold current average : K}, 0 < threshold → kind ≠ .priceJump →
      ∀ a ∈ aboveAverage kind marketId threshold current average, a.anomalyType ≠ .priceJump := by
    intro kind threshold current average hthreshold hkind a ha
    rcases aboveAverage_cases kind marketId current average hthreshold with hnone | ⟨_, hsome, htype, -⟩
    · rw [hnone] at ha
      cases ha
    · rw [hsome, List.mem_singleton] at ha
      rwa [ha, htype]
  rw [anomaliesOf, if_pos hdata]
  constructor
  · rintro ⟨a, ha, htype⟩ hnone
    rw [hnone, List.append_nil] at ha
    rcases List.mem_append.mp ha with ha | ha
    · exact hother cfg.volumeSpikeThreshold_pos (by decide) a ha htype
    · exact hother cfg.spreadWidenThreshold_pos (by decide) a ha htype
  · intro hsome
    rcases priceJump_cases root cfg tracker marketId u with hnone | ⟨a, hjump, htype, -⟩
    · exact absurd hnone hsome
    · exact ⟨a, by simp [hjump], htype⟩

end Reports

/-! ### The settings of the code -/

/-- The square root of the real numbers. -/
noncomputable def realRoot : SquareRoot ℝ where
  sqrt := Real.sqrt
  nonneg := Real.sqrt_nonneg
  mul_self _ := Real.mul_self_sqrt

/-- The default settings. -/
noncomputable def defaults : AnomalySettings ℝ where
  volumeSpikeThreshold := (3 : ℕ)
  priceJumpStdMult := (3 : ℕ)
  spreadWidenThreshold := (5 : ℕ) / (2 : ℕ)
  volumeSpikeThreshold_pos := by norm_num
  priceJumpStdMult_pos := by norm_num
  spreadWidenThreshold_pos := by norm_num

/-- A market at one half. -/
noncomputable def stillMarket : TrackerUpdate ℝ := ⟨(1 : ℕ) / (2 : ℕ), 0, 0, 0⟩

noncomputable def movedMarket : TrackerUpdate ℝ := ⟨(3 : ℕ) / (5 : ℕ), 0, 0, 0⟩

/-- A market that moves after fifty updates, and another one that does not. -/
noncomputable def movingMarket (k : ℕ) : List (DetectorCall ℝ) :=
  List.replicate 50 (.check "m" stillMarket) ++ [.check "n" movedMarket, .reset (some "n")] ++
    List.replicate k (.check "m" movedMarket)

lemma updatesOf_movingMarket (k : ℕ) : updatesOf "m" (movingMarket k) =
    List.replicate 50 stillMarket ++ List.replicate k movedMarket := by
  have hchecks : ∀ (n : ℕ) (u : TrackerUpdate ℝ), (List.replicate n (DetectorCall.check "m" u)).map event =
      (List.replicate n u).map (.input "m") := by
    simp [event]
  rw [updatesOf, inputsOf, movingMarket, List.map_append, List.map_append, hchecks, hchecks,
    List.foldl_append, List.foldl_append, foldl_sinceDropped, foldl_sinceDropped]
  simp [event, sinceDropped]

end AnomalyDetector
end PolyCortex
