import PolyCortex.Data.Dict
import PolyCortex.Execution.Slippage
import PolyCortex.Numeric.WeightedMean

/-!
# The paper trading engine

`PaperTradingEngine` fills its open orders against snapshots of a book. An order walks over the levels
within its limit; a draw may let it miss, and another one may thin out a fill of more than 10.

What the walk takes is a list of parts (`walkLevels_eq`), whose sizes add up to what can be filled
(`weight_walkedParts`). An order that is hit gets a fill of them, or of a fraction of them
(`tryFill_of_hit`). The clock and the logs are left out.
-/

namespace PolyCortex

open Rounding Weighted

inductive FillType where
  | full
  | partly
  | none
  deriving DecidableEq, Repr

structure SimulatedFill where
  orderId : String
  fillType : FillType
  fillPrice : ℚ
  fillSize : ℚ
  remainingSize : ℚ
  feeUsdc : ℚ
  isMaker : Bool
  latencyMs : ℚ
  deriving DecidableEq, Repr

/-- The status of a paper order; `opened` is `open`. -/
inductive PaperStatus where
  | opened
  | filled
  | cancelled
  deriving DecidableEq, Repr

structure PaperOrder where
  orderId : String
  tokenId : String
  side : String
  price : ℚ
  size : ℚ
  filledSize : ℚ := 0
  status : PaperStatus := .opened
  fills : List SimulatedFill := []
  deriving DecidableEq, Repr

/-- The arguments of the constructor. -/
structure PaperSettings where
  takerFeeRate : ℚ := 2 / 100
  makerFeeRate : ℚ := 0
  minLatencyMs : ℚ := 50
  maxLatencyMs : ℚ := 500
  partialFillProb : ℚ := 15 / 100
  missProb : ℚ := 5 / 100

structure PaperTradingEngine where
  settings : PaperSettings
  orders : Dict String PaperOrder
  fillCount : ℕ := 0
  totalVolume : ℚ := 0
  totalFees : ℚ := 0

/-- What `random.random()` gives in one call of `_try_fill`, by its uses. -/
structure FillDraws where
  latency : ℚ
  miss : ℚ
  thin : ℚ
  fraction : ℚ

/-- A draw is in the half-open interval from 0 to 1. -/
def FillDraws.Valid (draws : FillDraws) : Prop := 0 ≤ draws.fraction ∧ draws.fraction < 1

/-- `random.uniform`, of a draw. -/
def uniform (a b draw : ℚ) : ℚ := a + (b - a) * draw

/-- What is left of a fill that is thinned out. -/
def FillDraws.keptFraction (draws : FillDraws) : ℚ := uniform (3 / 10) (8 / 10) draws.fraction

namespace PaperOrder

/-- The side of the book the order walks over, best price first. -/
def levels (o : PaperOrder) (bids asks : List Level) : List Level :=
  if o.side = "BUY" then asks.insertionSort fun a b => a.1 ≤ b.1
  else bids.insertionSort fun a b => b.1 ≤ a.1

/-- `is_maker`: the best price is beyond the limit, or there is none. -/
def isMaker (o : PaperOrder) (levels : List Level) : Bool :=
  match levels with
  | [] => true
  | best :: _ => if o.side = "BUY" then o.price < best.1 else best.1 < o.price

/-- The level is beyond the limit, where the walk stops. -/
def beyond (o : PaperOrder) (level : Level) : Bool :=
  o.side = "BUY" ∧ o.price < level.1 ∨ o.side = "SELL" ∧ level.1 < o.price

/-- The walk over the levels, with the size and the cost so far. -/
def walkLevels (o : PaperOrder) (remaining : ℚ) : List Level → ℚ × ℚ → ℚ × ℚ
  | [], walk => walk
  | level :: levels, (fillSize, fillCost) =>
    if o.beyond level then (fillSize, fillCost)
    else
      let available := min (remaining - fillSize) level.2
      let walk := (fillSize + available, fillCost + available * level.1)
      if remaining ≤ walk.1 then walk else walkLevels o remaining levels walk

/-- Whether a fill is thinned out. -/
def Thinned (settings : PaperSettings) (draws : FillDraws) (fillSize : ℚ) : Prop :=
  draws.thin < settings.partialFillProb ∧ 10 < fillSize

instance (settings : PaperSettings) (draws : FillDraws) (fillSize : ℚ) :
    Decidable (Thinned settings draws fillSize) :=
  inferInstanceAs (Decidable (_ ∧ _))

/-- The size and the cost after the draw that may thin out the fill. -/
def thinOut (settings : PaperSettings) (draws : FillDraws) (walk : ℚ × ℚ) : ℚ × ℚ :=
  if Thinned settings draws walk.1 then
    let fillSize := walk.1 * draws.keptFraction
    (fillSize, fillSize * (walk.2 / max fillSize (1 / 100)))
  else walk

/-- `_try_fill`. -/
def tryFill (settings : PaperSettings) (draws : FillDraws) (o : PaperOrder) (remaining : ℚ)
    (bids asks : List Level) : Option SimulatedFill :=
  let latency := uniform settings.minLatencyMs settings.maxLatencyMs draws.latency
  let levels := o.levels bids asks
  if draws.miss < settings.missProb then none
  else if o.isMaker levels then none
  else
    let walk := o.walkLevels remaining levels (0, 0)
    if walk.1 ≤ 0 then none
    else
      let (fillSize, fillCost) := thinOut settings draws walk
      let vwap := if 0 < fillSize then fillCost / fillSize else o.price
      -- an order that would be a maker has not come this far
      let feeRate := if o.isMaker levels then settings.makerFeeRate else settings.takerFeeRate
      some
        { orderId := o.orderId
          fillType := if remaining ≤ fillSize then .full else .partly
          fillPrice := roundTo 4 vwap
          fillSize := roundTo 2 fillSize
          remainingSize := roundTo 2 (remaining - fillSize)
          feeUsdc := roundTo 4 (fillSize * feeRate)
          isMaker := o.isMaker levels
          latencyMs := roundTo 1 latency }

/-- The order with one more fill. -/
def addFill (fill : SimulatedFill) (o : PaperOrder) : PaperOrder :=
  { o with
    fills := o.fills ++ [fill]
    filledSize := o.filledSize + fill.fillSize
    status := if o.size ≤ o.filledSize + fill.fillSize then .filled else o.status }

/-- What `simulate_fills` does with one order. -/
def simulate (settings : PaperSettings) (draws : FillDraws) (bids asks : List Level)
    (o : PaperOrder) : PaperOrder × Option SimulatedFill :=
  if o.status ≠ .opened then (o, none)
  else if o.size - o.filledSize ≤ 0 then ({ o with status := .filled }, none)
  else
    match o.tryFill settings draws (o.size - o.filledSize) bids asks with
    | none => (o, none)
    | some fill => (o.addFill fill, some fill)

end PaperOrder

namespace PaperTradingEngine

def new (settings : PaperSettings) : PaperTradingEngine :=
  { settings, orders := Dict.empty }

/-- `submit_order`; an order with the same id is replaced. -/
def submitOrder (orderId tokenId side : String) (price size : ℚ) (e : PaperTradingEngine) :
    PaperTradingEngine :=
  { e with
    orders := e.orders.set orderId { orderId, tokenId, side := side.toUpper, price, size } }

/-- `cancel_order`, with what it returns. -/
def cancelOrder (orderId : String) (e : PaperTradingEngine) : Bool × PaperTradingEngine :=
  match e.orders.get? orderId with
  | some o =>
    if o.status = .opened then
      (true, { e with orders := e.orders.modify orderId ({ · with status := .cancelled }) })
    else (false, e)
  | none => (false, e)

/-- What an order and its draws come to. -/
def simulated (bids asks : List Level) (draws : String → FillDraws) (e : PaperTradingEngine)
    (o : PaperOrder) : PaperOrder × Option SimulatedFill :=
  o.simulate e.settings (draws o.orderId) bids asks

/-- One turn of the loop of `simulate_fills`. -/
def simulateStep (bids asks : List Level) (draws : String → FillDraws)
    (loop : List SimulatedFill × PaperTradingEngine) (item : String × PaperOrder) :
    List SimulatedFill × PaperTradingEngine :=
  let result := loop.2.simulated bids asks draws item.2
  let e := { loop.2 with orders := loop.2.orders.modify item.1 fun _ => result.1 }
  match result.2 with
  | none => (loop.1, e)
  | some fill =>
    (loop.1 ++ [fill],
      { e with
        fillCount := e.fillCount + 1
        totalVolume := e.totalVolume + fill.fillSize
        totalFees := e.totalFees + fill.feeUsdc })

/-- `simulate_fills`, with the draws for each order. -/
def simulateFills (bids asks : List Level) (draws : String → FillDraws) (e : PaperTradingEngine) :
    List SimulatedFill × PaperTradingEngine :=
  e.orders.items.foldl (simulateStep bids asks draws) ([], e)

end PaperTradingEngine

/-! ### The walk -/

namespace PaperOrder

variable {o : PaperOrder} {remaining : ℚ} {levels bids asks : List Level}

/-- What the walk takes from a size on, as weights with their prices. -/
def walkedParts (o : PaperOrder) (remaining : ℚ) : List Level → ℚ → List (ℚ × ℚ)
  | [], _ => []
  | level :: levels, fillSize =>
    if o.beyond level then []
    else
      let available := min (remaining - fillSize) level.2
      (available, level.1) ::
        if remaining ≤ fillSize + available then []
        else walkedParts o remaining levels (fillSize + available)

/-- The levels up to the first one beyond the limit. -/
def withinLimit (o : PaperOrder) (levels : List Level) : List Level :=
  levels.takeWhile fun level => !o.beyond level

/-- What can be filled out of some sizes: all that remains, once the first of them add up to it. -/
def fillable (remaining : ℚ) (sizes : List ℚ) : ℚ :=
  if ∃ first ∈ sizes.inits, remaining ≤ first.sum then remaining else sizes.sum

lemma walkLevels_eq (levels : List Level) (walk : ℚ × ℚ) :
    o.walkLevels remaining levels walk =
      (walk.1 + weight (o.walkedParts remaining levels walk.1),
        walk.2 + total (o.walkedParts remaining levels walk.1)) := by
  induction levels generalizing walk with
  | nil => simp [walkLevels, walkedParts]
  | cons level levels ih =>
    obtain ⟨fillSize, fillCost⟩ := walk
    simp only [walkLevels, walkedParts]
    split_ifs with hbeyond hdone
    · simp
    · simp
    · rw [ih]
      simp only [weight_cons, total_cons]
      exact Prod.ext (by ring) (by ring)

lemma fillable_le (remaining : ℚ) (sizes : List ℚ) : fillable remaining sizes ≤ remaining := by
  rw [fillable]
  split_ifs with h
  · exact le_rfl
  · by_contra hle
    exact h ⟨sizes, (List.mem_inits _ _).mpr (List.prefix_refl _), (not_le.mp hle).le⟩

/-- The first size is taken, and the rest is filled out of the others. -/
lemma fillable_cons (hpos : 0 < remaining) (size : ℚ) (sizes : List ℚ) :
    fillable remaining (size :: sizes) =
      if remaining ≤ size then remaining else size + fillable (remaining - size) sizes := by
  have hinits : (∃ first ∈ (size :: sizes).inits, remaining ≤ first.sum) ↔
      ∃ first ∈ sizes.inits, remaining - size ≤ first.sum := by
    simp only [List.inits_cons, List.mem_cons, List.mem_map, exists_eq_or_imp, List.sum_nil,
      not_le.mpr hpos, false_or]
    constructor
    · rintro ⟨_, ⟨first, hfirst, rfl⟩, hle⟩
      exact ⟨first, hfirst, by rw [List.sum_cons] at hle; linarith⟩
    · rintro ⟨first, hfirst, hle⟩
      exact ⟨_, ⟨first, hfirst, rfl⟩, by rw [List.sum_cons]; linarith⟩
  simp only [fillable, hinits, List.sum_cons]
  split_ifs with hfirst hsize hsize
  · rfl
  · ring
  · exact absurd ⟨[], by simp, by simpa using hsize⟩ hfirst
  · rfl

/-- The parts add up to what can be filled out of the levels within the limit. -/
lemma weight_walkedParts (levels : List Level) {fillSize : ℚ} (hpos : fillSize < remaining) :
    weight (o.walkedParts remaining levels fillSize) =
      fillable (remaining - fillSize) ((o.withinLimit levels).map (·.2)) := by
  induction levels generalizing fillSize with
  | nil => simp [walkedParts, withinLimit, fillable, hpos]
  | cons level levels ih =>
    rw [walkedParts, withinLimit, List.takeWhile_cons]
    by_cases hbeyond : o.beyond level = true
    · simp [hbeyond, fillable, hpos]
    · simp only [hbeyond, Bool.not_false, if_true, if_false, Bool.false_eq_true, List.map_cons,
        weight_cons]
      rw [fillable_cons (sub_pos.mpr hpos)]
      by_cases hle : remaining - fillSize ≤ level.2
      · rw [min_eq_left hle, if_pos hle, if_pos (by linarith), weight_nil, add_zero]
      · have hlt : level.2 < remaining - fillSize := not_le.mp hle
        rw [min_eq_right hlt.le, if_neg hle, if_neg (by linarith), ih (by linarith), withinLimit,
          sub_sub]

/-! ### The fill -/

variable {settings : PaperSettings} {draws : FillDraws}

/-- The parts of the book that the order walks over. -/
def parts (o : PaperOrder) (remaining : ℚ) (bids asks : List Level) : List (ℚ × ℚ) :=
  o.walkedParts remaining (o.levels bids asks) 0

/-- What can be filled of what remains. -/
def fillableOf (o : PaperOrder) (remaining : ℚ) (bids asks : List Level) : ℚ :=
  fillable remaining ((o.withinLimit (o.levels bids asks)).map (·.2))

/-- The order does not miss, crosses the best price and finds something there. -/
def Hit (settings : PaperSettings) (draws : FillDraws) (o : PaperOrder) (remaining : ℚ)
    (bids asks : List Level) : Prop :=
  settings.missProb ≤ draws.miss ∧ o.isMaker (o.levels bids asks) = false ∧
    0 < o.fillableOf remaining bids asks

lemma weight_parts (hpos : 0 < remaining) :
    weight (o.parts remaining bids asks) = o.fillableOf remaining bids asks := by
  rw [parts, weight_walkedParts _ hpos, sub_zero, fillableOf]

lemma keptFraction_mem (hdraws : draws.Valid) :
    3 / 10 ≤ draws.keptFraction ∧ draws.keptFraction < 8 / 10 := by
  obtain ⟨hlow, hhigh⟩ := hdraws
  rw [FillDraws.keptFraction, uniform]
  constructor <;> linarith

/-- Dividing by the size that is left undoes the scaling of the cost. -/
lemma thinOut_of_thinned (hdraws : draws.Valid) {walk : ℚ × ℚ} (h : Thinned settings draws walk.1) :
    thinOut settings draws walk = (walk.1 * draws.keptFraction, walk.2) := by
  have hkept := (keptFraction_mem hdraws).1
  have hsize : 3 < walk.1 * draws.keptFraction := by
    have h10 : 10 < walk.1 := h.2
    nlinarith
  rw [thinOut, if_pos h]
  simp only
  rw [max_eq_left (by linarith), mul_div_cancel₀ _ (by linarith)]

lemma tryFill_of_not_hit (hpos : 0 < remaining) (h : ¬o.Hit settings draws remaining bids asks) :
    o.tryFill settings draws remaining bids asks = none := by
  rw [tryFill]
  simp only
  split_ifs with hmiss hmaker hsize
  · rfl
  · rfl
  · rfl
  · refine absurd ⟨not_lt.mp hmiss, Bool.eq_false_iff.mpr hmaker, ?_⟩ h
    rw [walkLevels_eq, not_le, zero_add] at hsize
    rwa [← weight_parts hpos]

/-- A fill is of the parts, or of the fraction that is kept of them, for all of their cost. -/
lemma tryFill_of_hit (hpos : 0 < remaining) (hdraws : draws.Valid)
    (h : o.Hit settings draws remaining bids asks) :
    ∃ fill, o.tryFill settings draws remaining bids asks = some fill ∧
      fill.orderId = o.orderId ∧
      fill.fillSize = roundTo 2
        (if Thinned settings draws (o.fillableOf remaining bids asks) then
          o.fillableOf remaining bids asks * draws.keptFraction
        else o.fillableOf remaining bids asks) ∧
      fill.fillPrice = roundTo 4
        (if Thinned settings draws (o.fillableOf remaining bids asks) then
          mean (o.parts remaining bids asks) / draws.keptFraction
        else mean (o.parts remaining bids asks)) := by
  obtain ⟨hmiss, hmaker, hsize⟩ := h
  have hwalk : o.walkLevels remaining (o.levels bids asks) (0, 0) =
      (o.fillableOf remaining bids asks, total (o.parts remaining bids asks)) := by
    rw [walkLevels_eq, zero_add, zero_add, ← parts, weight_parts hpos]
  rw [tryFill, mean, weight_parts hpos]
  simp only [if_neg (not_lt.mpr hmiss), hmaker, Bool.false_eq_true, if_false, hwalk,
    if_neg (not_le.mpr hsize)]
  by_cases hthin : Thinned settings draws (o.fillableOf remaining bids asks)
  · have hkept := (keptFraction_mem hdraws).1
    have hfilled : 0 < o.fillableOf remaining bids asks * draws.keptFraction :=
      mul_pos hsize (by linarith)
    have hout := thinOut_of_thinned hdraws
      (show Thinned settings draws (o.fillableOf remaining bids asks,
        total (o.parts remaining bids asks)).1 from hthin)
    simp only [hout, if_pos hthin, if_pos hfilled]
    exact ⟨_, rfl, rfl, rfl, by rw [div_div]⟩
  · have hout : thinOut settings draws (o.fillableOf remaining bids asks,
        total (o.parts remaining bids asks)) =
        (o.fillableOf remaining bids asks, total (o.parts remaining bids asks)) := if_neg hthin
    simp only [hout, if_neg hthin, if_pos hsize]
    exact ⟨_, rfl, rfl, rfl, rfl⟩

end PaperOrder
end PolyCortex
