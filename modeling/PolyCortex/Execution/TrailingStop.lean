import PolyCortex.Execution.Order
import PolyCortex.Machine.Trail
import PolyCortex.Numeric.Rounding

/-!
# Trailing stops

`TrailingStop`: the stop of a sale trails below the highest price, the stop of a purchase above the
lowest one. Either is a trail of an offset that is rounded and still monotone, so that the stop and the
price that triggers it are what the prices so far say (`trailingStop_closedForm`). A purchase trails in
the dual order.
-/

namespace PolyCortex

open Rounding Machine

inductive TrailingStopMode where
  | amount
  | percent
  deriving DecidableEq, Repr

/-- A stop, with any side but `SELL` counted as a purchase, and any mode but `percent` as an amount. -/
structure TrailingStop where
  side : Side
  initialPrice : ℚ
  trailAmount : ℚ := 5 / 100
  trailMode : TrailingStopMode := .amount
  highWater : ℚ := 0
  lowWater : WithTop ℚ := ⊤
  stopPrice : ℚ := 0
  triggered : Bool := false
  triggerPrice : Option ℚ := none
  updateCount : ℕ := 0

namespace TrailingStop

/-- `_calculate_stop_sell`. -/
def calculateStopSell (ts : TrailingStop) (price : ℚ) : ℚ :=
  if ts.trailMode = .percent then roundTo 4 (price * (1 - ts.trailAmount / 100))
  else roundTo 4 (price - ts.trailAmount)

/-- `_calculate_stop_buy`. -/
def calculateStopBuy (ts : TrailingStop) (price : ℚ) : ℚ :=
  if ts.trailMode = .percent then roundTo 4 (price * (1 + ts.trailAmount / 100))
  else roundTo 4 (price + ts.trailAmount)

/-- `__post_init__`. -/
def postInit (ts : TrailingStop) : TrailingStop :=
  match ts.side with
  | .sell =>
    { ts with highWater := ts.initialPrice, stopPrice := ts.calculateStopSell ts.initialPrice }
  | .buy => { ts with lowWater := ts.initialPrice, stopPrice := ts.calculateStopBuy ts.initialPrice }

/-- A new stop. -/
def new (side : Side) (initialPrice trailAmount : ℚ) (trailMode : TrailingStopMode) : TrailingStop :=
  postInit { side, initialPrice, trailAmount, trailMode }

/-- The stop is triggered at a price. -/
def trigger (price : ℚ) (ts : TrailingStop) : TrailingStop :=
  { ts with triggered := true, triggerPrice := some price }

/-- A new high moves the stop up. -/
def raiseStop (price : ℚ) (ts : TrailingStop) : TrailingStop :=
  if ts.highWater < price then
    let newStop := ts.calculateStopSell price
    { ts with
      highWater := price
      stopPrice := if ts.stopPrice < newStop then newStop else ts.stopPrice }
  else ts

/-- `_update_sell`. -/
def updateSell (price : ℚ) (ts : TrailingStop) : Bool × TrailingStop :=
  let ts := ts.raiseStop price
  if price ≤ ts.stopPrice then (true, ts.trigger price) else (false, ts)

/-- A new low moves the stop down. -/
def lowerStop (price : ℚ) (ts : TrailingStop) : TrailingStop :=
  if price < ts.lowWater then
    let newStop := ts.calculateStopBuy price
    { ts with
      lowWater := price
      stopPrice := if newStop < ts.stopPrice then newStop else ts.stopPrice }
  else ts

/-- `_update_buy`. -/
def updateBuy (price : ℚ) (ts : TrailingStop) : Bool × TrailingStop :=
  let ts := ts.lowerStop price
  if ts.stopPrice ≤ price then (true, ts.trigger price) else (false, ts)

/-- `update_price`. -/
def updatePrice (price : ℚ) (ts : TrailingStop) : Bool × TrailingStop :=
  if ts.triggered then (true, ts)
  else
    let ts := { ts with updateCount := ts.updateCount + 1 }
    match ts.side with
    | .sell => ts.updateSell price
    | .buy => ts.updateBuy price

/-- After some prices. -/
def after (ts : TrailingStop) (prices : List ℚ) : TrailingStop :=
  run (fun ts price => (ts.updatePrice price).2) ts prices

/-! ### What a stop is to do -/

/-- The highest price so far for a sale, the lowest one for a purchase. -/
def extremeOf (side : Side) (initialPrice : ℚ) (prices : List ℚ) : ℚ :=
  match side with
  | .sell => prices.foldl max initialPrice
  | .buy => prices.foldl min initialPrice

/-- The rounded offset of a price. -/
def stopFor (ts : TrailingStop) (price : ℚ) : ℚ :=
  match ts.side with
  | .sell => ts.calculateStopSell price
  | .buy => ts.calculateStopBuy price

/-- The price is at a stop or beyond it. -/
def Reaches (side : Side) (price stop : ℚ) : Prop :=
  match side with
  | .sell => price ≤ stop
  | .buy => stop ≤ price

/-- A stop has moved with the position, or not at all. -/
def MovesWith (side : Side) (stop stop' : ℚ) : Prop :=
  match side with
  | .sell => stop ≤ stop'
  | .buy => stop' ≤ stop

/-- Some price is at the stop that it makes itself, with the prices before it, or beyond it. -/
def Reached (ts : TrailingStop) : List ℚ → Prop :=
  Occurs fun before price =>
    Reaches ts.side price (ts.stopFor (extremeOf ts.side ts.initialPrice (before ++ [price])))

/-- What is to hold of a stop after some prices and of the next one. -/
structure ClosedForm (ts : TrailingStop) (prices : List ℚ) (price : ℚ) : Prop where
  stopPrice : (ts.after prices).triggered = false →
    (ts.after prices).stopPrice = ts.stopFor (extremeOf ts.side ts.initialPrice prices)
  moves : MovesWith ts.side (ts.after prices).stopPrice (ts.after (prices ++ [price])).stopPrice
  fires : ((ts.after prices).updatePrice price).1 = true ↔ ts.Reached (prices ++ [price])
  settled : (ts.after prices).triggered = true →
    (ts.after (prices ++ [price])).stopPrice = (ts.after prices).stopPrice

/-! ### The trail of a stop -/

/-- A price as the trail sees it, with the sign that makes the better one for the position the greater. -/
def signed (side : Side) (price : ℚ) : ℚ :=
  match side with
  | .sell => price
  | .buy => -price

/-- The offset of the trail of a stop. -/
def offset (ts : TrailingStop) (price : ℚ) : ℚ := signed ts.side (ts.stopFor (signed ts.side price))

section

variable {side : Side} {price stop stop' initialPrice trailAmount : ℚ} {trailMode : TrailingStopMode}
  {ts ts₀ : TrailingStop} {t : Trail ℚ}

@[simp] lemma signed_signed : signed side (signed side price) = price := by
  cases side <;> simp [signed]

lemma reaches_iff : Reaches side price stop ↔ signed side price ≤ signed side stop := by
  cases side <;> simp [Reaches, signed]

lemma movesWith_iff : MovesWith side stop stop' ↔ signed side stop ≤ signed side stop' := by
  cases side <;> simp [MovesWith, signed]

lemma signed_extremeOf (side : Side) (initialPrice : ℚ) (prices : List ℚ) :
    signed side (extremeOf side initialPrice prices) =
      Trail.peakOf (signed side initialPrice) (prices.map (signed side)) := by
  induction prices using List.reverseRecOn with
  | nil => cases side <;> rfl
  | append_singleton prices price ih =>
    rw [List.map_append, List.map_singleton, Trail.peakOf_concat, ← ih]
    cases side with
    | sell => simp [signed, extremeOf]
    | buy => simp [signed, extremeOf, max_neg_neg]

lemma offset_signed_extremeOf (ts : TrailingStop) (prices : List ℚ) :
    ts.offset (signed ts.side (extremeOf ts.side ts.initialPrice prices)) =
      signed ts.side (ts.stopFor (extremeOf ts.side ts.initialPrice prices)) := by
  rw [offset, signed_signed]

/-- Rounding and the offset itself are monotone, a percentage as long as it is of a part. -/
lemma calculateStopSell_mono (hpercent : ts.trailMode = .percent → ts.trailAmount ≤ 100) :
    Monotone ts.calculateStopSell := by
  intro p q hpq
  rw [calculateStopSell, calculateStopSell]
  split_ifs with hmode
  · have hpart : 0 ≤ 1 - ts.trailAmount / 100 := by linarith [hpercent hmode]
    exact roundTo_mono (mul_le_mul_of_nonneg_right hpq hpart)
  · exact roundTo_mono (sub_le_sub_right hpq _)

lemma calculateStopBuy_mono (hpercent : ts.trailMode = .percent → 0 ≤ ts.trailAmount) :
    Monotone ts.calculateStopBuy := by
  intro p q hpq
  rw [calculateStopBuy, calculateStopBuy]
  split_ifs with hmode
  · have hpart : 0 ≤ 1 + ts.trailAmount / 100 := by linarith [hpercent hmode]
    exact roundTo_mono (mul_le_mul_of_nonneg_right hpq hpart)
  · exact roundTo_mono (add_le_add_left hpq _)

lemma offset_mono (hpercent : ts.trailMode = .percent → 0 ≤ ts.trailAmount ∧ ts.trailAmount ≤ 100) :
    Monotone ts.offset := by
  intro p q hpq
  rw [offset, offset]
  cases hside : ts.side with
  | sell =>
    simp only [signed, stopFor, hside]
    exact calculateStopSell_mono (fun h => (hpercent h).2) hpq
  | buy =>
    simp only [signed, stopFor, hside]
    exact neg_le_neg (calculateStopBuy_mono (fun h => (hpercent h).1) (neg_le_neg hpq))

/-- The trail has the water mark and the stop of a stop with the settings of `ts₀`. -/
structure Follows (ts₀ ts : TrailingStop) (t : Trail ℚ) : Prop where
  side : ts.side = ts₀.side
  trailAmount : ts.trailAmount = ts₀.trailAmount
  trailMode : ts.trailMode = ts₀.trailMode
  sell : ts.side = .sell → ts.highWater = t.peak
  buy : ts.side = .buy → ts.lowWater = ↑(-t.peak)
  stopPrice : signed ts.side ts.stopPrice = t.bound
  triggered : ts.triggered = t.triggered

lemma updatePrice_of_triggered (h : ts.triggered = true) : ts.updatePrice price = (true, ts) := by
  rw [updatePrice, if_pos h]

section RaiseStop

@[simp] lemma raiseStop_side : (ts.raiseStop price).side = ts.side := by
  rw [raiseStop]; split_ifs <;> rfl

@[simp] lemma raiseStop_trailAmount : (ts.raiseStop price).trailAmount = ts.trailAmount := by
  rw [raiseStop]; split_ifs <;> rfl

@[simp] lemma raiseStop_trailMode : (ts.raiseStop price).trailMode = ts.trailMode := by
  rw [raiseStop]; split_ifs <;> rfl

@[simp] lemma raiseStop_triggered : (ts.raiseStop price).triggered = ts.triggered := by
  rw [raiseStop]; split_ifs <;> rfl

@[simp] lemma raiseStop_highWater : (ts.raiseStop price).highWater = max ts.highWater price := by
  rw [raiseStop]
  split_ifs with hhigh
  · exact (max_eq_right hhigh.le).symm
  · exact (max_eq_left (not_lt.mp hhigh)).symm

lemma raiseStop_stopPrice :
    (ts.raiseStop price).stopPrice =
      if ts.highWater < price ∧ ts.stopPrice < ts.calculateStopSell price then ts.calculateStopSell price
      else ts.stopPrice := by
  rw [raiseStop]
  split_ifs with hhigh hboth hboth
  · exact if_pos hboth.2
  · exact if_neg fun hmoves => hboth ⟨hhigh, hmoves⟩
  · exact absurd hboth.1 hhigh
  · rfl

end RaiseStop

section LowerStop

@[simp] lemma lowerStop_side : (ts.lowerStop price).side = ts.side := by
  rw [lowerStop]; split_ifs <;> rfl

@[simp] lemma lowerStop_trailAmount : (ts.lowerStop price).trailAmount = ts.trailAmount := by
  rw [lowerStop]; split_ifs <;> rfl

@[simp] lemma lowerStop_trailMode : (ts.lowerStop price).trailMode = ts.trailMode := by
  rw [lowerStop]; split_ifs <;> rfl

@[simp] lemma lowerStop_triggered : (ts.lowerStop price).triggered = ts.triggered := by
  rw [lowerStop]; split_ifs <;> rfl

@[simp] lemma lowerStop_lowWater : (ts.lowerStop price).lowWater = min ts.lowWater price := by
  rw [lowerStop]
  split_ifs with hlow
  · exact (min_eq_right hlow.le).symm
  · exact (min_eq_left (not_lt.mp hlow)).symm

lemma lowerStop_stopPrice :
    (ts.lowerStop price).stopPrice =
      if price < ts.lowWater ∧ ts.calculateStopBuy price < ts.stopPrice then ts.calculateStopBuy price
      else ts.stopPrice := by
  rw [lowerStop]
  split_ifs with hlow hboth hboth
  · exact if_pos hboth.2
  · exact if_neg fun hmoves => hboth ⟨hlow, hmoves⟩
  · exact absurd hboth.1 hlow
  · rfl

end LowerStop

/-! ### A stop follows its trail -/

lemma Follows.calculateStopSell_eq (h : Follows ts₀ ts t) :
    ts.calculateStopSell = ts₀.calculateStopSell := by
  funext price
  simp [calculateStopSell, h.trailAmount, h.trailMode]

lemma Follows.calculateStopBuy_eq (h : Follows ts₀ ts t) :
    ts.calculateStopBuy = ts₀.calculateStopBuy := by
  funext price
  simp [calculateStopBuy, h.trailAmount, h.trailMode]

lemma Follows.raiseStop (h : Follows ts₀ ts t) (hside : ts₀.side = .sell) (price : ℚ) :
    Follows ts₀ (ts.raiseStop price) (t.advance ts₀.offset (signed ts₀.side price)) := by
  have hside' : ts.side = .sell := h.side.trans hside
  have hstop : ts.stopPrice = t.bound := by simpa [signed, hside'] using h.stopPrice
  have hoffset : ts₀.offset price = ts.calculateStopSell price := by
    simp [offset, h.calculateStopSell_eq, stopFor, signed, hside]
  refine ⟨?_, ?_, ?_, fun _ => ?_, fun hbuy => ?_, ?_, ?_⟩
  · simp [h.side]
  · simp [h.trailAmount]
  · simp [h.trailMode]
  · simp [Trail.advance, signed, hside, h.sell hside']
  · simp [hside'] at hbuy
  · simp [Trail.advance, signed, hside, hside', raiseStop_stopPrice, hoffset, hstop, h.sell hside']
  · simp [Trail.advance, h.triggered]

lemma Follows.lowerStop (h : Follows ts₀ ts t) (hside : ts₀.side = .buy) (price : ℚ) :
    Follows ts₀ (ts.lowerStop price) (t.advance ts₀.offset (signed ts₀.side price)) := by
  have hside' : ts.side = .buy := h.side.trans hside
  have hstop : ts.stopPrice = -t.bound := by
    rw [← h.stopPrice, hside', signed, neg_neg]
  have hoffset : ts₀.offset (-price) = -ts.calculateStopBuy price := by
    simp [offset, h.calculateStopBuy_eq, stopFor, signed, hside]
  have hlow : price < ts.lowWater ↔ t.peak < -price := by
    rw [h.buy hside', WithTop.coe_lt_coe, lt_neg]
  have hbetter : ts.calculateStopBuy price < ts.stopPrice ↔ t.bound < -ts.calculateStopBuy price := by
    rw [hstop, lt_neg]
  refine ⟨?_, ?_, ?_, fun hsell => ?_, fun _ => ?_, ?_, ?_⟩
  · simp [h.side]
  · simp [h.trailAmount]
  · simp [h.trailMode]
  · simp [hside'] at hsell
  · rw [lowerStop_lowWater, h.buy hside', ← WithTop.coe_min, Trail.advance, hside]
    simp only [signed]
    rw [← min_neg_neg, neg_neg]
  · simp only [Trail.advance, signed, hside, hside', lowerStop_side, lowerStop_stopPrice, hoffset, hlow,
      hbetter]
    split_ifs
    · rfl
    · rw [hstop, neg_neg]
  · simp [Trail.advance, h.triggered]

lemma Follows.trigger (h : Follows ts₀ ts t) (price : ℚ) :
    Follows ts₀ (ts.trigger price) { t with triggered := true } :=
  ⟨h.side, h.trailAmount, h.trailMode, h.sell, h.buy, h.stopPrice, rfl⟩

/-- The check of the stop, after the price has moved it. -/
lemma Follows.check (h : Follows ts₀ ts t) (htriggered : t.triggered = false) (price : ℚ) :
    (Reaches ts₀.side price ts.stopPrice →
      Follows ts₀ (ts.trigger price)
        { t with triggered := decide (signed ts₀.side price ≤ t.bound) }) ∧
    (¬ Reaches ts₀.side price ts.stopPrice →
      Follows ts₀ ts { t with triggered := decide (signed ts₀.side price ≤ t.bound) }) := by
  have hbound : Reaches ts₀.side price ts.stopPrice ↔ signed ts₀.side price ≤ t.bound := by
    rw [reaches_iff, ← h.side, h.stopPrice]
  constructor
  · intro hreaches
    rw [decide_eq_true (hbound.mp hreaches)]
    exact h.trigger price
  · intro hreaches
    rw [decide_eq_false fun hle => hreaches (hbound.mpr hle), ← htriggered]
    exact h

lemma Follows.updatePrice (h : Follows ts₀ ts t) (price : ℚ) :
    Follows ts₀ (ts.updatePrice price).2 (t.update ts₀.offset (signed ts₀.side price)) := by
  cases htriggered : ts.triggered with
  | true =>
    rw [updatePrice_of_triggered htriggered, Trail.update_of_triggered (h.triggered ▸ htriggered)]
    exact h
  | false =>
    have hlasts : t.triggered = false := h.triggered ▸ htriggered
    have hcounted : Follows ts₀ { ts with updateCount := ts.updateCount + 1 } t :=
      ⟨h.side, h.trailAmount, h.trailMode, h.sell, h.buy, h.stopPrice, h.triggered⟩
    rw [TrailingStop.updatePrice, if_neg (by simp [htriggered]), Trail.update_of_not hlasts]
    cases hside : ts₀.side with
    | sell =>
      have hside' : ts.side = .sell := h.side.trans hside
      have hmoved := (hcounted.raiseStop hside price).check hlasts price
      simp only [hside, hside', Reaches] at hmoved
      simp only [hside', updateSell]
      split_ifs with hreaches
      · exact hmoved.1 hreaches
      · exact hmoved.2 hreaches
    | buy =>
      have hside' : ts.side = .buy := h.side.trans hside
      have hmoved := (hcounted.lowerStop hside price).check hlasts price
      simp only [hside, hside', Reaches] at hmoved
      simp only [hside', updateBuy]
      split_ifs with hreaches
      · exact hmoved.1 hreaches
      · exact hmoved.2 hreaches

/-! ### The closed form -/

lemma new_follows (side : Side) (initialPrice trailAmount : ℚ) (trailMode : TrailingStopMode) :
    Follows (new side initialPrice trailAmount trailMode) (new side initialPrice trailAmount trailMode)
      (Trail.start (new side initialPrice trailAmount trailMode).offset (signed side initialPrice)) := by
  cases side with
  | sell => exact ⟨rfl, rfl, rfl, fun _ => rfl, nofun, rfl, rfl⟩
  | buy =>
    refine ⟨rfl, rfl, rfl, nofun, fun _ => ?_, ?_, rfl⟩
    · simp [new, postInit, Trail.start, signed]
    · simp [new, postInit, Trail.start, signed, offset, stopFor, calculateStopBuy]

lemma after_follows (start : Follows ts₀ ts₀ t) (prices : List ℚ) :
    Follows ts₀ (ts₀.after prices)
      (run (Trail.update ts₀.offset) t (prices.map (signed ts₀.side))) := by
  apply run_related
  · exact start
  · exact fun _ _ price h => h.updatePrice price

@[simp] lemma after_concat (ts : TrailingStop) (prices : List ℚ) (price : ℚ) :
    ts.after (prices ++ [price]) = ((ts.after prices).updatePrice price).2 := run_concat _ _ _ _

/-- The return value tells whether the stop is triggered afterwards. -/
lemma updatePrice_fst (ts : TrailingStop) (price : ℚ) :
    (ts.updatePrice price).1 = (ts.updatePrice price).2.triggered := by
  rw [TrailingStop.updatePrice]
  split_ifs with htriggered
  · exact htriggered.symm
  · have hlasts : ts.triggered = false := by simpa using htriggered
    dsimp only
    split
    · rw [updateSell]
      split_ifs
      · rfl
      · simp [hlasts]
    · rw [updateBuy]
      split_ifs
      · rfl
      · simp [hlasts]

/-- The prices that trip the trail are those that reach the stop. -/
lemma trips_iff (ts : TrailingStop) (prices : List ℚ) :
    Trail.Trips ts.offset (signed ts.side ts.initialPrice) (prices.map (signed ts.side)) ↔
      ts.Reached prices := by
  rw [Trail.Trips, occurs_map, Reached]
  simp only [reaches_iff, ← offset_signed_extremeOf, signed_extremeOf, List.map_append,
    List.map_cons, List.map_nil]

end

/-- The stop is the rounded offset of the best price so far until a price reaches the stop that this
price makes; from then on it stays. -/
theorem trailingStop_closedForm (side : Side) (initialPrice trailAmount : ℚ)
    (trailMode : TrailingStopMode)
    (hpercent : trailMode = .percent → 0 ≤ trailAmount ∧ trailAmount ≤ 100) (prices : List ℚ)
    (price : ℚ) : ClosedForm (new side initialPrice trailAmount trailMode) prices price := by
  set ts := new side initialPrice trailAmount trailMode with hts
  have hside : ts.side = side := by cases side <;> rfl
  have hinitial : ts.initialPrice = initialPrice := by cases side <;> rfl
  have hsettings : ts.trailMode = .percent → 0 ≤ ts.trailAmount ∧ ts.trailAmount ≤ 100 := by
    cases side <;> exact hpercent
  have hmono : Monotone ts.offset := offset_mono hsettings
  have hstart : Follows ts ts (Trail.start ts.offset (signed ts.side ts.initialPrice)) := by
    rw [hside, hinitial]
    exact new_follows side initialPrice trailAmount trailMode
  have hfollows := after_follows hstart
  have hconsistent := Trail.run_consistent hmono (signed ts.side ts.initialPrice)
  have hnext : (ts.after (prices ++ [price])).side = ts.side := (hfollows _).side
  refine ⟨fun hlasts => ?_, ?_, ?_, fun htriggered => ?_⟩
  · have hbound := (hconsistent _).bound ((hfollows prices).triggered ▸ hlasts)
    rw [← (hfollows prices).stopPrice, (hfollows prices).side, ← signed_extremeOf,
      offset_signed_extremeOf] at hbound
    simpa using congrArg (signed ts.side) hbound
  · have hbefore := (hfollows prices).stopPrice
    have hafter := (hfollows (prices ++ [price])).stopPrice
    rw [(hfollows prices).side] at hbefore
    rw [hnext, List.map_append, List.map_singleton, run_concat] at hafter
    rw [movesWith_iff, hbefore, hafter]
    apply Trail.bound_le_update
  · rw [updatePrice_fst, ← after_concat, (hfollows _).triggered, (hconsistent _).triggered, trips_iff]
  · rw [after_concat, updatePrice_of_triggered htriggered]

/-- A sale at 0.5 that trails by a tenth. -/
theorem trailingStop_closedForm_half :
    ClosedForm (new .sell (1 / 2) 10 .percent) [3 / 5, 11 / 20] (27 / 50) :=
  trailingStop_closedForm .sell (1 / 2) 10 .percent (fun _ => by norm_num) _ _

end TrailingStop
end PolyCortex
