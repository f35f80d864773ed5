import PolyCortex.Execution.LiquidityUnits
import PolyCortex.Execution.PaperPrices

/-!
# The liquidity of the paper engine

Every order of a call of `simulate_fills` walks over the book as it was given. None takes more at a
price than the book has there, but what one has taken is still there for the next: two orders fill the
same level twice (`filledAt_le`).
-/

namespace PolyCortex

open Rounding Weighted

/-- The side of the book that orders of a side are filled from. -/
def bookSide (side : String) (bids asks : List Level) : List Level :=
  if side = "BUY" then asks else bids

namespace PaperOrder

variable {o : PaperOrder} {settings : PaperSettings} {draws : FillDraws} {bids asks : List Level}
  {remaining price : ℚ}

/-- What a call fills of an order, by the prices of the levels: the parts that it walks over, or the
fraction of them that is kept. -/
def filledParts (settings : PaperSettings) (draws : FillDraws) (bids asks : List Level)
    (o : PaperOrder) : List (ℚ × ℚ) :=
  match (o.simulate settings draws bids asks).2 with
  | none => []
  | some _ =>
    let parts := o.parts o.remaining bids asks
    if Thinned settings draws (weight parts) then
      parts.map fun part => (part.1 * draws.keptFraction, part.2)
    else parts

/-- The parts at a price, together. -/
def weightAt (price : ℚ) (parts : List (ℚ × ℚ)) : ℚ :=
  weight (parts.filter fun part => part.2 = price)

/-- What is filled at a price. -/
def filledAt (settings : PaperSettings) (draws : FillDraws) (bids asks : List Level) (price : ℚ)
    (o : PaperOrder) : ℚ :=
  weightAt price (o.filledParts settings draws bids asks)

lemma weightAt_cons (price : ℚ) (part : ℚ × ℚ) (parts : List (ℚ × ℚ)) :
    weightAt price (part :: parts) = (if part.2 = price then part.1 else 0) + weightAt price parts := by
  rw [weightAt, List.filter_cons]
  by_cases h : part.2 = price
  · simp [h, weightAt]
  · simp [h, weightAt]

lemma weightAt_nonneg {parts : List (ℚ × ℚ)} (hparts : ∀ part ∈ parts, 0 ≤ part.1) (price : ℚ) :
    0 ≤ weightAt price parts := by
  refine List.sum_nonneg fun w hw => ?_
  obtain ⟨part, hpart, rfl⟩ := List.mem_map.mp hw
  exact hparts part (List.mem_of_mem_filter hpart)

lemma weightAt_scale (price c : ℚ) (parts : List (ℚ × ℚ)) :
    weightAt price (parts.map fun part => (part.1 * c, part.2)) = weightAt price parts * c := by
  induction parts with
  | nil => simp [weightAt]
  | cons part parts ih =>
    rw [List.map_cons, weightAt_cons, weightAt_cons, ih, add_mul]
    split_ifs <;> simp

lemma depthAt_nonneg {levels : List Level} (hsizes : ∀ level ∈ levels, 0 ≤ level.2) (price : ℚ) :
    0 ≤ depthAt price levels := by
  refine List.sum_nonneg fun depth hdepth => ?_
  obtain ⟨level, hlevel, rfl⟩ := List.mem_map.mp hdepth
  exact hsizes level (List.mem_of_mem_filter hlevel)

lemma depthAt_perm {levels levels' : List Level} (h : levels.Perm levels') (price : ℚ) :
    depthAt price levels = depthAt price levels' :=
  depthOf_perm (h.filter _)

lemma levels_perm (o : PaperOrder) (bids asks : List Level) :
    (o.levels bids asks).Perm (bookSide o.side bids asks) := by
  rw [levels, bookSide]
  split_ifs <;> exact List.perm_insertionSort _ _

/-- What an order walks over at a price is not more than there is. -/
lemma weightAt_walkedParts_le {levels : List Level} (hsizes : ∀ level ∈ levels, 0 ≤ level.2)
    (fillSize price : ℚ) :
    weightAt price (o.walkedParts remaining levels fillSize) ≤ depthAt price levels := by
  induction levels generalizing fillSize with
  | nil => exact le_rfl
  | cons level levels ih =>
    have hrest := depthAt_nonneg (fun other hother => hsizes other (List.mem_cons_of_mem _ hother)) price
    rw [walkedParts]
    split_ifs with hbeyond
    · exact depthAt_nonneg hsizes price
    · simp only [List.forall_mem_cons] at hsizes
      simp only [weightAt_cons, depthAt_cons]
      refine add_le_add ?_ ?_
      · split_ifs
        · exact min_le_right _ _
        · exact le_rfl
      · split_ifs
        · exact hrest
        · exact ih hsizes.2 _

lemma parts_nonneg (hsizes : ∀ level ∈ bookSide o.side bids asks, 0 ≤ level.2) (hpos : 0 < remaining)
    {part : ℚ × ℚ} (hpart : part ∈ o.parts remaining bids asks) : 0 ≤ part.1 := by
  obtain ⟨level, hlevel, filled, -, rfl, hlt⟩ := mem_walkedParts hpart
  exact le_min (sub_nonneg.mpr (hlt hpos).le) (hsizes level ((o.levels_perm bids asks).mem_iff.mp hlevel))

/-- An order on its own fills at most what the book has at a price. -/
lemma filledAt_le_depthAt (hdraws : draws.Valid)
    (hsizes : ∀ level ∈ bookSide o.side bids asks, 0 ≤ level.2) (price : ℚ) :
    o.filledAt settings draws bids asks price ≤ depthAt price (bookSide o.side bids asks) := by
  have hperm := o.levels_perm bids asks
  have hwalked : weightAt price (o.parts o.remaining bids asks) ≤
      depthAt price (bookSide o.side bids asks) := by
    rw [← depthAt_perm hperm]
    exact weightAt_walkedParts_le (fun level hlevel => hsizes level (hperm.mem_iff.mp hlevel)) 0 price
  rw [filledAt, filledParts]
  cases hfill : (o.simulate settings draws bids asks).2 with
  | none => exact depthAt_nonneg hsizes price
  | some fill =>
    have hpos : 0 < o.remaining := (simulate_eq_some_iff.mp hfill).2.1
    dsimp only
    split_ifs
    · obtain ⟨hlow, hhigh⟩ := keptFraction_mem hdraws
      have hnonneg := weightAt_nonneg (fun part hpart => parts_nonneg hsizes hpos hpart) price
      rw [weightAt_scale]
      exact (mul_le_of_le_one_right hnonneg (by linarith)).trans hwalked
    · exact hwalked

/-- The recorded size is all that is filled, to cents. -/
lemma fillSize_eq (hdraws : draws.Valid) {fill : SimulatedFill}
    (hfill : (o.simulate settings draws bids asks).2 = some fill) :
    fill.fillSize = roundTo 2 (weight (o.filledParts settings draws bids asks)) := by
  obtain ⟨-, hpos, htry⟩ := simulate_eq_some_iff.mp hfill
  have hhit : o.Hit settings draws o.remaining bids asks := by
    by_contra hnot
    rw [tryFill_of_not_hit hpos hnot] at htry
    cases htry
  obtain ⟨fill', hfill', -, hsize, -⟩ := tryFill_of_hit hpos hdraws hhit
  obtain rfl : fill' = fill := Option.some.inj (hfill'.symm.trans htry)
  rw [hsize, filledParts, hfill]
  dsimp only
  rw [weight_parts hpos]
  split_ifs
  · rw [weight, List.map_map, ← weight_parts hpos, weight, ← List.sum_map_mul_right]
    rfl
  · rw [weight_parts hpos]

end PaperOrder

namespace PaperTradingEngine

open PaperOrder

variable {e : PaperTradingEngine} {bids asks : List Level} {draws : String → FillDraws}

/-- The orders of a side that a call of `simulate_fills` fills. -/
def filledOrders (bids asks : List Level) (draws : String → FillDraws) (side : String)
    (e : PaperTradingEngine) : List PaperOrder :=
  e.orders.values.filter fun o => o.side = side ∧ (e.simulated bids asks draws o).2.isSome

/-- What the call fills at a price, for all orders of a side. -/
def totalFilledAt (bids asks : List Level) (draws : String → FillDraws) (side : String) (price : ℚ)
    (e : PaperTradingEngine) : ℚ :=
  ((e.filledOrders bids asks draws side).map fun o =>
    o.filledAt e.settings (draws o.orderId) bids asks price).sum

/-- No order fills more at a price than the book has there, and all orders of a side together not more
than that for each order that is filled. -/
theorem filledAt_le (hdraws : ∀ orderId, (draws orderId).Valid) (hbids : ∀ bid ∈ bids, 0 ≤ bid.2)
    (hasks : ∀ ask ∈ asks, 0 ≤ ask.2) :
    (∀ o ∈ e.orders.values, ∀ price,
      o.filledAt e.settings (draws o.orderId) bids asks price ≤
        depthAt price (bookSide o.side bids asks)) ∧
      (∀ o ∈ e.orders.values, ∀ fill, (e.simulated bids asks draws o).2 = some fill →
        fill.fillSize =
          roundTo 2 (weight (o.filledParts e.settings (draws o.orderId) bids asks))) ∧
      ∀ side price, e.totalFilledAt bids asks draws side price ≤
        (e.filledOrders bids asks draws side).length * depthAt price (bookSide side bids asks) := by
  have hsizes : ∀ side, ∀ level ∈ bookSide side bids asks, 0 ≤ level.2 := by
    intro side
    rw [bookSide]
    split_ifs
    · exact hasks
    · exact hbids
  refine ⟨fun o _ price => filledAt_le_depthAt (hdraws _) (hsizes o.side) price,
    fun o _ fill hfill => fillSize_eq (hdraws _) hfill, fun side price => ?_⟩
  have hbound := List.sum_le_card_nsmul ((e.filledOrders bids asks draws side).map fun o =>
    o.filledAt e.settings (draws o.orderId) bids asks price) (depthAt price (bookSide side bids asks)) ?_
  · rwa [List.length_map, nsmul_eq_mul] at hbound
  · refine List.forall_mem_map.mpr fun o ho => ?_
    have hside : o.side = side := (of_decide_eq_true (List.mem_filter.mp ho).2).1
    exact hside ▸ filledAt_le_depthAt (hdraws _) (hsizes o.side) price

/-- Two orders for 100 at 55 cents. -/
def twoOrders : PaperTradingEngine :=
  ((new {}).submitOrder "buy1" "token123" "BUY" (55 / 100) 100).submitOrder "buy2" "token123" "BUY"
    (55 / 100) 100

/-- No draw that lets an order miss or thins it out. -/
def evenDraws : FillDraws := ⟨1 / 2, 1 / 2, 1 / 2, 1 / 2⟩

/-- Both orders are filled with the 100 of one ask. -/
theorem not_totalFilledAt_le_twoOrders :
    ¬∀ side price, twoOrders.totalFilledAt [] [(55 / 100, 100)] (fun _ => evenDraws) side price ≤
      depthAt price (bookSide side [] [(55 / 100, 100)]) := by
  intro hle
  exact absurd (hle "BUY" (55 / 100)) (by decide +kernel)

theorem filledAt_le_twoOrders :
    (∀ o ∈ twoOrders.orders.values, ∀ price,
      o.filledAt twoOrders.settings evenDraws [] [(55 / 100, 100)] price ≤
        depthAt price (bookSide o.side [] [(55 / 100, 100)])) ∧
      (∀ o ∈ twoOrders.orders.values, ∀ fill,
        (twoOrders.simulated [] [(55 / 100, 100)] (fun _ => evenDraws) o).2 = some fill →
          fill.fillSize =
            roundTo 2 (weight (o.filledParts twoOrders.settings evenDraws [] [(55 / 100, 100)]))) ∧
      ∀ side price, twoOrders.totalFilledAt [] [(55 / 100, 100)] (fun _ => evenDraws) side price ≤
        (twoOrders.filledOrders [] [(55 / 100, 100)] (fun _ => evenDraws) side).length *
          depthAt price (bookSide side [] [(55 / 100, 100)]) :=
  @filledAt_le twoOrders [] [(55 / 100, 100)] (fun _ => evenDraws)
    (fun _ => by constructor <;> norm_num [evenDraws]) (by simp) (by simp)

end PaperTradingEngine
end PolyCortex
