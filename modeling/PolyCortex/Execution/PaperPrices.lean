import PolyCortex.Execution.PaperFills

/-!
# The prices of the paper engine

A fill that is thinned out keeps the cost of all that was walked over, so its price is the average
price divided by the fraction that is kept. It is between the levels all the same only when they are
that far apart (`fills_between_iff`).
-/

namespace PolyCortex

open Rounding Weighted

namespace PaperOrder

variable {o : PaperOrder} {settings : PaperSettings} {draws : FillDraws} {bids asks : List Level}
  {remaining : ℚ} {fill : SimulatedFill}

/-- The price is, rounded, between two of the prices that were walked over, and within the limit. -/
def Between (o : PaperOrder) (bids asks : List Level) (fill : SimulatedFill) : Prop :=
  ∃ p, (∃ best ∈ o.parts o.remaining bids asks, best.2 ≤ p) ∧
    (∃ worst ∈ o.parts o.remaining bids asks, p ≤ worst.2) ∧
    (o.side = "BUY" → p ≤ o.price) ∧ (o.side = "SELL" → o.price ≤ p) ∧
    fill.fillPrice = roundTo 4 p

/-- The fill is not thinned out, or the average price of the parts, divided by the fraction, does not
come out above all of them. -/
def PriceHolds (settings : PaperSettings) (draws : FillDraws) (bids asks : List Level)
    (o : PaperOrder) : Prop :=
  Thinned settings draws (o.fillableOf o.remaining bids asks) →
    ∃ worst ∈ o.parts o.remaining bids asks,
      roundTo 4 (mean (o.parts o.remaining bids asks) / draws.keptFraction) ≤ roundTo 4 worst.2

/-- Every part is what is available at a level within the limit. -/
lemma mem_walkedParts {levels : List Level} {fillSize : ℚ} {part : ℚ × ℚ}
    (hpart : part ∈ o.walkedParts remaining levels fillSize) :
    ∃ level ∈ levels, ∃ filled, o.beyond level = false ∧
      part = (min (remaining - filled) level.2, level.1) ∧
      (fillSize < remaining → filled < remaining) := by
  induction levels generalizing fillSize with
  | nil => cases hpart
  | cons level levels ih =>
    simp only [walkedParts] at hpart
    split_ifs at hpart with hbeyond hdone
    · cases hpart
    · obtain rfl := List.mem_singleton.mp hpart
      exact ⟨level, List.mem_cons_self, fillSize, Bool.eq_false_iff.mpr hbeyond, rfl, id⟩
    · obtain rfl | hpart := List.mem_cons.mp hpart
      · exact ⟨level, List.mem_cons_self, fillSize, Bool.eq_false_iff.mpr hbeyond, rfl, id⟩
      · obtain ⟨other, hother, filled, hwithin, heq, hlt⟩ := ih hpart
        exact ⟨other, List.mem_cons_of_mem _ hother, filled, hwithin, heq,
          fun _ => hlt (not_le.mp hdone)⟩

lemma mem_levels {level : Level} (h : level ∈ o.levels bids asks) : level ∈ bids ∨ level ∈ asks := by
  rw [levels] at h
  split_ifs at h
  · exact .inr ((List.mem_insertionSort _).mp h)
  · exact .inl ((List.mem_insertionSort _).mp h)

/-- The limit of a buyer is above the prices of the parts, that of a seller below. -/
lemma within_of_mem_parts {part : ℚ × ℚ} (hpart : part ∈ o.parts remaining bids asks) :
    (o.side = "BUY" → part.2 ≤ o.price) ∧ (o.side = "SELL" → o.price ≤ part.2) := by
  obtain ⟨level, -, filled, hwithin, rfl, -⟩ := mem_walkedParts hpart
  simpa only [beyond, decide_eq_false_iff_not, not_or, not_and, not_lt] using hwithin

lemma orderId_of_tryFill (h : o.tryFill settings draws remaining bids asks = some fill) :
    fill.orderId = o.orderId := by
  simp only [tryFill] at h
  split_ifs at h <;> exact Option.some.inj h ▸ rfl

/-- The fills of a call are those of the open orders with something left. -/
lemma simulate_eq_some_iff :
    (o.simulate settings draws bids asks).2 = some fill ↔
      o.status = .opened ∧ 0 < o.remaining ∧
        o.tryFill settings draws o.remaining bids asks = some fill := by
  rw [simulate, ← remaining]
  split_ifs with hopen hnothing
  · simp [hopen]
  · simp [not_lt.mpr hnothing]
  · rw [not_not] at hopen
    cases o.tryFill settings draws o.remaining bids asks with
    | none => simp
    | some fill => simp [hopen, not_le.mp hnothing]

/-- A book with positive prices and sizes. -/
def PositiveLevels (levels : List Level) : Prop := ∀ level ∈ levels, 0 < level.1 ∧ 0 < level.2

lemma parts_pos (hbids : PositiveLevels bids) (hasks : PositiveLevels asks) (hpos : 0 < remaining)
    {part : ℚ × ℚ} (hpart : part ∈ o.parts remaining bids asks) : 0 < part.1 ∧ 0 < part.2 := by
  obtain ⟨level, hlevel, filled, -, rfl, hlt⟩ := mem_walkedParts hpart
  obtain ⟨hprice, hsize⟩ := (mem_levels hlevel).elim (hbids level) (hasks level)
  exact ⟨lt_min (sub_pos.mpr (hlt hpos)) hsize, hprice⟩

/-- The fill of an order that is hit has a price between the levels just when the fraction that is
kept is harmless. -/
lemma between_iff (hbids : PositiveLevels bids) (hasks : PositiveLevels asks)
    (hdraws : draws.Valid) (hpos : 0 < o.remaining)
    (hhit : o.Hit settings draws o.remaining bids asks)
    (hfill : o.tryFill settings draws o.remaining bids asks = some fill) :
    o.Between bids asks fill ↔ o.PriceHolds settings draws bids asks := by
  have hparts : ∀ part ∈ o.parts o.remaining bids asks, 0 < part.1 ∧ 0 < part.2 := fun part hpart =>
    parts_pos hbids hasks hpos hpart
  have hne : o.parts o.remaining bids asks ≠ [] := fun hnil => by
    have hweight : weight (o.parts o.remaining bids asks) = o.fillableOf o.remaining bids asks :=
      weight_parts hpos
    rw [hnil, weight_nil] at hweight
    exact hhit.2.2.ne hweight
  obtain ⟨best, hbest, hle⟩ := exists_le_mean (fun part hpart => (hparts part hpart).1) hne
  obtain ⟨worst, hworst, hge⟩ := exists_mean_le (fun part hpart => (hparts part hpart).1) hne
  obtain ⟨hlow, hhigh⟩ := keptFraction_mem hdraws
  obtain ⟨fill', hfill', -, -, hprice⟩ := tryFill_of_hit hpos hdraws hhit
  obtain rfl : fill' = fill := Option.some.inj (hfill'.symm.trans hfill)
  constructor
  · rintro ⟨p, -, ⟨dearest, hdearest, hp⟩, -, -, hround⟩ hthin
    rw [if_pos hthin] at hprice
    exact ⟨dearest, hdearest, hprice ▸ hround ▸ roundTo_mono hp⟩
  · intro hholds
    by_cases hthin : Thinned settings draws (o.fillableOf o.remaining bids asks)
    · obtain ⟨dearest, hdearest, hround⟩ := hholds hthin
      rw [if_pos hthin] at hprice
      have hmean : 0 < mean (o.parts o.remaining bids asks) :=
        (hparts best hbest).2.trans_le hle
      have hscaled : best.2 ≤ mean (o.parts o.remaining bids asks) / draws.keptFraction := by
        rw [le_div_iff₀ (by linarith)]
        nlinarith
      rcases le_total (mean (o.parts o.remaining bids asks) / draws.keptFraction) dearest.2 with
        hp | hp
      · exact ⟨_, ⟨best, hbest, hscaled⟩, ⟨dearest, hdearest, hp⟩,
          fun hbuy => hp.trans ((within_of_mem_parts hdearest).1 hbuy),
          fun hsell => ((within_of_mem_parts hbest).2 hsell).trans hscaled, hprice⟩
      -- above the dearest part, the price can only be a rounding of it
      · exact ⟨dearest.2, ⟨dearest, hdearest, le_rfl⟩, ⟨dearest, hdearest, le_rfl⟩,
          (within_of_mem_parts hdearest).1, (within_of_mem_parts hdearest).2,
          hprice.trans (le_antisymm hround (roundTo_mono hp))⟩
    · rw [if_neg hthin] at hprice
      exact ⟨_, ⟨best, hbest, hle⟩, ⟨worst, hworst, hge⟩,
        fun hbuy => hge.trans ((within_of_mem_parts hworst).1 hbuy),
        fun hsell => ((within_of_mem_parts hbest).2 hsell).trans hle, hprice⟩

end PaperOrder

namespace PaperTradingEngine

open PaperOrder

variable {e : PaperTradingEngine} {bids asks : List Level} {draws : String → FillDraws}

/-- The orders are stored under their ids. -/
def Keyed (e : PaperTradingEngine) : Prop :=
  ∀ orderId o, e.orders.get? orderId = some o → o.orderId = orderId

/-- The fills of a call are told apart by the ids of their orders. -/
lemma mem_simulateFills_iff (hkeys : e.Keyed) {o : PaperOrder} (ho : o ∈ e.orders.values)
    {fill : SimulatedFill} :
    fill ∈ (e.simulateFills bids asks draws).1 ∧ fill.orderId = o.orderId ↔
      (e.simulated bids asks draws o).2 = some fill := by
  have hown : ∀ {o' : PaperOrder}, (e.simulated bids asks draws o').2 = some fill →
      fill.orderId = o'.orderId := fun hfill => orderId_of_tryFill (simulate_eq_some_iff.mp hfill).2.2
  rw [simulateFills_fst, List.mem_filterMap]
  constructor
  · rintro ⟨⟨o', ho', hfill⟩, hid⟩
    obtain ⟨orderId, hget⟩ := (Dict.mem_values_iff _ _).mp ho
    obtain ⟨orderId', hget'⟩ := (Dict.mem_values_iff _ _).mp ho'
    have hsame : orderId = orderId' := by
      rw [← hkeys _ _ hget, ← hkeys _ _ hget', ← hid, hown hfill]
    rw [hsame, hget'] at hget
    exact Option.some.inj hget ▸ hfill
  · exact fun hfill => ⟨⟨o, ho, hfill⟩, hown hfill⟩

/-- The fills of a call have prices between the levels just when the price of every order that is hit
holds. -/
theorem fills_between_iff (hkeys : e.Keyed) (hdraws : ∀ orderId, (draws orderId).Valid)
    (hbids : PositiveLevels bids) (hasks : PositiveLevels asks) :
    (∀ o ∈ e.orders.values, ∀ fill ∈ (e.simulateFills bids asks draws).1,
        fill.orderId = o.orderId → o.Between bids asks fill) ↔
      ∀ o ∈ e.orders.values, o.status = .opened → 0 < o.remaining →
        o.Hit e.settings (draws o.orderId) o.remaining bids asks →
        o.PriceHolds e.settings (draws o.orderId) bids asks := by
  constructor
  · intro hbetween o ho hopen hpos hhit
    obtain ⟨fill, hfill, -⟩ := tryFill_of_hit hpos (hdraws o.orderId) hhit
    have hsimulated : (e.simulated bids asks draws o).2 = some fill :=
      simulate_eq_some_iff.mpr ⟨hopen, hpos, hfill⟩
    obtain ⟨hmem, hid⟩ := (mem_simulateFills_iff hkeys ho).mpr hsimulated
    exact (between_iff hbids hasks (hdraws o.orderId) hpos hhit hfill).mp
      (hbetween o ho fill hmem hid)
  · intro hholds o ho fill hmem hid
    obtain ⟨hopen, hpos, hfill⟩ :=
      simulate_eq_some_iff.mp ((mem_simulateFills_iff hkeys ho).mp ⟨hmem, hid⟩)
    have hhit : o.Hit e.settings (draws o.orderId) o.remaining bids asks := by
      by_contra hnot
      rw [tryFill_of_not_hit hpos hnot] at hfill
      cases hfill
    exact (between_iff hbids hasks (hdraws o.orderId) hpos hhit hfill).mpr
      (hholds o ho hopen hpos hhit)

/-- An order for 100 at 55 cents. -/
def oneOrder : PaperTradingEngine := (new {}).submitOrder "buy1" "token123" "BUY" (55 / 100) 100

/-- The fill is thinned out to three tenths. -/
def thinDraws : FillDraws := ⟨0, 1 / 2, 1 / 10, 0⟩

lemma keyed_oneOrder : oneOrder.Keyed := by
  intro orderId o hget
  rw [oneOrder, submitOrder, Dict.get?_set] at hget
  split_ifs at hget with hid
  · exact Option.some.inj hget ▸ hid.symm
  · cases hget

/-- The asks that the order meets. -/
def oneAsk : List Level := [(55 / 100, 200)]

lemma valid_thinDraws : thinDraws.Valid := by
  constructor <;> norm_num [thinDraws]

lemma positive_oneAsk : PositiveLevels [] ∧ PositiveLevels oneAsk := by
  constructor
  · rintro level ⟨⟩
  · intro level hlevel
    obtain rfl := List.mem_singleton.mp hlevel
    norm_num

lemma fills_oneOrder :
    ((oneOrder.simulateFills [] oneAsk fun _ => thinDraws).1.map fun fill =>
      (fill.orderId, fill.fillPrice)) = [("buy1", 18333 / 10000)] := by
  decide +kernel

/-- Bought at 1.8333, with a limit of 0.55 and asks at 0.55. -/
theorem not_fills_between_oneOrder :
    (oneOrder.Keyed ∧ thinDraws.Valid ∧ PositiveLevels [] ∧ PositiveLevels oneAsk) ∧
      ¬∀ o ∈ oneOrder.orders.values,
        ∀ fill ∈ (oneOrder.simulateFills [] oneAsk fun _ => thinDraws).1,
          fill.orderId = o.orderId → o.Between [] oneAsk fill := by
  refine ⟨⟨keyed_oneOrder, valid_thinDraws, positive_oneAsk⟩, fun hbetween => ?_⟩
  obtain ⟨fill, hfill, heq⟩ : ∃ fill ∈ (oneOrder.simulateFills [] oneAsk fun _ => thinDraws).1,
      (fill.orderId, fill.fillPrice) = ("buy1", 18333 / 10000) :=
    List.mem_map.mp (fills_oneOrder ▸ List.mem_singleton_self _)
  obtain ⟨hid, hprice⟩ := Prod.mk.inj heq
  have hget : oneOrder.orders.get? "buy1" = some _ := rfl
  obtain ⟨p, -, -, hbuy, -, hround⟩ := hbetween _ (mem_values hget) fill hfill hid
  have hmono : roundTo 4 p ≤ roundTo 4 (55 / 100) := roundTo_mono (hbuy (by decide +kernel))
  rw [← hround, hprice] at hmono
  exact absurd hmono (by decide +kernel)

theorem fills_between_iff_oneOrder :
    (oneOrder.Keyed ∧ thinDraws.Valid ∧ PositiveLevels [] ∧ PositiveLevels oneAsk) ∧
      ((∀ o ∈ oneOrder.orders.values,
        ∀ fill ∈ (oneOrder.simulateFills [] oneAsk fun _ => thinDraws).1,
          fill.orderId = o.orderId → o.Between [] oneAsk fill) ↔
      ∀ o ∈ oneOrder.orders.values, o.status = .opened → 0 < o.remaining →
        o.Hit oneOrder.settings thinDraws o.remaining [] oneAsk →
        o.PriceHolds oneOrder.settings thinDraws [] oneAsk) :=
  ⟨⟨keyed_oneOrder, valid_thinDraws, positive_oneAsk⟩,
    fills_between_iff keyed_oneOrder (fun _ => valid_thinDraws) positive_oneAsk.1
      positive_oneAsk.2⟩

end PaperTradingEngine
end PolyCortex
