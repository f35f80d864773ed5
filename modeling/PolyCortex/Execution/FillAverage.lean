import PolyCortex.Execution.Fill
import PolyCortex.Numeric.WeightedMean

/-!
# The average price of an entry

`_apply_fill` keeps a running average. Over fills on the grid of the sizes it is the mean of the prices,
weighted with what was accepted of each fill (`applyFills_average`): what is filled is the exact sum of
the accepted sizes as long as more can be accepted.
-/

namespace PolyCortex

open Rounding Weighted

/-- The arguments of an `_apply_fill`. -/
structure EntryFill where
  sizeUsdc : ℚ
  price : ℚ
  now : Time
  deriving DecidableEq, Repr

namespace Order

variable {o : Order} {fill : EntryFill} {fills : List EntryFill} {parts : List (ℚ × ℚ)} {x : ℚ}

def applyFills (o : Order) (fills : List EntryFill) : Order :=
  fills.foldl (fun o fill => o.applyFill fill.sizeUsdc fill.price fill.now) o

/-- What the order accepts of a fill, with the price; nothing when there is no room left. -/
def acceptedPart (o : Order) (fill : EntryFill) : List (ℚ × ℚ) :=
  if 0 < o.acceptedFill fill.sizeUsdc then [(o.acceptedFill fill.sizeUsdc, fill.price)] else []

/-- What the order accepts of fills that come one after the other. -/
def acceptedParts (o : Order) : List EntryFill → List (ℚ × ℚ)
  | [] => []
  | fill :: fills =>
    o.acceptedPart fill ++ (o.applyFill fill.sizeUsdc fill.price fill.now).acceptedParts fills

/-- An order of a positive size before its first fill. -/
structure Unfilled (o : Order) : Prop where
  size_pos : 0 < o.sizeUsdc
  filled : o.filledSizeUsdc = 0
  remaining : o.remainingSizeUsdc = o.sizeUsdc

/-- The order has accepted the parts. While it has room for more it is filled with exactly their sizes,
and its room is a size of the grid, or it is still all of the order. -/
structure Accepted (o : Order) (parts : List (ℚ × ℚ)) : Prop where
  parts_pos : ∀ part ∈ parts, 0 < part.1
  average : parts ≠ [] → o.averageFillPrice = some (mean parts)
  filled : 0 < o.remainingSizeUsdc → o.filledSizeUsdc = weight parts
  onGrid : 0 < o.remainingSizeUsdc → OnGrid 8 (weight parts)
  room : 0 < o.remainingSizeUsdc →
    OnGrid 8 o.remainingSizeUsdc ∨ parts = [] ∧ o.remainingSizeUsdc = o.sizeUsdc

lemma Unfilled.accepted (h : o.Unfilled) : o.Accepted [] where
  parts_pos _ hpart := by cases hpart
  average hne := absurd rfl hne
  filled _ := h.filled
  onGrid _ := onGrid_zero
  room _ := Or.inr ⟨rfl, h.remaining⟩

/-- There is room where something is accepted. -/
lemma remaining_pos_of_accepted (hx : 0 < o.acceptedFill x) : 0 < o.remainingSizeUsdc :=
  hx.trans_le (min_le_right _ _)

/-- When all of an order is accepted at once nothing remains, whatever its size. -/
lemma remainingAfter_of_all (hfilled : o.filledSizeUsdc = 0) (hx : o.acceptedFill x = o.sizeUsdc) :
    o.remainingAfter x ≤ dust := by
  have hdust := dust_pos
  have hle := le_round8_add o.sizeUsdc
  have hmax : max (o.sizeUsdc - round8 o.sizeUsdc) 0 ≤ dust / 2 := max_le (by linarith) (by linarith)
  rw [remainingAfter, hfilled, zero_add, hx]
  have := round8_le_add (max (o.sizeUsdc - round8 o.sizeUsdc) 0)
  linarith

/-- The running average after an accepted fill. -/
lemma Accepted.averageWith (h : o.Accepted parts) (hx : 0 < o.acceptedFill x) (p : ℚ) :
    o.averageWith (o.acceptedFill x) p = mean (parts ++ [(o.acceptedFill x, p)]) := by
  have hfilled := h.filled (remaining_pos_of_accepted hx)
  rcases eq_or_ne parts [] with rfl | hne
  · rw [List.nil_append, mean_singleton hx.ne']
    rw [weight_nil] at hfilled
    rw [Order.averageWith]
    cases o.averageFillPrice with
    | none => rfl
    | some average => simp [hfilled]
  · have hweight : 0 < weight parts := weight_pos h.parts_pos hne
    rw [Order.averageWith, h.average hne, mean_append_singleton hweight.ne']
    simp only [hfilled, hweight, if_true]

/-- The accepted size is on the grid, when room remains after it. -/
lemma Accepted.onGrid_acceptedFill (h : o.Accepted parts) (hgrid : OnGrid 8 x)
    (hx : 0 < o.acceptedFill x) (hroom : ¬ o.remainingAfter x ≤ dust) : OnGrid 8 (o.acceptedFill x) := by
  have hpos := remaining_pos_of_accepted hx
  rcases le_total x o.remainingSizeUsdc with hle | hle
  · rwa [acceptedFill, min_eq_left hle]
  · have hall : o.acceptedFill x = o.remainingSizeUsdc := min_eq_right hle
    rcases h.room hpos with hremaining | ⟨rfl, hremaining⟩
    · rwa [hall]
    · exact absurd (remainingAfter_of_all (h.filled hpos) (hall.trans hremaining)) hroom

/-- A fill adds what is accepted of it. -/
lemma Accepted.applyFill (h : o.Accepted parts) (hgrid : OnGrid 8 fill.sizeUsdc) :
    (o.applyFill fill.sizeUsdc fill.price fill.now).Accepted (parts ++ o.acceptedPart fill) := by
  by_cases hx : 0 < o.acceptedFill fill.sizeUsdc
  · have hpos := remaining_pos_of_accepted hx
    have hroom_of : 0 < (o.applyFill fill.sizeUsdc fill.price fill.now).remainingSizeUsdc →
        ¬ o.remainingAfter fill.sizeUsdc ≤ dust := by
      intro hroom hdust
      rw [applyFill_of_pos hx] at hroom
      simp only [hdust, if_true, lt_irrefl] at hroom
    have hsum_grid : 0 < (o.applyFill fill.sizeUsdc fill.price fill.now).remainingSizeUsdc →
        OnGrid 8 (weight parts + o.acceptedFill fill.sizeUsdc) := fun hroom =>
      (h.onGrid hpos).add (h.onGrid_acceptedFill hgrid hx (hroom_of hroom))
    rw [acceptedPart, if_pos hx]
    constructor
    case parts_pos =>
      intro part hpart
      rcases List.mem_append.mp hpart with hold | hnew
      · exact h.parts_pos part hold
      · rwa [List.mem_singleton.mp hnew]
    case average =>
      intro _
      rw [applyFill_of_pos hx, ← h.averageWith hx]
    case filled =>
      intro hroom
      have hround := (hsum_grid hroom).roundTo_eq
      rw [applyFill_of_pos hx, weight_append_singleton, ← hround, ← h.filled hpos]
      rfl
    case onGrid =>
      intro hroom
      rw [weight_append_singleton]
      exact hsum_grid hroom
    case room =>
      intro hroom
      left
      have hdust := hroom_of hroom
      rw [applyFill_of_pos hx]
      simp only [hdust, if_false]
      exact onGrid_roundTo _
  · rw [acceptedPart, if_neg hx, List.append_nil, applyFill_of_nonpos (not_lt.mp hx)]
    exact h

lemma Accepted.applyFills (h : o.Accepted parts) (hgrid : ∀ fill ∈ fills, OnGrid 8 fill.sizeUsdc) :
    (o.applyFills fills).Accepted (parts ++ o.acceptedParts fills) := by
  induction fills generalizing o parts with
  | nil => rwa [acceptedParts, List.append_nil]
  | cons fill fills ih =>
    have hfirst := h.applyFill (hgrid fill List.mem_cons_self)
    rw [acceptedParts, ← List.append_assoc]
    exact ih hfirst fun later hlater => hgrid later (List.mem_cons_of_mem _ hlater)

/-- What is accepted has the price of a fill. -/
lemma exists_fill_of_mem_acceptedParts {part : ℚ × ℚ} (h : part ∈ o.acceptedParts fills) :
    ∃ fill ∈ fills, fill.price = part.2 := by
  induction fills generalizing o with
  | nil => cases h
  | cons fill fills ih =>
    rcases List.mem_append.mp h with hfirst | hlater
    · rw [acceptedPart] at hfirst
      split_ifs at hfirst with hx
      · exact ⟨fill, List.mem_cons_self, by rw [List.mem_singleton.mp hfirst]⟩
      · cases hfirst
    · obtain ⟨later, hmem, hprice⟩ := ih hlater
      exact ⟨later, List.mem_cons_of_mem _ hmem, hprice⟩

/-- The first fill is accepted. -/
lemma Unfilled.acceptedParts_ne_nil (h : o.Unfilled) (hne : fills ≠ [])
    (hsizes : ∀ fill ∈ fills, 0 < fill.sizeUsdc) : o.acceptedParts fills ≠ [] := by
  cases fills with
  | nil => exact absurd rfl hne
  | cons fill fills =>
    have hx : 0 < o.acceptedFill fill.sizeUsdc :=
      lt_min (hsizes fill List.mem_cons_self) (h.remaining ▸ h.size_pos)
    rw [acceptedParts, acceptedPart, if_pos hx, List.singleton_append]
    exact List.cons_ne_nil _ _

/-- The average price is the mean of the prices, weighted with the accepted sizes, and lies between two
of the prices. -/
theorem applyFills_average (h : o.Unfilled) (hne : fills ≠ [])
    (hsizes : ∀ fill ∈ fills, 0 < fill.sizeUsdc ∧ OnGrid 8 fill.sizeUsdc) :
    0 < weight (o.acceptedParts fills) ∧
      (o.applyFills fills).averageFillPrice =
        some (total (o.acceptedParts fills) / weight (o.acceptedParts fills)) ∧
      ∃ low ∈ fills, ∃ high ∈ fills,
        low.price ≤ total (o.acceptedParts fills) / weight (o.acceptedParts fills) ∧
        total (o.acceptedParts fills) / weight (o.acceptedParts fills) ≤ high.price := by
  have haccepted := h.accepted.applyFills fun fill hfill => (hsizes fill hfill).2
  rw [List.nil_append] at haccepted
  have hparts := h.acceptedParts_ne_nil hne fun fill hfill => (hsizes fill hfill).1
  refine ⟨weight_pos haccepted.parts_pos hparts, haccepted.average hparts, ?_⟩
  obtain ⟨part, hpart, hlow⟩ := exists_le_mean haccepted.parts_pos hparts
  obtain ⟨part', hpart', hhigh⟩ := exists_mean_le haccepted.parts_pos hparts
  obtain ⟨low, hlow_mem, hlow_price⟩ := exists_fill_of_mem_acceptedParts hpart
  obtain ⟨high, hhigh_mem, hhigh_price⟩ := exists_fill_of_mem_acceptedParts hpart'
  exact ⟨low, hlow_mem, high, hhigh_mem, hlow_price ▸ hlow, hhigh_price ▸ hhigh⟩

/-- An order of the size 10. -/
def orderTen : Order where
  orderId := 1
  marketId := "m"
  tokenId := "t"
  direction := .yes
  side := .buy
  sizeUsdc := 10
  price := 1 / 2
  status := .placed
  timestamp := 0
  chunks := 1
  isPaper := true
  remainingSizeUsdc := 10

/-- Two fills; only 6 of the second are accepted. -/
def fourAndEight : List EntryFill := [⟨4, 2 / 5, 1⟩, ⟨8, 3 / 5, 2⟩]

theorem applyFills_average_orderTen :
    (orderTen.applyFills fourAndEight).averageFillPrice = some (13 / 25) := by
  have hunfilled : orderTen.Unfilled := ⟨by decide +kernel, rfl, rfl⟩
  have hsizes : ∀ fill ∈ fourAndEight, 0 < fill.sizeUsdc ∧ OnGrid 8 fill.sizeUsdc := by
    intro fill hfill
    rcases List.mem_cons.mp hfill with rfl | hfill
    · exact ⟨by norm_num, 400000000, by norm_num⟩
    · obtain rfl := List.mem_singleton.mp hfill
      exact ⟨by norm_num, 800000000, by norm_num⟩
  have hne : fourAndEight ≠ [] := List.cons_ne_nil _ _
  obtain ⟨-, haverage, -⟩ := applyFills_average hunfilled hne hsizes
  have hparts : orderTen.acceptedParts fourAndEight = [(4, 2 / 5), (6, 3 / 5)] := by decide +kernel
  rw [haverage, hparts]
  norm_num [weight, total]

end Order
end PolyCortex
