import PolyCortex.Execution.Order

/-!
# The accounts of one order

`Order.Accounted` says how the size, the filled and the remaining size of an order hang together,
up to the rounding. A new order has it, and a fill keeps it, whatever its size and price.
-/

namespace PolyCortex

open Rounding

lemma dust_pos : 0 < dust := by norm_num [dust]

lemma round8_le_add (q : ℚ) : round8 q ≤ q + dust / 2 := by
  have h := roundTo_le_add (n := 8) q
  have hdust : (1 : ℚ) / 2 / 10 ^ 8 = dust / 2 := by norm_num [dust]
  rwa [hdust] at h

lemma le_round8_add (q : ℚ) : q ≤ round8 q + dust / 2 := by
  have h := le_roundTo_add (n := 8) q
  have hdust : (1 : ℚ) / 2 / 10 ^ 8 = dust / 2 := by norm_num [dust]
  rwa [hdust] at h

lemma round8_nonneg {q : ℚ} (h : 0 ≤ q) : 0 ≤ round8 q := roundTo_nonneg h

lemma round8_mono {p q : ℚ} (h : p ≤ q) : round8 p ≤ round8 q := roundTo_mono h

namespace Order

/-- The terms of an order that no operation assigns after its creation. -/
structure SameTerms (o o' : Order) : Prop where
  orderId : o'.orderId = o.orderId
  marketId : o'.marketId = o.marketId
  tokenId : o'.tokenId = o.tokenId
  direction : o'.direction = o.direction
  side : o'.side = o.side
  price : o'.price = o.price
  timestamp : o'.timestamp = o.timestamp
  isPaper : o'.isPaper = o.isPaper
  orderKind : o'.orderKind = o.orderKind
  parentOrderId : o'.parentOrderId = o.parentOrderId
  ocoGroupId : o'.ocoGroupId = o.ocoGroupId
  triggerPrice : o'.triggerPrice = o.triggerPrice
  triggerCondition : o'.triggerCondition = o.triggerCondition
  gttExpiryAt : o'.gttExpiryAt = o.gttExpiryAt

lemma SameTerms.refl (o : Order) : SameTerms o o := by
  constructor <;> rfl

lemma SameTerms.trans {o₁ o₂ o₃ : Order} (h : SameTerms o₁ o₂) (h' : SameTerms o₂ o₃) :
    SameTerms o₁ o₃ := by
  constructor
  · exact h'.orderId.trans h.orderId
  · exact h'.marketId.trans h.marketId
  · exact h'.tokenId.trans h.tokenId
  · exact h'.direction.trans h.direction
  · exact h'.side.trans h.side
  · exact h'.price.trans h.price
  · exact h'.timestamp.trans h.timestamp
  · exact h'.isPaper.trans h.isPaper
  · exact h'.orderKind.trans h.orderKind
  · exact h'.parentOrderId.trans h.parentOrderId
  · exact h'.ocoGroupId.trans h.ocoGroupId
  · exact h'.triggerPrice.trans h.triggerPrice
  · exact h'.triggerCondition.trans h.triggerCondition
  · exact h'.gttExpiryAt.trans h.gttExpiryAt

lemma SameTerms.symm {o o' : Order} (h : SameTerms o o') : SameTerms o' o := by
  obtain ⟨h₁, h₂, h₃, h₄, h₅, h₆, h₇, h₈, h₉, h₁₀, h₁₁, h₁₂, h₁₃, h₁₄⟩ := h
  exact ⟨h₁.symm, h₂.symm, h₃.symm, h₄.symm, h₅.symm, h₆.symm, h₇.symm, h₈.symm, h₉.symm,
    h₁₀.symm, h₁₁.symm, h₁₂.symm, h₁₃.symm, h₁₄.symm⟩

/-! ### What a fill does -/

/-- The part of a fill that an order accepts. -/
def acceptedFill (o : Order) (fillSizeUsdc : ℚ) : ℚ := min fillSizeUsdc o.remainingSizeUsdc

/-- A fill that accepts nothing changes nothing. -/
lemma applyFill_of_nonpos {o : Order} {x : ℚ} (h : o.acceptedFill x ≤ 0) (p : ℚ) (now : Time) :
    o.applyFill x p now = o := by
  have hsize : max 0 (min x o.remainingSizeUsdc) ≤ 0 := max_le le_rfl h
  simp only [applyFill, if_pos hsize]

/-- What remains after a fill, before the last dust is dropped. -/
def remainingAfter (o : Order) (x : ℚ) : ℚ :=
  round8 (max (o.sizeUsdc - round8 (o.filledSizeUsdc + o.acceptedFill x)) 0)

/-- A fill that accepts something, as one record. -/
lemma applyFill_of_pos {o : Order} {x : ℚ} (h : 0 < o.acceptedFill x) (p : ℚ) (now : Time) :
    o.applyFill x p now =
      { o with
        averageFillPrice := some (o.averageWith (o.acceptedFill x) p)
        filledSizeUsdc := round8 (o.filledSizeUsdc + o.acceptedFill x)
        lastFillAt := some now
        remainingSizeUsdc := if o.remainingAfter x ≤ dust then 0 else o.remainingAfter x
        status := if o.remainingAfter x ≤ dust then .filled else .partiallyFilled } := by
  have hmax : max 0 (min x o.remainingSizeUsdc) = o.acceptedFill x := max_eq_right h.le
  simp only [applyFill, hmax, if_neg (not_le.mpr h)]
  by_cases hdust : o.remainingAfter x ≤ dust
  · rw [if_pos hdust, if_pos hdust]
    rw [remainingAfter] at hdust
    rw [if_pos hdust]
  · rw [if_neg hdust, if_neg hdust]
    rw [remainingAfter] at hdust
    rw [if_neg hdust, remainingAfter]

lemma applyFill_sameTerms (o : Order) (x p : ℚ) (now : Time) :
    SameTerms o (o.applyFill x p now) := by
  by_cases h : 0 < o.acceptedFill x
  · rw [applyFill_of_pos h]
    constructor <;> rfl
  · rw [applyFill_of_nonpos (not_lt.mp h)]
    exact .refl o

@[simp] lemma applyFill_sizeUsdc (o : Order) (x p : ℚ) (now : Time) :
    (o.applyFill x p now).sizeUsdc = o.sizeUsdc := by
  by_cases h : 0 < o.acceptedFill x
  · rw [applyFill_of_pos h]
  · rw [applyFill_of_nonpos (not_lt.mp h)]

@[simp] lemma applyFill_bracketOrderIds (o : Order) (x p : ℚ) (now : Time) :
    (o.applyFill x p now).bracketOrderIds = o.bracketOrderIds := by
  by_cases h : 0 < o.acceptedFill x
  · rw [applyFill_of_pos h]
  · rw [applyFill_of_nonpos (not_lt.mp h)]

/-- A fill leaves the status or makes it one of the two fill statuses. -/
lemma applyFill_status (o : Order) (x p : ℚ) (now : Time) :
    (o.applyFill x p now = o ∧ o.acceptedFill x ≤ 0) ∨
    (0 < o.acceptedFill x ∧ (o.applyFill x p now).status = .filled) ∨
    (0 < o.acceptedFill x ∧ (o.applyFill x p now).status = .partiallyFilled) := by
  by_cases h : 0 < o.acceptedFill x
  · rw [applyFill_of_pos h]
    by_cases hdust : o.remainingAfter x ≤ dust
    · exact Or.inr (Or.inl ⟨h, if_pos hdust⟩)
    · exact Or.inr (Or.inr ⟨h, if_neg hdust⟩)
  · exact Or.inl ⟨applyFill_of_nonpos (not_lt.mp h) p now, not_lt.mp h⟩

/-! ### The accounts -/

/-- How the sizes of an order hang together. -/
structure Accounted (o : Order) : Prop where
  onGrid : OnGrid 8 o.filledSizeUsdc
  filled_nonneg : 0 ≤ o.filledSizeUsdc
  remaining_nonneg : 0 ≤ o.remainingSizeUsdc
  size_le_total : o.sizeUsdc ≤ o.filledSizeUsdc + o.remainingSizeUsdc + 3 / 2 * dust
  total_le_size : o.filledSizeUsdc + o.remainingSizeUsdc ≤ o.sizeUsdc + dust / 2
  round_total_le : round8 (o.filledSizeUsdc + o.remainingSizeUsdc) ≤ o.sizeUsdc + dust / 2
  remaining_of_filled : o.status = .filled → o.remainingSizeUsdc = 0
  untouched : o.status = .placed ∨ o.status = .armed →
    o.filledSizeUsdc = 0 ∧ o.remainingSizeUsdc = o.sizeUsdc
  entry_size : o.orderKind = .entry → 1 / 2 ≤ o.sizeUsdc
  bracket_of_armed : o.status = .armed → o.orderKind.isBracket = true

/-- An order with nothing filled yet. -/
lemma Accounted.of_untouched {o : Order} (hfilled : o.filledSizeUsdc = 0)
    (hremaining : o.remainingSizeUsdc = o.sizeUsdc) (hsize : 0 ≤ o.sizeUsdc)
    (hstatus : o.status ≠ .filled) (hentry : o.orderKind = .entry → 1 / 2 ≤ o.sizeUsdc)
    (harmed : o.status = .armed → o.orderKind.isBracket = true) : Accounted o where
  onGrid := hfilled ▸ onGrid_zero
  filled_nonneg := hfilled ▸ le_rfl
  remaining_nonneg := hremaining ▸ hsize
  size_le_total := by
    have := dust_pos
    rw [hfilled, hremaining]
    linarith
  total_le_size := by
    have := dust_pos
    rw [hfilled, hremaining]
    linarith
  round_total_le := by
    rw [hfilled, hremaining, zero_add]
    exact round8_le_add _
  remaining_of_filled := fun h => absurd h hstatus
  untouched := fun _ => ⟨hfilled, hremaining⟩
  entry_size := hentry
  bracket_of_armed := harmed

/-- The accounts depend on the sizes, the status and the kind only. -/
lemma Accounted.congr {o o' : Order} (h : Accounted o) (hsize : o'.sizeUsdc = o.sizeUsdc)
    (hfilled : o'.filledSizeUsdc = o.filledSizeUsdc)
    (hremaining : o'.remainingSizeUsdc = o.remainingSizeUsdc)
    (hkind : o'.orderKind = o.orderKind)
    (hstatus : o'.status = o.status ∨ o'.status = .cancelled ∨ o'.status = .expired) :
    Accounted o' where
  onGrid := hfilled ▸ h.onGrid
  filled_nonneg := hfilled ▸ h.filled_nonneg
  remaining_nonneg := hremaining ▸ h.remaining_nonneg
  size_le_total := by rw [hsize, hfilled, hremaining]; exact h.size_le_total
  total_le_size := by rw [hsize, hfilled, hremaining]; exact h.total_le_size
  round_total_le := by rw [hsize, hfilled, hremaining]; exact h.round_total_le
  remaining_of_filled := by
    rw [hremaining]
    rcases hstatus with hs | hs | hs <;> rw [hs]
    · exact h.remaining_of_filled
    · exact fun h => by cases h
    · exact fun h => by cases h
  untouched := by
    rw [hsize, hfilled, hremaining]
    rcases hstatus with hs | hs | hs <;> rw [hs]
    · exact h.untouched
    · rintro (h | h) <;> cases h
    · rintro (h | h) <;> cases h
  entry_size := by rw [hsize, hkind]; exact h.entry_size
  bracket_of_armed := by
    rw [hkind]
    rcases hstatus with hs | hs | hs <;> rw [hs]
    · exact h.bracket_of_armed
    · exact fun h => by cases h
    · exact fun h => by cases h

/-- The filled size after an accepted fill: on the grid, no smaller, and within the size. -/
lemma Accounted.round_filled {o : Order} (h : Accounted o) {x : ℚ} (hx : 0 < o.acceptedFill x) :
    o.filledSizeUsdc ≤ round8 (o.filledSizeUsdc + o.acceptedFill x) ∧
      round8 (o.filledSizeUsdc + o.acceptedFill x) ≤ o.sizeUsdc + dust / 2 := by
  constructor
  · exact h.onGrid.le_roundTo (by linarith)
  · have hle : o.acceptedFill x ≤ o.remainingSizeUsdc := min_le_right _ _
    exact (round8_mono (by linarith)).trans h.round_total_le

/-- A fill keeps the accounts. -/
lemma Accounted.applyFill {o : Order} (h : Accounted o) (x p : ℚ) (now : Time) :
    Accounted (o.applyFill x p now) := by
  by_cases hx : 0 < o.acceptedFill x
  · obtain ⟨hmono, hle⟩ := h.round_filled hx
    rw [applyFill_of_pos hx]
    set filled := round8 (o.filledSizeUsdc + o.acceptedFill x) with hfilled
    have hgrid : OnGrid 8 filled := onGrid_roundTo _
    have hrem : o.remainingAfter x = round8 (max (o.sizeUsdc - filled) 0) := rfl
    have hrem_grid : OnGrid 8 (o.remainingAfter x) := onGrid_roundTo _
    have hrem_nonneg : 0 ≤ o.remainingAfter x := round8_nonneg (le_max_right _ _)
    have hrem_le : o.remainingAfter x ≤ max (o.sizeUsdc - filled) 0 + dust / 2 :=
      round8_le_add _
    have hle_rem : max (o.sizeUsdc - filled) 0 ≤ o.remainingAfter x + dust / 2 :=
      le_round8_add _
    have hdiff := le_max_left (o.sizeUsdc - filled) 0
    have hdust := dust_pos
    -- without a remainder the size itself bounds the filled size
    have htotal : filled + o.remainingAfter x ≤ o.sizeUsdc + dust / 2 := by
      rcases le_total filled o.sizeUsdc with hf | hf
      · rw [max_eq_left (sub_nonneg.mpr hf)] at hrem_le
        linarith
      · rw [hrem, max_eq_right (sub_nonpos.mpr hf), round8, roundTo_zero, add_zero]
        exact hle
    refine
      { onGrid := hgrid
        filled_nonneg := h.filled_nonneg.trans hmono
        remaining_nonneg := ?_
        size_le_total := ?_
        total_le_size := ?_
        round_total_le := ?_
        remaining_of_filled := ?_
        untouched := ?_
        entry_size := h.entry_size
        bracket_of_armed := ?_ }
    all_goals dsimp only
    all_goals by_cases hd : o.remainingAfter x ≤ dust
    all_goals simp only [hd, if_true, if_false]
    · exact le_rfl
    · exact hrem_nonneg
    · linarith
    · linarith
    · linarith
    · exact htotal
    · rw [add_zero, round8, hgrid.roundTo_eq]
      exact hle
    · rw [round8, (hgrid.add hrem_grid).roundTo_eq]
      exact htotal
    · exact fun _ => trivial
    · exact fun h => by cases h
    · rintro (h | h) <;> cases h
    · rintro (h | h) <;> cases h
    · exact fun h => by cases h
    · exact fun h => by cases h
  · rw [applyFill_of_nonpos (not_lt.mp hx)]
    exact h

lemma Accounted.filled_le_applyFill {o : Order} (h : Accounted o) (x p : ℚ) (now : Time) :
    o.filledSizeUsdc ≤ (o.applyFill x p now).filledSizeUsdc := by
  by_cases hx : 0 < o.acceptedFill x
  · rw [applyFill_of_pos hx]
    exact (h.round_filled hx).1
  · rw [applyFill_of_nonpos (not_lt.mp hx)]

/-- The size a bracket protects is never negative. -/
lemma Accounted.activeSize_nonneg {o : Order} (h : Accounted o) (hsize : 0 ≤ o.sizeUsdc) :
    0 ≤ o.activeSize := by
  unfold activeSize pyOr
  split_ifs
  · exact hsize
  · exact h.filled_nonneg

end Order
end PolyCortex
