import Mathlib.Logic.Relation
import PolyCortex.Execution.Fill
import PolyCortex.Execution.Reconcile

/-!
# Arming a bracket

Arming the bracket of an entry sets its levels and its bracket state, and creates or resizes its
children. `Arming` lists these steps, `armBracketOrders_armings` says that `_arm_bracket_orders`
does nothing else, and the lookups say what each step leaves of an order.
-/

namespace PolyCortex

open Relation

variable {cfg : Config} {s s' : Executor} {id : OrderId}

/-! ### Resizing the children -/

/-- The child after `syncChildSizes`. -/
def Order.resized (size : ℚ) (child : Order) : Order :=
  if child.status = .armed then { child with sizeUsdc := size, remainingSizeUsdc := size }
  else child

lemma Order.resized_resized (size : ℚ) (child : Order) :
    (child.resized size).resized size = child.resized size := by
  by_cases h : child.status = .armed
  · simp only [resized, if_pos h]
  · simp only [resized, if_neg h]

lemma Order.resized_terms (size : ℚ) (child : Order) :
    Order.SameTerms child (child.resized size) := by
  unfold resized
  split_ifs
  · constructor <;> rfl
  · exact .refl child

@[simp] lemma Order.resized_status (size : ℚ) (child : Order) :
    (child.resized size).status = child.status := by
  unfold resized
  split_ifs <;> rfl

@[simp] lemma Order.resized_filledSizeUsdc (size : ℚ) (child : Order) :
    (child.resized size).filledSizeUsdc = child.filledSizeUsdc := by
  unfold resized
  split_ifs <;> rfl

@[simp] lemma Order.resized_averageFillPrice (size : ℚ) (child : Order) :
    (child.resized size).averageFillPrice = child.averageFillPrice := by
  unfold Order.resized
  split_ifs <;> rfl

@[simp] lemma Order.resized_bracketOrderIds (size : ℚ) (child : Order) :
    (child.resized size).bracketOrderIds = child.bracketOrderIds := by
  unfold resized
  split_ifs <;> rfl

lemma get?_syncChildSizes (parent : Order) (s : Executor) (id : OrderId) :
    (syncChildSizes parent s).orders.get? id = (s.orders.get? id).map fun child =>
      if id ∈ parent.bracketOrderIds then child.resized parent.activeSize else child := by
  unfold syncChildSizes
  induction parent.bracketOrderIds generalizing s with
  | nil => simp
  | cons a ids ih =>
    have hstep : (s.modifyOrder a fun child =>
        if child.status = .armed then
          { child with sizeUsdc := parent.activeSize, remainingSizeUsdc := parent.activeSize }
        else child) = s.modifyOrder a (·.resized parent.activeSize) := rfl
    rw [List.foldl_cons, hstep, ih, Executor.get?_modifyOrder]
    by_cases ha : id = a
    · subst ha
      rw [if_pos rfl, Option.map_map]
      congr 1
      funext child
      by_cases hmem : id ∈ ids
      · simp [hmem, Order.resized_resized]
      · simp [hmem]
    · simp [ha]

/-! ### Creating the children -/

/-- A bracket child is written as the constructor would leave it. -/
lemma bracketChild_eq (parent : Order) (spec : BracketSpec) (now : Time) (ocoGroupId : ℕ)
    (kind : OrderKind) (trigger : TriggerCondition) (price : ℚ) (id : OrderId) :
    bracketChild parent spec now ocoGroupId kind trigger price id =
      { orderId := id
        marketId := parent.marketId
        tokenId := parent.tokenId
        direction := parent.direction
        side := .sell
        sizeUsdc := parent.activeSize
        price
        status := .armed
        timestamp := now
        chunks := 1
        isPaper := parent.isPaper
        remainingSizeUsdc := parent.activeSize
        orderType := .gtt
        orderKind := kind
        reduceOnly := true
        parentOrderId := some parent.orderId
        ocoGroupId := some ocoGroupId
        triggerPrice := some price
        triggerCondition := some trigger
        gttExpiryAt := some (now + minutes spec.ttlMinutes) } :=
  Order.postInit_of_armed rfl rfl

/-- The ids of a new bracket are not in use. -/
lemma Executor.ne_bracketIds {id : OrderId} {o : Order} (h : s.orders.get? id = some o) :
    id ≠ s.nextId + 1 ∧ id ≠ s.nextId + 2 :=
  ⟨((lt_nextId h).trans (Nat.lt_add_of_pos_right Nat.one_pos)).ne,
    ((lt_nextId h).trans (Nat.lt_add_of_pos_right Nat.two_pos)).ne⟩

/-- The parent of a new bracket. -/
def Order.withBracket (g : ℕ) (o : Order) : Order :=
  { o with bracketOrderIds := [g + 1, g + 2], bracketState := .armed }

lemma get?_createBrackets (spec : BracketSpec) (now : Time) {e : OrderId} {o : Order}
    (hget : s.orders.get? e = some o) (id : OrderId) :
    (createBrackets spec now e o s).2.orders.get? id =
      if id = s.nextId + 2 then some (stopLossOrder o spec now s.nextId (s.nextId + 2))
      else if id = s.nextId + 1 then some (takeProfitOrder o spec now s.nextId (s.nextId + 1))
      else if id = e then some (o.withBracket s.nextId)
      else s.orders.get? id := by
  obtain ⟨htp, hsl⟩ := Executor.ne_bracketIds hget
  have hadd : s.nextId + 1 + 1 = s.nextId + 2 := rfl
  simp only [createBrackets, Executor.get?_modifyOrder, Executor.get?_insertOrder,
    Executor.nextId_insertOrder, Executor.nextId_takeId, Executor.orders_takeId, hadd]
  by_cases hid : id = e
  · subst hid
    simp only [if_true, htp, hsl, if_false, hget, Option.map_some, Order.withBracket]
  · simp only [hid, if_false]
    rfl

/-- What was stored before stays, but for the entry. -/
lemma get?_createBrackets_of_some (spec : BracketSpec) (now : Time) {e : OrderId} {o x : Order}
    (hget : s.orders.get? e = some o) (hx : s.orders.get? id = some x) :
    (createBrackets spec now e o s).2.orders.get? id =
      if id = e then some (o.withBracket s.nextId) else some x := by
  obtain ⟨htp, hsl⟩ := Executor.ne_bracketIds hx
  rw [get?_createBrackets spec now hget, if_neg hsl, if_neg htp, hx]

lemma get?_createBrackets_self (spec : BracketSpec) (now : Time) {o : Order}
    (hget : s.orders.get? id = some o) :
    (createBrackets spec now id o s).2.orders.get? id = some (o.withBracket s.nextId) := by
  rw [get?_createBrackets_of_some spec now hget hget, if_pos rfl]

/-- A child as it is created, under the id `id` in the group `g`. -/
structure Order.NewChild (parent : Order) (g : ℕ) (id : OrderId) (o : Order) : Prop where
  orderId : o.orderId = id
  kind : o.orderKind.isBracket = true
  parentOrderId : o.parentOrderId = some parent.orderId
  ocoGroupId : o.ocoGroupId = some g
  status : o.status = .armed
  sizeUsdc : o.sizeUsdc = parent.activeSize
  filledSizeUsdc : o.filledSizeUsdc = 0
  bracketOrderIds : o.bracketOrderIds = []
  isPaper : o.isPaper = parent.isPaper

lemma takeProfitOrder_new (parent : Order) (spec : BracketSpec) (now : Time) (g : ℕ)
    (id : OrderId) : parent.NewChild g id (takeProfitOrder parent spec now g id) := by
  rw [takeProfitOrder, bracketChild_eq]
  constructor <;> rfl

lemma stopLossOrder_new (parent : Order) (spec : BracketSpec) (now : Time) (g : ℕ)
    (id : OrderId) : parent.NewChild g id (stopLossOrder parent spec now g id) := by
  rw [stopLossOrder, bracketChild_eq]
  constructor <;> rfl

/-- The orders after the creation of a bracket: the two children, the parent, the others. -/
lemma createBrackets_cases (spec : BracketSpec) (now : Time) {e : OrderId} {o : Order}
    (hget : s.orders.get? e = some o) {id : OrderId} {o' : Order}
    (ho' : (createBrackets spec now e o s).2.orders.get? id = some o') :
    ((id = s.nextId + 1 ∨ id = s.nextId + 2) ∧ o.NewChild s.nextId id o') ∨
    (id = e ∧ o' = o.withBracket s.nextId) ∨ (id ≠ e ∧ s.orders.get? id = some o') := by
  rw [get?_createBrackets spec now hget] at ho'
  split_ifs at ho' with hsl htp he
  · subst hsl
    exact Or.inl ⟨Or.inr rfl, Option.some.inj ho' ▸ stopLossOrder_new ..⟩
  · subst htp
    exact Or.inl ⟨Or.inl rfl, Option.some.inj ho' ▸ takeProfitOrder_new ..⟩
  · exact Or.inr (Or.inl ⟨he, (Option.some.inj ho').symm⟩)
  · exact Or.inr (Or.inr ⟨he, ho'⟩)

/-- The new children bet on the side of their parent. -/
lemma createBrackets_direction (spec : BracketSpec) (now : Time) {e : OrderId} {o : Order}
    (hget : s.orders.get? e = some o) {id : OrderId} {o' : Order}
    (hid : id = s.nextId + 1 ∨ id = s.nextId + 2)
    (ho' : (createBrackets spec now e o s).2.orders.get? id = some o') :
    o'.direction = o.direction := by
  rw [get?_createBrackets spec now hget] at ho'
  split_ifs at ho' with hsl htp he
  · rw [← Option.some.inj ho', stopLossOrder, bracketChild_eq]
  · rw [← Option.some.inj ho', takeProfitOrder, bracketChild_eq]
  · exact absurd hid (not_or.mpr ⟨htp, hsl⟩)
  · exact absurd hid (not_or.mpr ⟨htp, hsl⟩)

/-- The children that the parent of a new bracket lists. -/
lemma createBrackets_children (spec : BracketSpec) (now : Time) {o : Order}
    (hget : s.orders.get? id = some o) {c : OrderId}
    (hc : c ∈ (o.withBracket s.nextId).bracketOrderIds) :
    ∃ child, (createBrackets spec now id o s).2.orders.get? c = some child ∧
      o.NewChild s.nextId c child := by
  rcases List.mem_pair.mp hc with rfl | rfl
  · refine ⟨takeProfitOrder o spec now s.nextId (s.nextId + 1), ?_, takeProfitOrder_new ..⟩
    simp [get?_createBrackets spec now hget]
  · refine ⟨stopLossOrder o spec now s.nextId (s.nextId + 2), ?_, stopLossOrder_new ..⟩
    simp [get?_createBrackets spec now hget]

/-! ### The steps -/

/-- A step of arming the bracket of the order `id`. -/
inductive Arming (id : OrderId) (s : Executor) : Executor → Prop where
  | levels (takeProfit stopLoss : ℚ) : Arming id s (s.modifyOrder id fun o =>
      { o with takeProfitPrice := some takeProfit, stopLossPrice := some stopLoss })
  | state (state : BracketState) : Arming id s (s.setBracketState id state)
  | refresh (o : Order) (hget : s.orders.get? id = some o) (hkind : o.orderKind = .entry) :
    Arming id s (syncChildSizes o s)
  | create (spec : BracketSpec) (now : Time) (o : Order) (hget : s.orders.get? id = some o)
    (hkind : o.orderKind = .entry) (hnone : o.bracketOrderIds = []) :
    Arming id s (createBrackets spec now id o s).2

abbrev Armings (id : OrderId) : Executor → Executor → Prop := ReflTransGen (Arming id)

/-- Arming a bracket sets the parent's levels and then creates or resizes the children. -/
lemma armBracketOrders_armings (spec : BracketSpec) (now : Time) (id : OrderId) (s : Executor) :
    Armings id s (armBracketOrders spec now id s).2 := by
  unfold armBracketOrders
  cases hget : s.orders.get? id with
  | none => exact .refl
  | some parent =>
    dsimp only
    set levels := buildBracketLevels parent.activePrice spec
    let setLevels : Order → Order := fun o =>
      { o with takeProfitPrice := some levels.1, stopLossPrice := some levels.2 }
    have hlevels : Armings id s (s.modifyOrder id setLevels) := .single (.levels levels.1 levels.2)
    have hget' : (s.modifyOrder id setLevels).orders.get? id = some (setLevels parent) := by
      simp [hget]
    by_cases hkind : parent.orderKind = .entry
    · rw [if_neg (not_not.mpr hkind)]
      by_cases hnone : parent.bracketOrderIds = []
      · rw [if_neg (not_not.mpr hnone)]
        exact hlevels.tail (.create spec now (setLevels parent) hget' hkind hnone)
      · rw [if_pos hnone]
        let setState : Order → Order := fun o => { o with bracketState := .armed }
        refine (hlevels.tail (.state .armed)).tail
          (.refresh (setState (setLevels parent)) ?_ hkind)
        rw [Executor.setBracketState, Executor.get?_modifyOrder_self, hget', Option.map_some]
    · rw [if_pos hkind]

lemma armDefaultBrackets_armings (cfg : Config) (now : Time) (id : OrderId) (s : Executor) :
    Armings id s (armDefaultBrackets cfg now id s).2 := by
  unfold armDefaultBrackets
  cases cfg.defaultBracketSpec with
  | none => exact .refl
  | some spec => exact armBracketOrders_armings spec now id s

lemma armDeferred_armings (cfg : Config) (now : Time) (id : OrderId) (s : Executor) :
    Armings id s (armDeferred cfg now id s).2 := by
  unfold armDeferred
  cases s.orders.get? id with
  | none => exact .refl
  | some o =>
    dsimp only
    split_ifs
    · exact armDefaultBrackets_armings cfg now id s
    · exact .refl

end PolyCortex
