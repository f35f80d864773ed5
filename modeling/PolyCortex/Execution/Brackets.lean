import PolyCortex.Execution.Conservation

/-!
# Brackets

`Executor.Bracketed` is the invariant behind one-cancels-other: it ties the children of an entry to
the entry and to each other. Every effect of a run keeps it, so at most one child of an entry is
ever filled and the children never sell more than the entry has bought.
-/

namespace PolyCortex

open Relation Rounding

variable {cfg : Config} {s s' : Executor}

/-! ### Lookups after a trigger -/

/-- What a triggered child does to the other orders: its parent's bracket closes, its armed
siblings are cancelled. -/
def Order.besideTriggered (filled : Order) (id : OrderId) (o : Order) : Order :=
  let o := if filled.parentOrderId = some id then { o with bracketState := .closed } else o
  if isOcoSibling filled o then { o with status := .cancelled } else o

lemma get?_setParentBracketState (o : Order) (state : BracketState) (s : Executor) (id : OrderId) :
    (setParentBracketState o state s).orders.get? id = (s.orders.get? id).map fun o' =>
      if o.parentOrderId = some id then { o' with bracketState := state } else o' := by
  unfold setParentBracketState
  cases o.parentOrderId with
  | none => simp
  | some parentId =>
    dsimp only
    rw [Executor.setBracketState, Executor.get?_modifyOrder]
    by_cases hid : id = parentId
    · subst hid
      simp
    · simp [hid, Ne.symm hid]

lemma get?_triggerChild {data : MarketData} {now : Time} {id : OrderId} {o : Order}
    (hget : s.orders.get? id = some o) (j : OrderId) :
    (triggerChild data now id o s).2.orders.get? j =
      (if j = id then some (o.exitFill data now) else s.orders.get? j).map
        ((o.exitFill data now).besideTriggered j) := by
  simp only [triggerChild, cancelSiblings, Executor.get?_mapOrders, get?_setParentBracketState,
    Executor.get?_modifyOrder, hget, Option.map_some, Option.map_map]
  rfl

lemma get?_triggerChild_self {data : MarketData} {now : Time} {id : OrderId} {o : Order}
    (hget : s.orders.get? id = some o) :
    (triggerChild data now id o s).2.orders.get? id =
      some ((o.exitFill data now).besideTriggered id (o.exitFill data now)) := by
  rw [get?_triggerChild hget, if_pos rfl, Option.map_some]

lemma get?_triggerChild_ne {data : MarketData} {now : Time} {id : OrderId} {o : Order}
    (hget : s.orders.get? id = some o) {j : OrderId} (hj : j ≠ id) :
    (triggerChild data now id o s).2.orders.get? j =
      (s.orders.get? j).map ((o.exitFill data now).besideTriggered j) := by
  rw [get?_triggerChild hget, if_neg hj]

/-! ### The price of an exit -/

/-- The price of an exit looks at the terms of the order only, and so does the trigger. -/
lemma Order.SameTerms.exitPrice {o o' : Order} (h : Order.SameTerms o o') (data : MarketData) :
    exitPrice data o' = exitPrice data o := by
  have hprice : triggerEvalPrice data o' = triggerEvalPrice data o := by
    rw [triggerEvalPrice, h.price, h.orderKind]
    rfl
  rw [PolyCortex.exitPrice, h.direction, hprice]
  rfl

lemma Order.SameTerms.shouldTrigger {o o' : Order} (h : Order.SameTerms o o') (data : MarketData) :
    shouldTrigger data o' = shouldTrigger data o := by
  rw [PolyCortex.shouldTrigger, h.triggerCondition, h.triggerPrice, h.exitPrice data]
  rfl

/-- A child is filled for the first time when it fires, so at that price alone. -/
lemma Order.exitFill_filled {o : Order} (hacc : o.Accounted) (harmed : o.status = .armed)
    {data : MarketData} {now : Time} (hfilled : (o.exitFill data now).status = .filled) :
    (o.exitFill data now).averageFillPrice = some (exitPrice data o) := by
  obtain ⟨hzero, _⟩ := hacc.untouched (Or.inr harmed)
  rw [exitFill] at hfilled ⊢
  by_cases hpos : 0 < o.acceptedFill (pyOr o.remainingSizeUsdc o.sizeUsdc)
  · have haverage : ∀ x p, o.averageWith x p = p := by
      intro x p
      cases h : o.averageFillPrice <;> simp [averageWith, h, hzero]
    rw [applyFill_of_pos hpos]
    simp [haverage]
  · rw [applyFill_of_nonpos (not_lt.mp hpos), harmed] at hfilled
    cases hfilled

/-! ### What stays final -/

/-- No order disappears, its terms stay, and what is final keeps its status. -/
def Executor.Follows (s s' : Executor) : Prop :=
  ∀ id o, s.orders.get? id = some o → ∃ o', s'.orders.get? id = some o' ∧ Order.SameTerms o o' ∧
    (o.status.isFinal = true → o'.status = o.status)

namespace Executor.Follows

lemma refl (s : Executor) : Follows s s := fun _ o ho => ⟨o, ho, .refl o, fun _ => rfl⟩

lemma trans {s'' : Executor} (h : Follows s s') (h' : Follows s' s'') : Follows s s'' := by
  intro id o ho
  obtain ⟨o', ho', hterms, hfinal⟩ := h id o ho
  obtain ⟨o'', ho'', hterms', hfinal'⟩ := h' id o' ho'
  refine ⟨o'', ho'', hterms.trans hterms', fun hf => ?_⟩
  have hstatus := hfinal hf
  rw [← hstatus] at hf
  exact (hfinal' hf).trans hstatus

lemma modifyOrder {id : OrderId} {f : Order → Order}
    (hf : ∀ o, s.orders.get? id = some o →
      Order.SameTerms o (f o) ∧ (o.status.isFinal = true → (f o).status = o.status)) :
    Follows s (s.modifyOrder id f) := by
  intro j o ho
  rw [get?_modifyOrder]
  split_ifs with hj
  · subst hj
    rw [ho]
    exact ⟨f o, rfl, hf o ho⟩
  · exact ⟨o, ho, .refl o, fun _ => rfl⟩

end Executor.Follows

/-- A triggered child leaves the terms of the others alone, and their final statuses. -/
lemma besideTriggered_terms (filled : Order) (id : OrderId) (o : Order) :
    Order.SameTerms o (filled.besideTriggered id o) := by
  unfold Order.besideTriggered
  dsimp only
  split_ifs <;> constructor <;> rfl

lemma besideTriggered_fill (filled : Order) (id : OrderId) (o : Order) :
    Order.SameFill o (filled.besideTriggered id o) := by
  unfold Order.besideTriggered
  dsimp only
  split_ifs <;> constructor <;> rfl

@[simp] lemma besideTriggered_bracketOrderIds (filled : Order) (id : OrderId) (o : Order) :
    (filled.besideTriggered id o).bracketOrderIds = o.bracketOrderIds := by
  unfold Order.besideTriggered
  dsimp only
  split_ifs <;> rfl

lemma besideTriggered_status (filled : Order) (id : OrderId) (o : Order) :
    (filled.besideTriggered id o).status =
      if isOcoSibling filled o then .cancelled else o.status := by
  unfold Order.besideTriggered
  dsimp only
  have hstate : isOcoSibling filled
      (if filled.parentOrderId = some id then { o with bracketState := .closed } else o) =
      isOcoSibling filled o := by
    split_ifs <;> rfl
  rw [hstate]
  split_ifs <;> rfl

lemma isOcoSibling_iff (o candidate : Order) :
    isOcoSibling o candidate = true ↔ o.ocoGroupId.isSome = true ∧
      candidate.ocoGroupId = o.ocoGroupId ∧ candidate.orderId ≠ o.orderId ∧
      candidate.status = .armed := by
  simp [isOcoSibling, and_assoc]

/-- An order is no sibling of its own. -/
lemma besideTriggered_self_status (o : Order) (id : OrderId) :
    (o.besideTriggered id o).status = o.status := by
  rw [besideTriggered_status, if_neg]
  rw [isOcoSibling_iff]
  exact fun h => h.2.2.1 rfl

/-- Every effect leaves the final statuses alone. -/
lemma Effect.follows (h : Effect cfg s s') : s.Follows s' := by
  cases h with
  | bookkeeping _ horders hid => exact fun id o ho => ⟨o, horders ▸ ho, .refl o, fun _ => rfl⟩
  | insert mk hnew hpaper =>
    exact fun id o ho => ⟨o, Executor.get?_insertOrder_of_some ho mk, .refl o, fun _ => rfl⟩
  | touch id f htouch =>
    exact .modifyOrder fun o ho => ⟨(htouch o ho).terms, fun _ => (htouch o ho).status⟩
  | withdraw id o status hget hopen hstatus =>
    refine .modifyOrder fun o' ho' => ⟨by constructor <;> rfl, fun hfinal => ?_⟩
    rw [hget] at ho'
    cases ho'
    rw [hopen] at hfinal
    cases hfinal
  | fill id o x p now hget hkind hopen =>
    refine .modifyOrder fun o' ho' => ⟨Order.applyFill_sameTerms .., fun hfinal => ?_⟩
    rw [hget] at ho'
    cases ho'
    rw [hopen] at hfinal
    cases hfinal
  | refresh parentId o hget hkind =>
    intro id child hchild
    rw [get?_syncChildSizes, hchild, Option.map_some]
    refine ⟨_, rfl, ?_, fun _ => ?_⟩
    · split_ifs
      · exact Order.resized_terms _ _
      · exact .refl child
    · split_ifs
      · exact Order.resized_status _ _
      · rfl
  | create parentId o spec now hget hkind hnone hfill =>
    intro id o' ho'
    rw [get?_createBrackets_of_some spec now hget ho']
    split_ifs with hid
    · subst hid
      rw [hget] at ho'
      cases ho'
      exact ⟨_, rfl, by constructor <;> rfl, fun _ => rfl⟩
    · exact ⟨o', rfl, .refl o', fun _ => rfl⟩
  | trigger data now id o hget hkind harmed =>
    intro j o' ho'
    rw [get?_triggerChild hget]
    split_ifs with hj
    · subst hj
      rw [hget] at ho'
      cases ho'
      refine ⟨_, rfl, (Order.applyFill_sameTerms ..).trans (besideTriggered_terms ..), ?_⟩
      rw [harmed]
      exact fun h => by cases h
    · rw [ho']
      refine ⟨_, rfl, besideTriggered_terms .., fun hfinal => ?_⟩
      rw [besideTriggered_status, if_neg]
      rw [isOcoSibling_iff]
      rintro ⟨_, _, _, h⟩
      rw [h] at hfinal
      cases hfinal

/-- An order after an effect was there before, or it is new, or it is the child of a new bracket. -/
lemma Effect.source (h : Effect cfg s s') {id : OrderId} {o' : Order}
    (ho' : s'.orders.get? id = some o') :
    (∃ o, s.orders.get? id = some o ∧ Order.SameTerms o o') ∨
    (o'.New id ∧ o'.isPaper = cfg.isPaper) ∨
    ∃ parentId parent g, s.orders.get? parentId = some parent ∧ parent.orderKind = .entry ∧
      parent.NewChild g id o' ∧ o'.direction = parent.direction := by
  have hmodify : ∀ {j : OrderId} {f : Order → Order},
      (∀ o, s.orders.get? j = some o → Order.SameTerms o (f o)) →
      (s.modifyOrder j f).orders.get? id = some o' →
      ∃ o, s.orders.get? id = some o ∧ Order.SameTerms o o' := by
    intro j f hf ho'
    rw [Executor.get?_modifyOrder] at ho'
    split_ifs at ho' with hid
    · obtain ⟨o, ho, rfl⟩ := Option.map_eq_some_iff.mp ho'
      exact ⟨o, hid ▸ ho, hf o ho⟩
    · exact ⟨o', ho', .refl o'⟩
  cases h with
  | bookkeeping _ horders hid => exact Or.inl ⟨o', horders ▸ ho', .refl o'⟩
  | insert mk hnew hpaper =>
    rw [Executor.get?_insertOrder] at ho'
    split_ifs at ho' with hid
    · rw [hid, ← Option.some.inj ho']
      exact Or.inr (Or.inl ⟨hnew _, hpaper _⟩)
    · exact Or.inl ⟨o', ho', .refl o'⟩
  | touch j f htouch => exact Or.inl (hmodify (fun o ho => (htouch o ho).terms) ho')
  | withdraw j o status hget hopen hstatus =>
    exact Or.inl (hmodify (fun o _ => by constructor <;> rfl) ho')
  | fill j o x p now hget hkind hopen =>
    exact Or.inl (hmodify (fun o _ => Order.applyFill_sameTerms ..) ho')
  | refresh parentId o hget hkind =>
    rw [get?_syncChildSizes] at ho'
    obtain ⟨child, hchild, rfl⟩ := Option.map_eq_some_iff.mp ho'
    refine Or.inl ⟨child, hchild, ?_⟩
    split_ifs
    · exact Order.resized_terms _ _
    · exact .refl child
  | create parentId o spec now hget hkind hnone hfill =>
    rcases createBrackets_cases spec now hget ho' with ⟨hid, hnew⟩ | ⟨rfl, rfl⟩ | ⟨_, hold⟩
    · exact Or.inr (Or.inr ⟨parentId, o, s.nextId, hget, hkind, hnew,
        createBrackets_direction spec now hget hid ho'⟩)
    · exact Or.inl ⟨o, hget, by constructor <;> rfl⟩
    · exact Or.inl ⟨o', hold, .refl o'⟩
  | trigger data now j o hget hkind harmed =>
    rw [get?_triggerChild hget] at ho'
    obtain ⟨x, hx, rfl⟩ := Option.map_eq_some_iff.mp ho'
    split_ifs at hx with hid
    · rw [← Option.some.inj hx, hid]
      exact Or.inl ⟨o, hget, (Order.applyFill_sameTerms ..).trans (besideTriggered_terms ..)⟩
    · exact Or.inl ⟨x, hx, besideTriggered_terms ..⟩

lemma Effects.follows (h : Effects cfg s s') : s.Follows s' := by
  induction h with
  | refl => exact .refl s
  | tail _ hstep ih => exact ih.trans hstep.follows

/-! ### The invariant -/

/-- `o`, with the id `c`, is a bracket child of `entry`, with the id `e`. -/
structure Order.ChildOf (e : OrderId) (entry : Order) (c : OrderId) (o : Order) : Prop where
  entry_kind : entry.orderKind = .entry
  entry_filled : 0 < entry.filledSizeUsdc
  parentOrderId : o.parentOrderId = some e
  group : ∃ g, o.ocoGroupId = some g ∧ entry.bracketOrderIds = [g + 1, g + 2] ∧
    (c = g + 1 ∨ c = g + 2)
  status : o.status ≠ .placed ∧ o.status ≠ .partiallyFilled
  unfilled : o.status ≠ .filled → o.filledSizeUsdc = 0
  filled_le : o.filledSizeUsdc ≤ entry.filledSizeUsdc

/-- A child that neither waits nor is filled is out. -/
lemma Order.ChildOf.out {e c : OrderId} {entry o : Order} (h : Order.ChildOf e entry c o)
    (harmed : o.status ≠ .armed) (hfilled : o.status ≠ .filled) :
    o.status = .cancelled ∨ o.status = .expired := by
  cases hst : o.status with
  | placed => exact absurd hst h.status.1
  | partiallyFilled => exact absurd hst h.status.2
  | armed => exact absurd hst harmed
  | filled => exact absurd hst hfilled
  | cancelled => exact Or.inl rfl
  | expired => exact Or.inr rfl

/-- How entries and children hang together, and children with each other. -/
structure Executor.Bracketed (s : Executor) : Prop where
  accounted : s.Accounted
  keyed : ∀ id o, s.orders.get? id = some o → o.orderId = id
  root : ∀ id o, s.orders.get? id = some o → o.orderKind.isBracket = false →
    o.parentOrderId = none ∧ o.ocoGroupId = none
  child : ∀ c o, s.orders.get? c = some o → o.orderKind.isBracket = true →
    ∃ e entry, s.orders.get? e = some entry ∧ Order.ChildOf e entry c o
  listed : ∀ e entry c, s.orders.get? e = some entry → c ∈ entry.bracketOrderIds →
    ∃ o, s.orders.get? c = some o ∧ o.orderKind.isBracket = true ∧ o.parentOrderId = some e
  sized : ∀ c o e entry, s.orders.get? c = some o → o.status = .armed →
    o.parentOrderId = some e → s.orders.get? e = some entry →
    OnGrid 8 o.sizeUsdc ∧ 0 < o.sizeUsdc ∧ o.sizeUsdc ≤ entry.filledSizeUsdc
  exclusive : ∀ c o c' o', s.orders.get? c = some o → s.orders.get? c' = some o' → c ≠ c' →
    o.ocoGroupId.isSome = true → o'.ocoGroupId = o.ocoGroupId → o.status = .filled →
    o'.status = .cancelled ∨ o'.status = .expired

namespace Executor.Bracketed

lemma isBracket_of_group (hs : s.Bracketed) {c : OrderId} {o : Order}
    (hget : s.orders.get? c = some o) (hgroup : o.ocoGroupId.isSome = true) :
    o.orderKind.isBracket = true := by
  by_contra hkind
  rw [(hs.root c o hget (by simpa using hkind)).2] at hgroup
  cases hgroup

lemma isBracket_of_parent (hs : s.Bracketed) {c e : OrderId} {o : Order}
    (hget : s.orders.get? c = some o) (hparent : o.parentOrderId = some e) :
    o.orderKind.isBracket = true := by
  by_contra hkind
  rw [(hs.root c o hget (by simpa using hkind)).1] at hparent
  cases hparent

/-- An armed child has no filled sibling: that fill would have withdrawn it. -/
lemma ne_filled_of_armed (hs : s.Bracketed) {c c' : OrderId} {o o' : Order}
    (hget : s.orders.get? c = some o) (hget' : s.orders.get? c' = some o') (hne : c ≠ c')
    (hgroup : o.ocoGroupId.isSome = true) (hsame : o'.ocoGroupId = o.ocoGroupId)
    (harmed : o'.status = .armed) : o.status ≠ .filled := by
  intro hfilled
  have hout := hs.exclusive c o c' o' hget hget' hne hgroup hsame hfilled
  rw [harmed] at hout
  rcases hout with h | h <;> cases h

/-- A child with its parent, given by id. -/
lemma childOf (hs : s.Bracketed) {c e : OrderId} {o : Order} (hget : s.orders.get? c = some o)
    (hparent : o.parentOrderId = some e) :
    ∃ entry, s.orders.get? e = some entry ∧ Order.ChildOf e entry c o := by
  obtain ⟨e', entry, hentry, hchild⟩ := hs.child c o hget (hs.isBracket_of_parent hget hparent)
  have he : e' = e := Option.some.inj (hchild.parentOrderId.symm.trans hparent)
  exact ⟨entry, he ▸ hentry, he ▸ hchild⟩

end Executor.Bracketed

/-- An order after an effect. A child is left alone, withdrawn, or filled when it was armed. -/
structure Order.Evolved (o o' : Order) : Prop where
  terms : Order.SameTerms o o'
  bracketOrderIds : o'.bracketOrderIds = o.bracketOrderIds
  filled_mono : o.filledSizeUsdc ≤ o'.filledSizeUsdc
  child : o.orderKind.isBracket = true →
    (o'.filledSizeUsdc = o.filledSizeUsdc ∧ (o'.status = o.status ∨
      o.status.isFinal = false ∧ (o'.status = .cancelled ∨ o'.status = .expired))) ∨
    (o.status = .armed ∧ o'.status = .filled ∧ o'.filledSizeUsdc = o.sizeUsdc)

/-- Every order evolves, and none comes or goes. -/
def Executor.Evolved (s s' : Executor) : Prop :=
  ∀ id, Option.Rel Order.Evolved (s.orders.get? id) (s'.orders.get? id)

namespace Executor.Evolved

lemma source (h : s.Evolved s') {id : OrderId} {o' : Order} (hget : s'.orders.get? id = some o') :
    ∃ o, s.orders.get? id = some o ∧ Order.Evolved o o' := by
  have hid := h id
  rw [hget] at hid
  cases ho : s.orders.get? id with
  | none =>
    rw [ho] at hid
    cases hid
  | some o =>
    rw [ho] at hid
    cases hid with
    | some hrel => exact ⟨o, rfl, hrel⟩

lemma target (h : s.Evolved s') {id : OrderId} {o : Order} (hget : s.orders.get? id = some o) :
    ∃ o', s'.orders.get? id = some o' ∧ Order.Evolved o o' := by
  have hid := h id
  rw [hget] at hid
  cases ho : s'.orders.get? id with
  | none =>
    rw [ho] at hid
    cases hid
  | some o' =>
    rw [ho] at hid
    cases hid with
    | some hrel => exact ⟨o', rfl, hrel⟩

/-- When every order of `s'` is the old one after `f`. -/
lemma of_map {f : OrderId → Order → Order}
    (hget : ∀ id, s'.orders.get? id = (s.orders.get? id).map (f id))
    (hf : ∀ id o, s.orders.get? id = some o → Order.Evolved o (f id o)) : s.Evolved s' := by
  intro id
  rw [hget]
  cases ho : s.orders.get? id with
  | none => exact .none
  | some o => exact .some (hf id o ho)

end Executor.Evolved

lemma Order.Evolved.refl (o : Order) : Order.Evolved o o :=
  ⟨.refl o, rfl, le_rfl, fun _ => Or.inl ⟨rfl, Or.inl rfl⟩⟩

/-- A child stays a child; an armed one that fires is filled with its size. -/
lemma Order.ChildOf.evolved {e c : OrderId} {entry entry' o o' : Order}
    (h : Order.ChildOf e entry c o) (hentry : Order.Evolved entry entry')
    (ho : Order.Evolved o o') (hkind : o.orderKind.isBracket = true)
    (hsize : o.status = .armed → o.sizeUsdc ≤ entry.filledSizeUsdc) :
    Order.ChildOf e entry' c o' := by
  obtain ⟨g, hgroup, hids, hc⟩ := h.group
  refine
    { entry_kind := hentry.terms.orderKind.trans h.entry_kind
      entry_filled := h.entry_filled.trans_le hentry.filled_mono
      parentOrderId := ho.terms.parentOrderId.trans h.parentOrderId
      group := ⟨g, ho.terms.ocoGroupId.trans hgroup, hentry.bracketOrderIds.trans hids, hc⟩
      status := ?_
      unfilled := ?_
      filled_le := ?_ }
  · rcases ho.child hkind with ⟨_, hst | ⟨_, hst | hst⟩⟩ | ⟨_, hst, _⟩
    · rw [hst]
      exact h.status
    all_goals
      rw [hst]
      exact ⟨fun hne => (by cases hne), fun hne => by cases hne⟩
  · rcases ho.child hkind with ⟨hfill, hst | ⟨hopen, _⟩⟩ | ⟨_, hst, _⟩
    · rw [hst, hfill]
      exact h.unfilled
    · rw [hfill]
      refine fun _ => h.unfilled fun hfilled => ?_
      rw [hfilled] at hopen
      cases hopen
    · exact fun hne => absurd hst hne
  · refine le_trans ?_ hentry.filled_mono
    rcases ho.child hkind with ⟨hfill, _⟩ | ⟨harmed, _, hfill⟩
    · rw [hfill]
      exact h.filled_le
    · rw [hfill]
      exact hsize harmed

/-- The invariant is kept when every order evolves, the armed children stay sized to their
parent and the exclusion is respected. -/
lemma Executor.Bracketed.of_evolved (hs : s.Bracketed) (h : s.Evolved s') (hacc : s'.Accounted)
    (hsized : ∀ c o e entry, s'.orders.get? c = some o → o.status = .armed →
      o.parentOrderId = some e → s'.orders.get? e = some entry →
      OnGrid 8 o.sizeUsdc ∧ 0 < o.sizeUsdc ∧ o.sizeUsdc ≤ entry.filledSizeUsdc)
    (hexclusive : ∀ c o c' o', s'.orders.get? c = some o → s'.orders.get? c' = some o' → c ≠ c' →
      o.ocoGroupId.isSome = true → o'.ocoGroupId = o.ocoGroupId → o.status = .filled →
      o'.status = .cancelled ∨ o'.status = .expired) : s'.Bracketed where
  accounted := hacc
  keyed id o' ho' := by
    obtain ⟨o, ho, hrel⟩ := h.source ho'
    exact hrel.terms.orderId.trans (hs.keyed id o ho)
  root id o' ho' hkind := by
    obtain ⟨o, ho, hrel⟩ := h.source ho'
    rw [hrel.terms.orderKind] at hkind
    rw [hrel.terms.parentOrderId, hrel.terms.ocoGroupId]
    exact hs.root id o ho hkind
  child c o' ho' hkind := by
    obtain ⟨o, ho, hrel⟩ := h.source ho'
    rw [hrel.terms.orderKind] at hkind
    obtain ⟨e, entry, hentry, hchild⟩ := hs.child c o ho hkind
    obtain ⟨entry', hentry', hrel'⟩ := h.target hentry
    refine ⟨e, entry', hentry', hchild.evolved hrel' hrel hkind fun harmed => ?_⟩
    exact (hs.sized c o e entry ho harmed hchild.parentOrderId hentry).2.2
  listed e entry' c hentry' hc := by
    obtain ⟨entry, hentry, hrel⟩ := h.source hentry'
    rw [hrel.bracketOrderIds] at hc
    obtain ⟨o, ho, hkind, hparent⟩ := hs.listed e entry c hentry hc
    obtain ⟨o', ho', hrel'⟩ := h.target ho
    exact ⟨o', ho', hrel'.terms.orderKind ▸ hkind, hrel'.terms.parentOrderId.trans hparent⟩
  sized := hsized
  exclusive := hexclusive

/-- The exclusion is respected when no child fires. -/
lemma Executor.Bracketed.exclusive_of_evolved (hs : s.Bracketed) (h : s.Evolved s')
    (hquiet : ∀ c o o', s.orders.get? c = some o → s'.orders.get? c = some o' →
      o'.status = .filled → o.orderKind.isBracket = true → o.status = .filled)
    (c : OrderId) (o : Order) (c' : OrderId) (o' : Order) (hget : s'.orders.get? c = some o)
    (hget' : s'.orders.get? c' = some o') (hne : c ≠ c') (hgroup : o.ocoGroupId.isSome = true)
    (hsame : o'.ocoGroupId = o.ocoGroupId) (hfilled : o.status = .filled) :
    o'.status = .cancelled ∨ o'.status = .expired := by
  obtain ⟨x, hx, hrel⟩ := h.source hget
  obtain ⟨x', hx', hrel'⟩ := h.source hget'
  rw [hrel.terms.ocoGroupId] at hgroup hsame
  rw [hrel'.terms.ocoGroupId] at hsame
  have hfilled' := hquiet c x o hx hget hfilled (hs.isBracket_of_group hx hgroup)
  have hout := hs.exclusive c x c' x' hx hx' hne hgroup hsame hfilled'
  rcases hrel'.child (hs.isBracket_of_group hx' (hsame ▸ hgroup)) with
    ⟨_, hst | ⟨_, hst⟩⟩ | ⟨harmed, _⟩
  · rw [hst]
    exact hout
  · exact hst
  · rw [harmed] at hout
    rcases hout with h | h <;> cases h

/-! ### Every effect keeps the invariant -/

lemma Executor.Bracketed.of_orders_eq (hs : s.Bracketed) (h : s'.orders = s.orders) :
    s'.Bracketed := by
  obtain ⟨hacc, hkeyed, hroot, hchild, hlisted, hsized, hexclusive⟩ := hs
  unfold Accounted at hacc
  rw [← h] at hacc hkeyed hroot hchild hlisted hsized hexclusive
  exact ⟨hacc, hkeyed, hroot, hchild, hlisted, hsized, hexclusive⟩

/-- An assignment to one order that neither resizes nor fires a child. -/
lemma Executor.Bracketed.modifyOrder (hs : s.Bracketed) {id : OrderId} {f : Order → Order}
    (hacc : (s.modifyOrder id f).Accounted)
    (hf : ∀ o, s.orders.get? id = some o → Order.Evolved o (f o) ∧
      (o.orderKind.isBracket = true → (f o).sizeUsdc = o.sizeUsdc ∧
        ((f o).status = .filled → o.status = .filled))) :
    (s.modifyOrder id f).Bracketed := by
  have hev : s.Evolved (s.modifyOrder id f) := by
    refine .of_map (f := fun j o => if j = id then f o else o) (fun j => ?_) fun j o ho => ?_
    · rw [get?_modifyOrder]
      split_ifs with hj
      · rw [hj]
      · rw [Option.map_id']
    · split_ifs with hj
      · exact (hf o (hj ▸ ho)).1
      · exact .refl o
  have hquiet : ∀ c o o', s.orders.get? c = some o → (s.modifyOrder id f).orders.get? c = some o' →
      o.orderKind.isBracket = true →
      o'.sizeUsdc = o.sizeUsdc ∧ (o'.status = .filled → o.status = .filled) := by
    intro c o o' ho ho' hkind
    rw [get?_modifyOrder] at ho'
    split_ifs at ho' with hc
    · subst hc
      rw [ho, Option.map_some, Option.some.injEq] at ho'
      subst ho'
      exact (hf o ho).2 hkind
    · rw [ho, Option.some.injEq] at ho'
      subst ho'
      exact ⟨rfl, fun h => h⟩
  refine hs.of_evolved hev hacc ?_ (hs.exclusive_of_evolved hev fun c o o' ho ho' hfilled hkind =>
    (hquiet c o o' ho ho' hkind).2 hfilled)
  intro c o' e entry' ho' harmed hparent hentry'
  obtain ⟨o, ho, hrel⟩ := hev.source ho'
  obtain ⟨entry, hentry, hrel'⟩ := hev.source hentry'
  rw [hrel.terms.parentOrderId] at hparent
  have hkind := hs.isBracket_of_parent ho hparent
  have harmed' : o.status = .armed := by
    rcases hrel.child hkind with ⟨_, hst | ⟨_, hst | hst⟩⟩ | ⟨_, hst, _⟩
    · exact hst ▸ harmed
    all_goals
      rw [hst] at harmed
      cases harmed
  obtain ⟨hgrid, hpos, hle⟩ := hs.sized c o e entry ho harmed' hparent hentry
  rw [(hquiet c o o' ho ho' hkind).1]
  exact ⟨hgrid, hpos, hle.trans hrel'.filled_mono⟩

/-- A new entry or exit belongs to no bracket. -/
lemma Executor.Bracketed.insertOrder (hs : s.Bracketed) {mk : OrderId → Order}
    (hnew : ∀ id, (mk id).New id) (hacc : (s.insertOrder mk).Accounted) :
    (s.insertOrder mk).Bracketed := by
  have hold : ∀ id o, (s.insertOrder mk).orders.get? id = some o →
      (id = s.nextId ∧ o = mk s.nextId) ∨ s.orders.get? id = some o := by
    intro id o ho
    rw [get?_insertOrder] at ho
    split_ifs at ho with hid
    · exact Or.inl ⟨hid, (Option.some.inj ho).symm⟩
    · exact Or.inr ho
  have hnone : (mk s.nextId).parentOrderId = none := (hnew _).parentOrderId
  have hkind : (mk s.nextId).orderKind.isBracket = false := (hnew _).kind
  have hempty : (mk s.nextId).bracketOrderIds = [] := (hnew _).bracketOrderIds
  refine ⟨hacc, ?_, ?_, ?_, ?_, ?_, ?_⟩
  · intro id o ho
    rcases hold id o ho with ⟨rfl, rfl⟩ | ho
    · exact (hnew _).orderId
    · exact hs.keyed id o ho
  · intro id o ho hroot
    rcases hold id o ho with ⟨rfl, rfl⟩ | ho
    · exact ⟨hnone, (hnew _).ocoGroupId⟩
    · exact hs.root id o ho hroot
  · intro c o ho hbracket
    rcases hold c o ho with ⟨rfl, rfl⟩ | ho
    · rw [hkind] at hbracket
      cases hbracket
    · obtain ⟨e, entry, hentry, hchild⟩ := hs.child c o ho hbracket
      exact ⟨e, entry, get?_insertOrder_of_some hentry mk, hchild⟩
  · intro e entry c hentry hc
    rcases hold e entry hentry with ⟨rfl, rfl⟩ | hentry
    · rw [hempty] at hc
      cases hc
    · obtain ⟨o, ho, hchild⟩ := hs.listed e entry c hentry hc
      exact ⟨o, get?_insertOrder_of_some ho mk, hchild⟩
  · intro c o e entry ho harmed hparent hentry
    rcases hold c o ho with ⟨rfl, rfl⟩ | ho
    · rw [hnone] at hparent
      cases hparent
    · obtain ⟨entry', hentry', _⟩ := hs.childOf ho hparent
      rw [get?_insertOrder_of_some hentry' mk, Option.some.injEq] at hentry
      exact hs.sized c o e entry ho harmed hparent (hentry ▸ hentry')
  · intro c o c' o' ho ho' hne hgroup hsame hfilled
    have hgroup' : o'.ocoGroupId.isSome = true := hsame ▸ hgroup
    rcases hold c o ho with ⟨rfl, rfl⟩ | ho
    · rw [(hnew _).ocoGroupId] at hgroup
      cases hgroup
    rcases hold c' o' ho' with ⟨rfl, rfl⟩ | ho'
    · rw [(hnew _).ocoGroupId] at hgroup'
      cases hgroup'
    exact hs.exclusive c o c' o' ho ho' hne hgroup hsame hfilled

/-- What a bracket protects is what the entry has filled, once there is something. -/
lemma Order.activeSize_of_pos {o : Order} (h : 0 < o.filledSizeUsdc) :
    o.activeSize = o.filledSizeUsdc := by
  rw [activeSize, pyOr, if_neg h.ne']

/-- Resizing the children of an entry to what it has filled. -/
lemma Executor.Bracketed.refresh (hs : s.Bracketed) {e : OrderId} {entry : Order}
    (hget : s.orders.get? e = some entry) (hacc : (syncChildSizes entry s).Accounted) :
    (syncChildSizes entry s).Bracketed := by
  have hev : s.Evolved (syncChildSizes entry s) := by
    refine .of_map (get?_syncChildSizes entry s) fun c o ho => ?_
    split_ifs with hc
    · exact ⟨Order.resized_terms _ _, Order.resized_bracketOrderIds _ _,
        (Order.resized_filledSizeUsdc _ _).ge, fun _ =>
          Or.inl ⟨Order.resized_filledSizeUsdc _ _, Or.inl (Order.resized_status _ _)⟩⟩
    · exact .refl o
  refine hs.of_evolved hev hacc ?_ (hs.exclusive_of_evolved hev ?_)
  · intro c o' e' entry' ho' harmed hparent hentry'
    obtain ⟨o, ho, hrel⟩ := hev.source ho'
    obtain ⟨x, hx, hrel'⟩ := hev.source hentry'
    rw [hrel.terms.parentOrderId] at hparent
    rw [get?_syncChildSizes, ho, Option.map_some, Option.some.injEq] at ho'
    subst ho'
    split_ifs at harmed ⊢ with hc
    · -- a listed child: its parent is the entry it is resized to
      obtain ⟨o₁, ho₁, _, hparent₁⟩ := hs.listed e entry c hget hc
      rw [ho, Option.some.injEq] at ho₁
      subst ho₁
      rw [hparent, Option.some.injEq] at hparent₁
      subst hparent₁
      rw [hget, Option.some.injEq] at hx
      subst hx
      rw [Order.resized_status] at harmed
      obtain ⟨entry₁, hentry₁, hchild⟩ := hs.childOf ho hparent
      rw [hget, Option.some.injEq] at hentry₁
      subst hentry₁
      rw [Order.resized, if_pos harmed]
      dsimp only
      rw [Order.activeSize_of_pos hchild.entry_filled]
      exact ⟨(hs.accounted e' entry hget).onGrid, hchild.entry_filled, hrel'.filled_mono⟩
    · obtain ⟨hgrid, hpos, hle⟩ := hs.sized c o e' x ho harmed hparent hx
      exact ⟨hgrid, hpos, hle.trans hrel'.filled_mono⟩
  · intro c o o' ho ho' hfilled _
    rw [get?_syncChildSizes, ho, Option.map_some, Option.some.injEq] at ho'
    subst ho'
    split_ifs at hfilled
    · rwa [Order.resized_status] at hfilled
    · exact hfilled

/-- An entry that lists no children is the parent of none. -/
lemma Executor.Bracketed.childless (hs : s.Bracketed) {e : OrderId} {o : Order}
    (hget : s.orders.get? e = some o) (hnone : o.bracketOrderIds = []) {c : OrderId} {x : Order}
    (hx : s.orders.get? c = some x) : x.parentOrderId ≠ some e := by
  intro hpar
  obtain ⟨entry, hentry, hchild⟩ := hs.childOf hx hpar
  obtain ⟨g, _, hids, _⟩ := hchild.group
  rw [hget, Option.some.injEq] at hentry
  rw [← hentry, hnone] at hids
  cases hids

/-- No order belongs to the group that the next bracket gets. -/
lemma Executor.Bracketed.group_ne (hs : s.Bracketed) {c : OrderId} {x : Order}
    (hx : s.orders.get? c = some x) : x.ocoGroupId ≠ some s.nextId := by
  intro hgroup
  obtain ⟨e, entry, _, hchild⟩ := hs.child c x hx (hs.isBracket_of_group hx (by rw [hgroup]; rfl))
  obtain ⟨g, hg, _, hc⟩ := hchild.group
  obtain ⟨htp, hsl⟩ := Executor.ne_bracketIds hx
  rw [hgroup, Option.some.injEq] at hg
  rw [hg] at htp hsl
  exact absurd hc (not_or.mpr ⟨htp, hsl⟩)

lemma Order.NewChild.childOf {e g id : OrderId} {o x : Order} (hx : o.NewChild g id x)
    (hkind : o.orderKind = .entry) (hpos : 0 < o.filledSizeUsdc) (hkey : o.orderId = e)
    (hid : id = g + 1 ∨ id = g + 2) : Order.ChildOf e (o.withBracket g) id x where
  entry_kind := hkind
  entry_filled := hpos
  parentOrderId := hkey ▸ hx.parentOrderId
  group := ⟨g, hx.ocoGroupId, rfl, hid⟩
  status := by
    rw [hx.status]
    exact ⟨fun h => (by cases h), fun h => by cases h⟩
  unfilled _ := hx.filledSizeUsdc
  filled_le := by
    rw [hx.filledSizeUsdc]
    exact hpos.le

/-- The two children of a new bracket are there. -/
lemma createBrackets_listed (spec : BracketSpec) (now : Time) {e : OrderId} {o : Order}
    (hget : s.orders.get? e = some o) {c : OrderId}
    (hc : c ∈ (o.withBracket s.nextId).bracketOrderIds) :
    ∃ x, (createBrackets spec now e o s).2.orders.get? c = some x ∧
      x.orderKind.isBracket = true ∧ x.parentOrderId = some o.orderId := by
  simp only [Order.withBracket, List.mem_cons, List.not_mem_nil, or_false] at hc
  rcases hc with rfl | rfl
  · have hnew := takeProfitOrder_new o spec now s.nextId (s.nextId + 1)
    refine ⟨_, ?_, hnew.kind, hnew.parentOrderId⟩
    rw [get?_createBrackets spec now hget, if_neg (by simp), if_pos rfl]
  · have hnew := stopLossOrder_new o spec now s.nextId (s.nextId + 2)
    refine ⟨_, ?_, hnew.kind, hnew.parentOrderId⟩
    rw [get?_createBrackets spec now hget, if_pos rfl]

/-- A new bracket: its children are armed with what the entry has filled. -/
lemma Executor.Bracketed.create (hs : s.Bracketed) (spec : BracketSpec) (now : Time)
    {e : OrderId} {o : Order} (hget : s.orders.get? e = some o) (hkind : o.orderKind = .entry)
    (hnone : o.bracketOrderIds = []) (hpos : 0 < o.filledSizeUsdc)
    (hacc : (createBrackets spec now e o s).2.Accounted) :
    (createBrackets spec now e o s).2.Bracketed := by
  set s' := (createBrackets spec now e o s).2 with hs'
  have hcases : ∀ {id o'}, s'.orders.get? id = some o' → _ := fun {id o'} ho' =>
    createBrackets_cases spec now hget ho'
  have hkey : o.orderId = e := hs.keyed e o hget
  have hroot := hs.root e o hget (by rw [hkind]; rfl)
  have hparent : s'.orders.get? e = some (o.withBracket s.nextId) :=
    get?_createBrackets_self spec now hget
  have hother : ∀ {id x}, s.orders.get? id = some x → id ≠ e → s'.orders.get? id = some x := by
    intro id x hx hne
    rw [hs', get?_createBrackets_of_some spec now hget hx, if_neg hne]
  exact {
    accounted := hacc
    keyed := by
      intro id x hx
      rcases hcases hx with ⟨_, hnew⟩ | ⟨rfl, rfl⟩ | ⟨_, hx⟩
      · exact hnew.orderId
      · exact hkey
      · exact hs.keyed id x hx
    root := by
      intro id x hx hkindx
      rcases hcases hx with ⟨_, hnew⟩ | ⟨rfl, rfl⟩ | ⟨_, hx⟩
      · rw [hnew.kind] at hkindx
        cases hkindx
      · exact hroot
      · exact hs.root id x hx hkindx
    child := by
      intro c x hx hbracket
      rcases hcases hx with ⟨hid, hnew⟩ | ⟨rfl, rfl⟩ | ⟨_, hx⟩
      · exact ⟨e, _, hparent, hnew.childOf hkind hpos hkey hid⟩
      · rw [Order.withBracket, hkind] at hbracket
        cases hbracket
      · obtain ⟨e', entry, hentry, hchild⟩ := hs.child c x hx hbracket
        have hne : e' ≠ e := fun he => hs.childless hget hnone hx (he ▸ hchild.parentOrderId)
        exact ⟨e', entry, hother hentry hne, hchild⟩
    listed := by
      intro e' entry c hentry hc
      rcases hcases hentry with ⟨_, hnew⟩ | ⟨rfl, rfl⟩ | ⟨_, hentry⟩
      · rw [hnew.bracketOrderIds] at hc
        cases hc
      · exact hkey ▸ createBrackets_listed spec now hget hc
      · obtain ⟨x, hx, hbracket, hpar⟩ := hs.listed e' entry c hentry hc
        refine ⟨x, hother hx ?_, hbracket, hpar⟩
        rintro rfl
        rw [hget, Option.some.injEq] at hx
        rw [← hx, hkind] at hbracket
        cases hbracket
    sized := by
      intro c x e' entry hx harmed hpar hentry
      rcases hcases hx with ⟨hid, hnew⟩ | ⟨rfl, rfl⟩ | ⟨_, hx⟩
      · have he' : e' = e := by
          rw [hnew.parentOrderId, hkey, Option.some.injEq] at hpar
          exact hpar.symm
        subst he'
        rw [hparent, Option.some.injEq] at hentry
        subst hentry
        rw [hnew.sizeUsdc, Order.activeSize_of_pos hpos]
        exact ⟨(hs.accounted e' o hget).onGrid, hpos, le_rfl⟩
      · have hpar' : o.parentOrderId = some e' := hpar
        rw [hroot.1] at hpar'
        cases hpar'
      · have hne : e' ≠ e := fun he => hs.childless hget hnone hx (he ▸ hpar)
        obtain ⟨entry', hentry', _⟩ := hs.childOf hx hpar
        rw [hother hentry' hne, Option.some.injEq] at hentry
        exact hs.sized c x e' entry hx harmed hpar (hentry ▸ hentry')
    exclusive := by
      intro c x c' x' hx hx' hne hgroup hsame hfilled
      rcases hcases hx with ⟨_, hnew⟩ | ⟨rfl, rfl⟩ | ⟨_, hx⟩
      · rw [hnew.status] at hfilled
        cases hfilled
      · have hgroup' : o.ocoGroupId.isSome = true := hgroup
        rw [hroot.2] at hgroup'
        cases hgroup'
      · rcases hcases hx' with ⟨_, hnew'⟩ | ⟨rfl, rfl⟩ | ⟨_, hx'⟩
        · exact absurd (hsame.symm.trans hnew'.ocoGroupId) (hs.group_ne hx)
        · have hsame' : o.ocoGroupId = x.ocoGroupId := hsame
          rw [← hsame', hroot.2] at hgroup
          cases hgroup
        · exact hs.exclusive c x c' x' hx hx' hne hgroup hsame hfilled }

/-- A child sized on the grid is filled with its size when it fires. -/
lemma Order.exitFill_of_armed {o : Order} (hacc : o.Accounted) (harmed : o.status = .armed)
    (hgrid : OnGrid 8 o.sizeUsdc) (hpos : 0 < o.sizeUsdc) (data : MarketData) (now : Time) :
    (o.exitFill data now).status = .filled ∧ (o.exitFill data now).filledSizeUsdc = o.sizeUsdc := by
  obtain ⟨hfilled, hremaining⟩ := hacc.untouched (Or.inr harmed)
  have hoffer : pyOr o.remainingSizeUsdc o.sizeUsdc = o.sizeUsdc := by
    rw [hremaining, pyOr, if_neg hpos.ne']
  have haccepted : o.acceptedFill o.sizeUsdc = o.sizeUsdc := by
    rw [acceptedFill, hremaining, min_self]
  have hround : round8 (o.filledSizeUsdc + o.acceptedFill o.sizeUsdc) = o.sizeUsdc := by
    rw [hfilled, haccepted, zero_add]
    exact hgrid.roundTo_eq
  have hrest : o.remainingAfter o.sizeUsdc ≤ dust := by
    rw [remainingAfter, hround, sub_self, max_self, round8, roundTo_zero]
    exact dust_pos.le
  rw [exitFill, hoffer, applyFill_of_pos (haccepted.symm ▸ hpos)]
  exact ⟨if_pos hrest, hround⟩

section Trigger

variable (hs : s.Bracketed) (data : MarketData) (now : Time) {id : OrderId} {o : Order}
  (hget : s.orders.get? id = some o)
include hs hget

/-- The fill of a child that fires. -/
lemma Executor.Bracketed.exitFill (hkind : o.orderKind.isBracket = true)
    (harmed : o.status = .armed) :
    (o.exitFill data now).status = .filled ∧
      (o.exitFill data now).filledSizeUsdc = o.sizeUsdc := by
  obtain ⟨e, entry, hentry, hchild⟩ := hs.child id o hget hkind
  obtain ⟨hgrid, hpos, _⟩ := hs.sized id o e entry hget harmed hchild.parentOrderId hentry
  exact Order.exitFill_of_armed (hs.accounted id o hget) harmed hgrid hpos data now

/-- When a child fires, it is filled, and any other order is left alone or withdrawn. -/
lemma Executor.Bracketed.trigger_evolved (hkind : o.orderKind.isBracket = true)
    (harmed : o.status = .armed) : s.Evolved (triggerChild data now id o s).2 := by
  obtain ⟨hstatus, hsize⟩ := hs.exitFill data now hget hkind harmed
  intro j
  by_cases hj : j = id
  · subst hj
    rw [get?_triggerChild_self hget, hget]
    set filled := o.exitFill data now with hfilled
    have hterms : Order.SameTerms o filled := Order.applyFill_sameTerms ..
    have hfill := (besideTriggered_fill filled j filled).filledSizeUsdc
    refine .some ⟨hterms.trans (besideTriggered_terms ..), ?_, ?_, fun _ => Or.inr ?_⟩
    · rw [besideTriggered_bracketOrderIds, hfilled, Order.exitFill,
        Order.applyFill_bracketOrderIds]
    · rw [hfill]
      exact (hs.accounted j o hget).filled_le_applyFill _ _ _
    · exact ⟨harmed, (besideTriggered_self_status filled j).trans hstatus, hfill.trans hsize⟩
  · rw [get?_triggerChild_ne hget hj]
    cases hx : s.orders.get? j with
    | none => exact .none
    | some x =>
      have hfill := (besideTriggered_fill (o.exitFill data now) j x).filledSizeUsdc
      refine .some ⟨besideTriggered_terms .., besideTriggered_bracketOrderIds .., hfill.ge,
        fun _ => Or.inl ⟨hfill, ?_⟩⟩
      rw [besideTriggered_status]
      split_ifs with hsibling
      · rw [((isOcoSibling_iff _ _).mp hsibling).2.2.2]
        exact Or.inr ⟨rfl, Or.inl rfl⟩
      · exact Or.inl rfl

/-- The child that fires puts the rest of its group out: an armed sibling is cancelled now, any
other one was out before. -/
lemma Executor.Bracketed.trigger_siblings (hkind : o.orderKind.isBracket = true)
    (harmed : o.status = .armed) {j : OrderId} {x : Order} (hx : s.orders.get? j = some x)
    (hj : j ≠ id) (hsame : x.ocoGroupId = o.ocoGroupId) :
    ((o.exitFill data now).besideTriggered j x).status = .cancelled ∨
      ((o.exitFill data now).besideTriggered j x).status = .expired := by
  obtain ⟨_, _, _, hchild⟩ := hs.child id o hget hkind
  have hterms : Order.SameTerms o (o.exitFill data now) := Order.applyFill_sameTerms ..
  have hgroup : o.ocoGroupId.isSome = true := by
    obtain ⟨g, hg, _⟩ := hchild.group
    rw [hg]
    rfl
  have hxgroup : x.ocoGroupId.isSome = true := by
    rw [hsame]
    exact hgroup
  rw [besideTriggered_status]
  split_ifs with hsibling
  · exact Or.inl rfl
  · have hxarmed : x.status ≠ .armed := by
      intro hxarmed
      refine hsibling ((isOcoSibling_iff _ _).mpr ⟨?_, ?_, ?_, hxarmed⟩)
      · rw [hterms.ocoGroupId]
        exact hgroup
      · rw [hterms.ocoGroupId]
        exact hsame
      · rw [hs.keyed j x hx, hterms.orderId, hs.keyed id o hget]
        exact hj
    obtain ⟨_, _, _, hchild'⟩ := hs.child j x hx (hs.isBracket_of_group hx hxgroup)
    exact hchild'.out hxarmed (hs.ne_filled_of_armed hx hget hj hxgroup hsame.symm harmed)

/-- A child fires: it is filled, and its sibling is withdrawn in the same step. -/
lemma Executor.Bracketed.trigger (hkind : o.orderKind.isBracket = true) (harmed : o.status = .armed)
    (hacc : (triggerChild data now id o s).2.Accounted) :
    (triggerChild data now id o s).2.Bracketed := by
  have hev := hs.trigger_evolved data now hget hkind harmed
  obtain ⟨hstatus, _⟩ := hs.exitFill data now hget hkind harmed
  have hterms : Order.SameTerms o (o.exitFill data now) := Order.applyFill_sameTerms ..
  have hother : ∀ {j x'}, j ≠ id → (triggerChild data now id o s).2.orders.get? j = some x' →
      ∃ x, s.orders.get? j = some x ∧ x' = (o.exitFill data now).besideTriggered j x := by
    intro j x' hj hx'
    rw [get?_triggerChild_ne hget hj] at hx'
    obtain ⟨x, hx, rfl⟩ := Option.map_eq_some_iff.mp hx'
    exact ⟨x, hx, rfl⟩
  have hfired : ∀ {x'}, (triggerChild data now id o s).2.orders.get? id = some x' →
      x'.status = .filled ∧ x'.ocoGroupId = o.ocoGroupId := by
    intro x' hx'
    rw [get?_triggerChild_self hget, Option.some.injEq] at hx'
    subst hx'
    exact ⟨(besideTriggered_self_status _ id).trans hstatus,
      (hterms.trans (besideTriggered_terms ..)).ocoGroupId⟩
  refine hs.of_evolved hev hacc ?_ ?_
  · intro c x' e' entry' hx' harmed' hpar hentry'
    by_cases hc : c = id
    · subst hc
      rw [(hfired hx').1] at harmed'
      cases harmed'
    · obtain ⟨x, hx, rfl⟩ := hother hc hx'
      obtain ⟨entry₀, hentry₀, hrel⟩ := hev.source hentry'
      rw [(besideTriggered_terms _ c x).parentOrderId] at hpar
      rw [besideTriggered_status] at harmed'
      split_ifs at harmed'
      obtain ⟨hg, hp, hle⟩ := hs.sized c x e' entry₀ hx harmed' hpar hentry₀
      rw [(besideTriggered_fill _ c x).sizeUsdc]
      exact ⟨hg, hp, hle.trans hrel.filled_mono⟩
  · intro c x₁ c' x₂ hx₁ hx₂ hne hgroup hsame hfill
    by_cases hc : c = id
    · subst hc
      obtain ⟨x, hx, rfl⟩ := hother (Ne.symm hne) hx₂
      rw [(hfired hx₁).2, (besideTriggered_terms _ c' x).ocoGroupId] at hsame
      exact hs.trigger_siblings data now hget hkind harmed hx (Ne.symm hne) hsame
    · obtain ⟨x, hx, rfl⟩ := hother hc hx₁
      rw [(besideTriggered_terms _ c x).ocoGroupId] at hgroup hsame
      rw [besideTriggered_status] at hfill
      split_ifs at hfill
      by_cases hc' : c' = id
      · subst hc'
        rw [(hfired hx₂).2] at hsame
        exact absurd hfill (hs.ne_filled_of_armed hx hget hne hgroup hsame harmed)
      · obtain ⟨x', hx', rfl⟩ := hother hc' hx₂
        rw [(besideTriggered_terms _ c' x').ocoGroupId] at hsame
        have hout := hs.exclusive c x c' x' hx hx' hne hgroup hsame hfill
        rw [besideTriggered_status]
        split_ifs
        · exact Or.inl rfl
        · exact hout

end Trigger

/-- Every effect keeps the invariant. -/
theorem Effect.bracketed (h : Effect cfg s s') (hcfg : cfg.FillsAboveDust) (hs : s.Bracketed) :
    s'.Bracketed := by
  have hacc := (h.conserves hs.accounted).accounted
  cases h with
  | bookkeeping _ horders hid => exact hs.of_orders_eq horders
  | insert mk hnew hpaper => exact hs.insertOrder hnew hacc
  | touch id f htouch =>
    refine hs.modifyOrder hacc fun o ho => ?_
    obtain ⟨hterms, hfill, hstatus, hids⟩ := htouch o ho
    refine ⟨⟨hterms, hids, hfill.filledSizeUsdc.ge, fun _ => ?_⟩, fun _ => ?_⟩
    · exact Or.inl ⟨hfill.filledSizeUsdc, Or.inl hstatus⟩
    · exact ⟨hfill.sizeUsdc, fun h => hstatus ▸ h⟩
  | withdraw id o status hget hopen hstatus =>
    refine hs.modifyOrder hacc fun o' ho' => ?_
    rw [hget, Option.some.injEq] at ho'
    subst ho'
    refine ⟨⟨by constructor <;> rfl, rfl, le_rfl, fun _ => ?_⟩, fun _ => ⟨rfl, ?_⟩⟩
    · exact Or.inl ⟨rfl, Or.inr ⟨hopen, hstatus⟩⟩
    · dsimp only
      rcases hstatus with rfl | rfl <;> exact fun h => by cases h
  | fill id o x p now hget hkind hopen =>
    refine hs.modifyOrder hacc fun o' ho' => ?_
    rw [hget, Option.some.injEq] at ho'
    subst ho'
    have hroot : o.orderKind.isBracket ≠ true := by
      rw [hkind]
      exact Bool.false_ne_true
    refine ⟨⟨Order.applyFill_sameTerms .., Order.applyFill_bracketOrderIds .., ?_, ?_⟩, ?_⟩
    · exact (hs.accounted id o hget).filled_le_applyFill x p now
    · exact fun h => absurd h hroot
    · exact fun h => absurd h hroot
  | refresh parentId o hget hkind => exact hs.refresh hget hacc
  | create parentId o spec now hget hkind hnone hfill =>
    exact hs.create spec now hget hkind hnone (hfill.filled_pos hcfg) hacc
  | trigger data now id o hget hkind harmed => exact hs.trigger data now hget hkind harmed hacc

lemma Effects.bracketed (h : Effects cfg s s') (hcfg : cfg.FillsAboveDust) (hs : s.Bracketed) :
    s'.Bracketed := by
  induction h with
  | refl => exact hs
  | tail _ hstep ih => exact hstep.bracketed hcfg ih

/-! ### Runs -/

lemma Executor.bracketed_init : Executor.init.Bracketed := by
  refine ⟨Executor.accounted_init, ?_, ?_, ?_, ?_, ?_, ?_⟩
  · rintro id o ⟨⟩
  · rintro id o ⟨⟩
  · rintro c o ⟨⟩
  · rintro e entry c ⟨⟩
  · rintro c o e entry ⟨⟩
  · rintro c o c' o' ⟨⟩

lemma Changes.bracketed (h : Changes cfg s s') (hcfg : cfg.FillsAboveDust) (hs : s.Bracketed) :
    s'.Bracketed := by
  induction h with
  | refl => exact hs
  | tail _ hstep ih => exact (hstep.effects ih.accounted).bracketed hcfg ih

lemma Changes.follows (h : Changes cfg s s') (hs : s.Accounted) : s.Follows s' := by
  induction h with
  | refl => exact .refl s
  | tail hpre hstep ih => exact ih.trans (hstep.effects (Changes.conserves hpre hs).accounted).follows

/-- All orders are paper orders, or none is. -/
def Executor.PaperIs (s : Executor) (isPaper : Bool) : Prop :=
  ∀ id o, s.orders.get? id = some o → o.isPaper = isPaper

lemma Effects.paperIs (h : Effects cfg s s') (hs : s.PaperIs cfg.isPaper) :
    s'.PaperIs cfg.isPaper := by
  induction h with
  | refl => exact hs
  | tail _ hstep ih =>
    intro id o' ho'
    rcases hstep.source ho' with ⟨o, ho, hterms⟩ | ⟨_, hpaper⟩ |
      ⟨e, parent, g, hparent, _, hnew, _⟩
    · exact hterms.isPaper.trans (ih id o ho)
    · exact hpaper
    · exact hnew.isPaper.trans (ih e parent hparent)

lemma Changes.paperIs (h : Changes cfg s s') (hacc : s.Accounted) (hs : s.PaperIs cfg.isPaper) :
    s'.PaperIs cfg.isPaper := by
  induction h with
  | refl => exact hs
  | tail hpre hstep ih =>
    exact (hstep.effects (Changes.conserves hpre hacc).accounted).paperIs ih

/-- Whether the orders of a run are paper orders is decided by the settings. -/
theorem runAll_paperIs (cfg : Config) (run : List Invocation) :
    (runAll cfg run).state.PaperIs cfg.isPaper := by
  apply Changes.paperIs (runFrom_changes cfg ⟨.init, []⟩ run) Executor.accounted_init
  rintro id o ⟨⟩

/-- Orders are stored under their own ids. -/
def Executor.Keyed (s : Executor) : Prop := ∀ id o, s.orders.get? id = some o → o.orderId = id

lemma Effects.keyed (h : Effects cfg s s') (hs : s.Keyed) : s'.Keyed := by
  induction h with
  | refl => exact hs
  | tail _ hstep ih =>
    intro id o' ho'
    rcases hstep.source ho' with ⟨o, ho, hterms⟩ | ⟨hnew, _⟩ | ⟨_, _, _, _, _, hnew, _⟩
    · exact hterms.orderId.trans (ih id o ho)
    · exact hnew.orderId
    · exact hnew.orderId

lemma Changes.keyed (h : Changes cfg s s') (hacc : s.Accounted) (hs : s.Keyed) : s'.Keyed := by
  induction h with
  | refl => exact hs
  | tail hpre hstep ih =>
    exact (hstep.effects (Changes.conserves hpre hacc).accounted).keyed ih

theorem runAll_keyed (cfg : Config) (run : List Invocation) : (runAll cfg run).state.Keyed := by
  apply Changes.keyed (runFrom_changes cfg ⟨.init, []⟩ run) Executor.accounted_init
  rintro id o ⟨⟩

/-- Children of one entry are in one group. -/
lemma Order.ChildOf.group_eq {e c c' : OrderId} {entry o o' : Order}
    (h : Order.ChildOf e entry c o) (h' : Order.ChildOf e entry c' o') :
    o.ocoGroupId.isSome = true ∧ o'.ocoGroupId = o.ocoGroupId := by
  obtain ⟨g, hg, hids, _⟩ := h.group
  obtain ⟨g', hg', hids', _⟩ := h'.group
  rw [hids] at hids'
  injection hids' with hhead
  rw [hg, hg', ← Nat.succ_injective hhead]
  exact ⟨rfl, rfl⟩

/-- Of numbers of which at most one is not zero, none above `b`, the sum is not above `b`. -/
lemma sum_le_of_exclusive {l : List ℚ} {b : ℚ} (hpair : l.Pairwise fun x y => x = 0 ∨ y = 0)
    (hle : ∀ x ∈ l, x ≤ b) (hb : 0 ≤ b) : l.sum ≤ b := by
  induction l with
  | nil => exact hb
  | cons x l ih =>
    obtain ⟨hx, hl⟩ := List.pairwise_cons.mp hpair
    by_cases hzero : x = 0
    · rw [List.sum_cons, hzero, zero_add]
      exact ih hl fun y hy => hle y (List.mem_cons_of_mem _ hy)
    · have hrest : l.sum = 0 := List.sum_eq_zero fun y hy => (hx y hy).resolve_left hzero
      rw [List.sum_cons, hrest, add_zero]
      exact hle x List.mem_cons_self

/-- The filled sizes of the children of the entry `e`, added up. -/
def Executor.childrenFilled (s : Executor) (e : OrderId) : ℚ :=
  ((s.orders.values.filter fun o => o.parentOrderId = some e).map (·.filledSizeUsdc)).sum

lemma Executor.Bracketed.childrenFilled_le (hs : s.Bracketed) {e : OrderId} {entry : Order}
    (hentry : s.orders.get? e = some entry) : s.childrenFilled e ≤ entry.filledSizeUsdc := by
  have hchildOf : ∀ {c o}, s.orders.get? c = some o → o.parentOrderId = some e →
      Order.ChildOf e entry c o := by
    intro c o ho hpar
    obtain ⟨entry', hentry', hchild⟩ := hs.childOf ho hpar
    rw [hentry, Option.some.injEq] at hentry'
    exact hentry' ▸ hchild
  refine sum_le_of_exclusive ?_ ?_ (hs.accounted e entry hentry).filled_nonneg
  · rw [List.pairwise_map, List.pairwise_filter]
    refine Dict.pairwise_values fun c c' o o' hne ho ho' hpar hpar' => ?_
    have hchild := hchildOf ho (by simpa using hpar)
    have hchild' := hchildOf ho' (by simpa using hpar')
    by_cases hfilled : o.status = .filled
    · obtain ⟨hgroup, hsame⟩ := hchild.group_eq hchild'
      have hout := hs.exclusive c o c' o' ho ho' hne hgroup hsame hfilled
      refine Or.inr (hchild'.unfilled fun hfilled' => ?_)
      rw [hfilled'] at hout
      rcases hout with h | h <;> cases h
    · exact Or.inl (hchild.unfilled hfilled)
  · intro x hx
    obtain ⟨o, ho, rfl⟩ := List.mem_map.mp hx
    obtain ⟨hmem, hpar⟩ := List.mem_filter.mp ho
    obtain ⟨c, hc⟩ := (Dict.mem_values_iff _ _).mp hmem
    exact (hchildOf hc (by simpa using hpar)).filled_le

/-- One cancels the other and sells no more than was bought: of the children of an entry at most
one is ever filled, the other one is out from that step on, and together they never fill more than
the entry. -/
theorem runAll_one_cancels_other (cfg : Config) (hratio : 1 / 10 ^ 4 ≤ cfg.paperPartialFillRatio)
    (run rest : List Invocation) :
    (∀ e c o c' o', (runAll cfg run).state.orders.get? c = some o →
      o.parentOrderId = some e → o.status = .filled →
      (runAll cfg (run ++ rest)).state.orders.get? c' = some o' →
      o'.parentOrderId = some e → o'.status = .filled → c' = c) ∧
    (∀ c o c' o', (runAll cfg run).state.orders.get? c = some o →
      o.ocoGroupId.isSome = true → o.status = .filled →
      (runAll cfg (run ++ rest)).state.orders.get? c' = some o' →
      o'.ocoGroupId = o.ocoGroupId → c' ≠ c →
      o'.status.isFinal = true ∧ o'.status ≠ .armed ∧ o'.status ≠ .filled) ∧
    ∀ e entry, (runAll cfg run).state.orders.get? e = some entry → entry.orderKind = .entry →
      (runAll cfg run).state.childrenFilled e ≤ entry.filledSizeUsdc := by
  set s := (runAll cfg run).state with hs
  set s' := (runAll cfg (run ++ rest)).state with hs'
  have hbracketed : s.Bracketed :=
    Changes.bracketed (runFrom_changes cfg ⟨.init, []⟩ run) hratio Executor.bracketed_init
  have hchanges : Changes cfg s s' := by
    rw [hs', runAll_append]
    exact runFrom_changes cfg (runAll cfg run) rest
  have hbracketed' : s'.Bracketed := hchanges.bracketed hratio hbracketed
  have hfollows : s.Follows s' := hchanges.follows hbracketed.accounted
  -- a filled child is still there, and still filled
  have hstays : ∀ c o, s.orders.get? c = some o → o.status = .filled →
      ∃ x, s'.orders.get? c = some x ∧ Order.SameTerms o x ∧ x.status = .filled := by
    intro c o ho hfilled
    obtain ⟨x, hx, hterms, hstatus⟩ := hfollows c o ho
    exact ⟨x, hx, hterms, (hstatus (by rw [hfilled]; rfl)).trans hfilled⟩
  refine ⟨?_, ?_, fun e entry hentry _ => hbracketed.childrenFilled_le hentry⟩
  · intro e c o c' o' ho hpar hfilled ho' hpar' hfilled'
    by_contra hne
    obtain ⟨x, hx, hterms, hxfilled⟩ := hstays c o ho hfilled
    obtain ⟨entry, hentry, hchild⟩ := hbracketed'.childOf hx (hterms.parentOrderId.trans hpar)
    obtain ⟨entry', hentry', hchild'⟩ := hbracketed'.childOf ho' hpar'
    rw [hentry, Option.some.injEq] at hentry'
    subst hentry'
    obtain ⟨hgroup, hsame⟩ := hchild.group_eq hchild'
    have hout := hbracketed'.exclusive c x c' o' hx ho' (Ne.symm hne) hgroup hsame hxfilled
    rw [hfilled'] at hout
    rcases hout with h | h <;> cases h
  · intro c o c' o' ho hgroup hfilled ho' hsame hne
    obtain ⟨x, hx, hterms, hxfilled⟩ := hstays c o ho hfilled
    rw [← hterms.ocoGroupId] at hgroup hsame
    rcases hbracketed'.exclusive c x c' o' hx ho' (Ne.symm hne) hgroup hsame hxfilled with
      h | h <;> rw [h] <;> exact ⟨rfl, fun h => (by cases h), fun h => by cases h⟩

/-- A paper entry filled on placement, and a book at which its take-profit fires. -/
def takeProfitRun : List Invocation :=
  [offline (.placeOrder { marketId := "m", direction := .yes, sizeUsdc := 10, price := 1 / 2 }) 0,
    offline (.reconcileOrders fun _ => some { bestBid := some (3 / 5) }) 1]

/-- The theorem at that run: the stop-loss is out, also after one more operation. -/
theorem runAll_one_cancels_other_takeProfit :
    ∃ stopLoss, (runAll {} (takeProfitRun ++ [offline .cancelAllOpenOrders 2])).state.orders.get? 3 =
        some stopLoss ∧
      stopLoss.status.isFinal = true ∧ stopLoss.status ≠ .armed ∧ stopLoss.status ≠ .filled := by
  have hfilled : ((runAll {} takeProfitRun).state.orders.get? 2).any (fun o =>
      o.status = .filled ∧ o.ocoGroupId = some 1) = true := by decide +kernel
  have hsibling : ((runAll {} (takeProfitRun ++ [offline .cancelAllOpenOrders 2])).state.orders.get?
      3).any (fun o => o.ocoGroupId = some 1) = true := by decide +kernel
  obtain ⟨takeProfit, htp, hfacts⟩ := (Option.any_eq_true _ _).mp hfilled
  obtain ⟨stopLoss, hsl, hgroup⟩ := (Option.any_eq_true _ _).mp hsibling
  obtain ⟨hstatus, hgroup₁⟩ := of_decide_eq_true hfacts
  have hgroup₂ : stopLoss.ocoGroupId = some 1 := of_decide_eq_true hgroup
  have h := (runAll_one_cancels_other {} (by norm_num) takeProfitRun
    [offline .cancelAllOpenOrders 2]).2.1 2 takeProfit 3 stopLoss htp (by rw [hgroup₁]; rfl)
    hstatus hsl (hgroup₂.trans hgroup₁.symm) (by decide)
  exact ⟨stopLoss, hsl, h⟩

end PolyCortex
