import PolyCortex.Execution.Evidence
import PolyCortex.Execution.FamilySteps

/-!
# The events of filled exits

A pass reports a filled exit once: the child was armed before the pass and is filled after it
(`reconcileOrders_exits`), and a child that is filled is not looked at again.
-/

namespace PolyCortex

open Coroutine Relation

variable {cfg : Config} {s s' : Executor} {id : OrderId} {books : MarketBooks} {now : Time}

/-- The bracket child `id` has been filled. -/
def Executor.HasExited (s : Executor) (id : OrderId) : Prop :=
  ∃ o, s.orders.get? id = some o ∧ o.orderKind.isBracket = true ∧ o.status = .filled

lemma Executor.HasExited.changes (hs : s.HasExited id) (hacc : s.Accounted)
    (h : Changes cfg s s') : s'.HasExited id := by
  obtain ⟨o, hget, hkind, hfilled⟩ := hs
  obtain ⟨o', hget', hterms, hfinal⟩ := h.follows hacc id o hget
  refine ⟨o', hget', hterms.orderKind ▸ hkind, ?_⟩
  rw [hfinal (by rw [hfilled]; rfl), hfilled]

/-- The event says that the bracket child `id` was filled. -/
def OrderLifecycleEvent.Exits (event : OrderLifecycleEvent) (id : OrderId) : Prop :=
  event.eventType = .exitFilled ∧ event.orderSnapshot = id

/-- What the events of a pass say of filled exits, the orders being in the state `s₀` before it. -/
def ExitsSince (s₀ : Executor) (events : List OrderLifecycleEvent) (w : ExecWorld) : Prop :=
  ∀ event ∈ events, ∀ id, event.Exits id → w.state.HasExited id ∧ ¬ s₀.HasExited id

lemma NoExits.exitsSince {events : List OrderLifecycleEvent} (h : NoExits events) (s₀ : Executor)
    (w : ExecWorld) : ExitsSince s₀ events w :=
  fun event hevent _ hexits => absurd hexits.1 (h event hevent)

/-! ### One round -/

lemma reconcilePaperEntry_noExits (data : MarketData) (o : Order) :
    NoExits (reconcilePaperEntry cfg data now id o s).1 := by
  have hfill : ∀ (filled : Order) message price size,
      NoExits [entryFillEvent filled message price size] := by
    intro filled message price size
    simp only [NoExits, entryFillEvent, List.mem_singleton, forall_eq]
    split_ifs <;> simp
  rw [reconcilePaperEntry]
  dsimp only
  split_ifs
  · exact NoExits.append (hfill _ _ _ _) (armDefaultBrackets_noExits cfg now id _)
  · exact hfill _ _ _ _
  · simp [NoExits]

/-- A round of an entry reports no exit. -/
lemma reconcileEntry_noExits (books : MarketBooks) (now : Time) (id : OrderId) (o : Order)
    (w : ExecWorld) :
    Ends (fun events _ => NoExits events) (reconcileEntry cfg books now id o) w := by
  have hdeferred : ∀ {events} {w' : ExecWorld}, NoExits events →
      Ends (fun events _ => NoExits events)
        ((modifyGet (armDeferred cfg now id)).bind fun armed => .pure (events ++ armed)) w' :=
    fun hevents => .modifyGet_bind trivial (hevents.append (armDeferred_noExits _ _ _ _))
  rw [reconcileEntry]
  split_ifs
  · refine Meets.bind (Q := fun events _ => NoExits events) ?_ fun events w' h => hdeferred h
    refine (fetchStatusRows_meets id _ w).bind fun rows w' _ => ?_
    exact ⟨trivial, applyStatusRows_noExits _ _ _ _ _⟩
  · cases books o.marketId with
    | none => simp [NoExits]
    | some data => exact .modifyGet_bind trivial (hdeferred (reconcilePaperEntry_noExits data o))
  · exact ⟨trivial, armDeferred_noExits _ _ _ _⟩

/-- The exit a child reports is its own, and it is filled then. -/
lemma reconcileChild_hasExited {data : MarketData} {o : Order} (hkeyed : s.Keyed)
    (hacc : s.Accounted) (hwhole : s.ChildrenWhole) (hget : s.orders.get? id = some o)
    (hkind : o.orderKind.isBracket = true) {event : OrderLifecycleEvent}
    (hevent : event ∈ (reconcileChild data now id o s).1) {j : OrderId} (hexits : event.Exits j) :
    j = id ∧ o.status = .armed ∧ (reconcileChild data now id o s).2.HasExited id := by
  rw [reconcileChild] at hevent ⊢
  split_ifs at hevent ⊢ with harmed hexpired htrigger
  · cases hevent
  · rw [expireChild, List.mem_singleton] at hevent
    subst hevent
    cases hexits.1
  · rw [not_not] at harmed
    have hfill : Order.SameTerms o (o.exitFill data now) := o.applyFill_sameTerms _ _ _
    simp only [triggerChild, List.mem_append, List.mem_singleton] at hevent
    rcases hevent with hsibling | rfl
    · simp only [cancelSiblings, List.mem_map] at hsibling
      obtain ⟨_, _, rfl⟩ := hsibling
      cases hexits.1
    · have hafter : (triggerChild data now id o s).2.orders.get? id =
          some ((o.exitFill data now).besideTriggered id (o.exitFill data now)) :=
        get?_triggerChild_self hget
      refine ⟨?_, harmed, _, hafter, ?_, ?_⟩
      · rw [← hexits.2, exitFilledEvent, hfill.orderId, hkeyed id o hget]
      · rw [(besideTriggered_terms _ id _).orderKind, hfill.orderKind]
        exact hkind
      · rw [besideTriggered_self_status]
        exact ((hwhole id o hget hkind).ready (hacc id o hget)).exitFill_status harmed data now
  · cases hevent

/-- What a round reports. -/
lemma reconcileOrder_exits (books : MarketBooks) (now : Time) (id : OrderId) {w : ExecWorld}
    (hkeyed : w.state.Keyed) (hacc : w.state.Accounted) (hwhole : w.state.ChildrenWhole) :
    Ends (ExitsSince w.state) (reconcileOrder cfg books now id) w := by
  have hnone : ExitsSince w.state [] w := fun event hevent => by cases hevent
  apply Meets.get_bind trivial
  cases hget : w.state.orders.get? id with
  | none => exact hnone
  | some o =>
    have hchild : o.orderKind.isBracket = true → ∀ data,
        Ends (ExitsSince w.state) (modifyGet (reconcileChild data now id o)) w := by
      intro hkind data
      refine ⟨trivial, fun event hevent j hexits => ?_⟩
      obtain ⟨rfl, harmed, hexited⟩ :=
        reconcileChild_hasExited hkeyed hacc hwhole hget hkind hevent hexits
      refine ⟨hexited, fun ⟨o', hget', _, hfilled⟩ => ?_⟩
      obtain rfl := Option.some.inj (hget.symm.trans hget')
      rw [harmed] at hfilled
      contradiction
    dsimp only
    cases hkind : o.orderKind with
    | exit => exact hnone
    | entry =>
      dsimp only
      split_ifs
      · exact hnone
      · exact (reconcileEntry_noExits books now id o w).imp fun events w' h =>
          h.exitsSince w.state w'
    | takeProfit =>
      dsimp only
      cases books o.marketId with
      | none => exact hnone
      | some data => exact hchild (by rw [hkind]; rfl) data
    | stopLoss =>
      dsimp only
      cases books o.marketId with
      | none => exact hnone
      | some data => exact hchild (by rw [hkind]; rfl) data

/-! ### A pass -/

/-- The exits a pass reports were armed before it, and are filled after it. -/
theorem reconcileOrders_exits (books : MarketBooks) (now : Time) {w : ExecWorld}
    (hkeyed : w.state.Keyed) (hacc : w.state.Accounted) (hwhole : w.state.ChildrenWhole) :
    Ends (ExitsSince w.state) (reconcileOrders cfg books now) w := by
  refine .get_bind trivial ((Meets.forEach_kept (T := fun w₁ w₂ => Changes cfg w₁.state w₂.state)
    (P := fun (event : OrderLifecycleEvent) w₁ =>
      ∀ id, event.Exits id → w₁.state.HasExited id ∧ ¬ w.state.HasExited id)
    .trans ?_ ?_ .refl fun _ => .refl).imp fun _ _ h => h.2)
  · intro event w₁ w₂ h₁ h₂ hevent id hexits
    obtain ⟨hexited, hnew⟩ := hevent id hexits
    exact ⟨hexited.changes (h₁.conserves hacc).accounted h₂, hnew⟩
  · intro id _ w₁ h₁
    have hchanges : ByChanges cfg (fun _ _ => True) (reconcileOrder cfg books now id) w₁ :=
      reconcileOrder_byChanges books now id
    refine ((hchanges.reaches (fun _ => .refl) .trans).and (reconcileOrder_exits books now id
      (h₁.keyed hacc hkeyed) (h₁.conserves hacc).accounted (h₁.childrenWhole hacc hwhole))).imp ?_
    rintro events w₂ ⟨⟨-, h₂⟩, hexits⟩
    refine ⟨h₂, fun event hevent j hj => ?_⟩
    obtain ⟨hexited, hnew⟩ := hexits event hevent j hj
    exact ⟨hexited, fun hold => hnew (hold.changes hacc h₁)⟩

end PolyCortex
