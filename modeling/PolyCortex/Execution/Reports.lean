import PolyCortex.Execution.ExitEvents

/-!
# What the operations report

The id that a placement returns is new, and a live entry is not filled when it is placed. The orders
that the search for expired orders returns have been withdrawn. What is final is filled no further.
-/

namespace PolyCortex

open Coroutine Relation

variable {cfg : Config} {s s' : Executor} {id : OrderId}

/-! ### What is final is filled no further -/

/-- The orders that are final keep their status and their fill. -/
def Executor.KeepsFinal (s s' : Executor) : Prop :=
  ∀ id o, s.orders.get? id = some o → o.status.isFinal = true →
    ∃ o', s'.orders.get? id = some o' ∧ o'.status = o.status ∧ o'.filledSizeUsdc = o.filledSizeUsdc

namespace Executor.KeepsFinal

lemma refl (s : Executor) : s.KeepsFinal s := fun _ o ho _ => ⟨o, ho, rfl, rfl⟩

lemma trans {s'' : Executor} (h : s.KeepsFinal s') (h' : s'.KeepsFinal s'') : s.KeepsFinal s'' := by
  intro id o ho hfinal
  obtain ⟨o', ho', hstatus, hfilled⟩ := h id o ho hfinal
  obtain ⟨o'', ho'', hstatus', hfilled'⟩ := h' id o' ho' (hstatus ▸ hfinal)
  exact ⟨o'', ho'', hstatus'.trans hstatus, hfilled'.trans hfilled⟩

/-- Only the fill needs to be looked at. -/
lemma of_follows (h : s.Follows s') (hfill : ∀ id o o', s.orders.get? id = some o →
    s'.orders.get? id = some o' → o.status.isFinal = true → o'.filledSizeUsdc = o.filledSizeUsdc) :
    s.KeepsFinal s' := by
  intro id o ho hfinal
  obtain ⟨o', ho', -, hstatus⟩ := h id o ho
  exact ⟨o', ho', hstatus hfinal, hfill id o o' ho ho' hfinal⟩

end Executor.KeepsFinal

lemma Effect.keepsFinal (h : Effect cfg s s') : s.KeepsFinal s' := by
  have hmodify : ∀ {j : OrderId} {f : Order → Order}, (∀ o, s.orders.get? j = some o →
      o.status.isFinal = true → (f o).filledSizeUsdc = o.filledSizeUsdc) →
      ∀ id o o', s.orders.get? id = some o → (s.modifyOrder j f).orders.get? id = some o' →
        o.status.isFinal = true → o'.filledSizeUsdc = o.filledSizeUsdc := by
    intro j f hf id o o' ho ho' hfinal
    rw [Executor.get?_modifyOrder] at ho'
    split_ifs at ho' with hid
    · subst hid
      rw [ho, Option.map_some, Option.some.injEq] at ho'
      exact ho' ▸ hf o ho hfinal
    · rw [Option.some.inj (ho.symm.trans ho')]
  refine .of_follows h.follows ?_
  cases h with
  | bookkeeping _ horders hid =>
    intro id o o' ho ho' _
    rw [horders, ho] at ho'
    rw [Option.some.inj ho']
  | insert mk hnew hpaper =>
    intro id o o' ho ho' _
    rw [Executor.get?_insertOrder_of_some ho mk] at ho'
    rw [Option.some.inj ho']
  | touch j f htouch => exact hmodify fun o ho _ => (htouch o ho).fill.filledSizeUsdc
  | withdraw j x status hget hopen hstatus => exact hmodify fun _ _ _ => rfl
  | fill j x y p now hget hkind hopen =>
    refine hmodify fun o ho hfinal => ?_
    rw [Option.some.inj (ho.symm.trans hget), hopen] at hfinal
    contradiction
  | refresh parentId x hget hkind =>
    intro id o o' ho ho' _
    rw [get?_syncChildSizes, ho, Option.map_some, Option.some.injEq] at ho'
    subst ho'
    split_ifs
    · exact Order.resized_filledSizeUsdc _ _
    · rfl
  | create parentId x spec now hget hkind hnone hfill =>
    intro id o o' ho ho' _
    rw [get?_createBrackets_of_some spec now hget ho] at ho'
    split_ifs at ho' with hid
    · subst hid
      obtain rfl := Option.some.inj (ho.symm.trans hget)
      rw [← Option.some.inj ho']
      rfl
    · rw [Option.some.inj ho']
  | trigger data now j x hget hkind harmed =>
    intro id o o' ho ho' hfinal
    rw [get?_triggerChild hget] at ho'
    split_ifs at ho' with hid
    · subst hid
      rw [Option.some.inj (ho.symm.trans hget), harmed] at hfinal
      contradiction
    · rw [ho, Option.map_some, Option.some.injEq] at ho'
      exact ho' ▸ (besideTriggered_fill _ id o).filledSizeUsdc

lemma Changes.keepsFinal (h : Changes cfg s s') (hacc : s.Accounted) : s.KeepsFinal s' := by
  have heffects : ∀ {s s'}, Effects cfg s s' → s.KeepsFinal s' := by
    intro s s' h
    induction h with
    | refl => exact .refl s
    | tail _ hstep ih => exact ih.trans hstep.keepsFinal
  induction h with
  | refl => exact .refl s
  | tail hpre hstep ih =>
    exact ih.trans (heffects (hstep.effects (Changes.conserves hpre hacc).accounted))

/-! ### Placements -/

/-- The order `id` is there, and is not filled if it is a live one. -/
def Executor.Unfilled (s : Executor) (id : OrderId) : Prop :=
  ∃ o, s.orders.get? id = some o ∧ (o.isPaper = false → o.status ≠ .filled)

/-- A submission returns the id of the entry, which waits for fills. -/
lemma submitEntry_reports {env : Ambient} {req : PlaceRequest} {w : ExecWorld}
    (hget : w.state.orders.get? id = some (buildEntryOrder cfg env req id)) :
    Ends (fun orderId w' => ∀ j, orderId = some j → j = id ∧ w'.state.Unfilled j)
      (submitEntry cfg env req id) w := by
  refine .modifyGet_bind trivial ?_
  split_ifs with hok
  · refine (Inquires.meets (submitChunks_inquires cfg req id) (fun _ _ _ => trivial) _).bind
      fun r w' ⟨hw', _⟩ => ?_
    match r with
    | .ok exchangeIds =>
      refine .modify_bind trivial fun j hj => ?_
      obtain rfl := Option.some.inj hj
      obtain ⟨o, ho, hstatus⟩ : ∃ o,
          (w'.update (acknowledgeEntry cfg req id exchangeIds)).state.orders.get? id = some o ∧
            o.status = .placed := by
        rw [World.update_state, acknowledgeEntry, Executor.get?_modifyOrder_self, hw',
          World.update_state, orders_persistOrderIntent, Executor.orders_takeId, hget]
        exact ⟨_, rfl, by rw [buildEntryOrder_eq]⟩
      exact ⟨rfl, o, ho, fun _ => by simp [hstatus]⟩
    | .error e => exact .modify_bind trivial fun j hj => by cases hj
  · exact .modify_bind trivial fun j hj => by cases hj

/-- What a placement returns is a new order. -/
theorem placeOrder_reports (env : Ambient) (req : PlaceRequest) (w : ExecWorld) :
    Ends (fun orderId w' => ∀ id, orderId = some id → id = w.state.nextId ∧ w'.state.Unfilled id)
      (placeOrder cfg env req) w := by
  have hget := get?_openEntry cfg env req (preflight cfg env req w.state).2
  have hnext := nextId_preflight cfg env req w.state
  refine .modifyGet_bind trivial ?_
  split_ifs with haccepted hpaper
  · refine .modifyGet_bind trivial (.modify_bind trivial fun id hid => ?_)
    obtain rfl := Option.some.inj hid
    have hvalid := (preflight_commands cfg env req w.state).2 haccepted
    obtain ⟨o, ho, hterms, -⟩ := (fillOnPlace_effects hvalid hget).follows _ _ hget
    refine ⟨hnext, o, ho, fun hlive => ?_⟩
    rw [hterms.isPaper, buildEntryOrder_eq, hpaper] at hlive
    contradiction
  · refine .modifyGet_bind trivial ((submitEntry_reports hget).imp fun orderId w' h id hid => ?_)
    obtain ⟨rfl, hunfilled⟩ := h id hid
    exact ⟨hnext, hunfilled⟩
  · intro id hid
    cases hid

/-! ### Expired orders -/

/-- The order `id` has been withdrawn. -/
def Executor.HasWithdrawn (s : Executor) (id : OrderId) : Prop :=
  ∃ o, s.orders.get? id = some o ∧ (o.status = .cancelled ∨ o.status = .expired)

lemma Executor.HasWithdrawn.changes (hs : s.HasWithdrawn id) (hacc : s.Accounted)
    (h : Changes cfg s s') : s'.HasWithdrawn id := by
  obtain ⟨o, hget, hstatus⟩ := hs
  have hfinal : o.status.isFinal = true := by rcases hstatus with h | h <;> rw [h] <;> rfl
  obtain ⟨o', hget', -, hkept⟩ := h.follows hacc id o hget
  exact ⟨o', hget', by rwa [hkept hfinal]⟩

lemma Executor.setStatus_hasWithdrawn {o : Order} (hget : s.orders.get? id = some o)
    {status : OrderStatus} (hstatus : status = .cancelled ∨ status = .expired) :
    (s.setStatus id status).HasWithdrawn id :=
  ⟨{ o with status }, by simp [Executor.setStatus, hget], hstatus⟩

/-- An open order that is cancelled has been withdrawn. -/
lemma cancelOrder_hasWithdrawn {o : Order} {w : ExecWorld} (hget : w.state.orders.get? id = some o)
    (hopen : o.status.isFinal = false) :
    Ends (fun cancelled w' => cancelled = true → w'.state.HasWithdrawn id) (cancelOrder cfg id) w := by
  refine .get_bind trivial ?_
  rw [hget]
  dsimp only
  rw [if_neg (by simp [hopen])]
  split_ifs
  · refine .modify_bind trivial fun _ => ⟨Order.besideCancelled id o id o, ?_, ?_⟩
    · rw [World.update_state, get?_cancelLocally, hget, Option.map_some]
    · simp [Order.besideCancelled]
  · refine (Inquires.meets (cancelOnExchange_inquires id o.exchangeOrderIds) (fun _ _ _ => trivial)
      w).bind fun ok w' hinquire => ?_
    have hw' := hinquire.1
    rw [concludeCancel]
    split_ifs
    · refine .modify_bind trivial fun _ =>
        ⟨{ o with status := .cancelled, bracketState := .cancelled }, ?_, ?_⟩
      · simp [hw', Executor.setBracketState, Executor.setStatus, hget]
      · exact Or.inl rfl
    · intro hfalse
      cases hfalse

/-- What a round of the search for expired orders returns is withdrawn. -/
lemma cancelIfExpired_reports (now : Time) (id : OrderId) (w : ExecWorld) :
    Ends (fun ids w' => ∀ j ∈ ids, w'.state.HasWithdrawn j) (cancelIfExpired cfg now id) w := by
  refine .get_bind trivial ?_
  cases hget : w.state.orders.get? id with
  | none => simp
  | some o =>
    dsimp only
    split_ifs with hopen harmed hexpired hage
    · refine .modify_bind trivial fun j hj => ?_
      rw [List.mem_singleton.mp hj]
      exact w.state.setStatus_hasWithdrawn hget (Or.inr rfl)
    · simp
    · have hfinal : o.status.isFinal = false := by
        cases hstatus : o.status <;> simp_all [OrderStatus.isOpen, OrderStatus.isFinal]
      refine (cancelOrder_hasWithdrawn hget hfinal).bind fun cancelled w' h => ?_
      split_ifs with hcancelled
      · intro j hj
        rw [List.mem_singleton.mp hj]
        exact h hcancelled
      · simp
    · simp
    · simp

/-- What the search for expired orders returns is withdrawn. -/
theorem cancelExpiredOrders_reports (now : Time) {w : ExecWorld} (hacc : w.state.Accounted) :
    Ends (fun ids w' => ∀ id ∈ ids, w'.state.HasWithdrawn id) (cancelExpiredOrders cfg now) w := by
  refine .get_bind trivial ((Meets.forEach_kept (T := fun w₁ w₂ => Changes cfg w₁.state w₂.state)
    (P := fun (id : OrderId) w₁ => w₁.state.HasWithdrawn id) .trans ?_ ?_ .refl
    fun _ => .refl).imp fun _ _ h => h.2)
  · exact fun h₁ h₂ h => h.changes (h₁.conserves hacc).accounted h₂
  · intro id _ w₁ h₁
    have hchanges : ByChanges cfg (fun _ _ => True) (cancelIfExpired cfg now id) w₁ :=
      (byRoutines_of_byCancels (cancelIfExpired_byCancels now id)).byCommands.byChanges
    refine ((hchanges.reaches (fun _ => .refl) .trans).and (cancelIfExpired_reports now id w₁)).imp ?_
    exact fun ids w₂ h => ⟨h.1.2, h.2⟩

end PolyCortex
