import PolyCortex.Execution.FamilyPasses

/-!
# What a withdrawal leaves open

`cancel_all_open_orders` cancels whatever is open, bracket children as well: what it leaves open are
live entries of which the exchange did not confirm the cancellation. Next to tasks that open nothing,
and with an exchange that confirms, it leaves nothing open.
-/

namespace PolyCortex

open Coroutine Relation

variable {cfg : Config}

/-- An order that was at most closed. -/
structure Order.Subsides (o o' : Order) : Prop where
  orderKind : o'.orderKind = o.orderKind
  isPaper : o'.isPaper = o.isPaper
  stays : o'.status.isOpen = true → o'.status = o.status

/-- No order is new, and none was opened. -/
def Executor.Subsides (s s' : Executor) : Prop :=
  ∀ id o', s'.orders.get? id = some o' → ∃ o, s.orders.get? id = some o ∧ o.Subsides o'

/-- Only the exchange can cancel the order. -/
def Order.NeedsExchange (cfg : Config) (o : Order) : Prop :=
  o.isPaper = false ∧ cfg.clobConnected = true ∧ o.orderKind = .entry

instance (o o' : Order) : Decidable (o.Subsides o') :=
  decidable_of_iff (o'.orderKind = o.orderKind ∧ o'.isPaper = o.isPaper ∧
      (o'.status.isOpen = true → o'.status = o.status))
    ⟨fun ⟨hkind, hpaper, hstays⟩ => ⟨hkind, hpaper, hstays⟩, fun h => ⟨h.orderKind, h.isPaper, h.stays⟩⟩

instance (s s' : Executor) : Decidable (s.Subsides s') :=
  decidable_of_iff (∀ id ∈ s'.orders.keys, ∀ o' ∈ s'.orders.get? id,
      ∃ o ∈ s.orders.get? id, o.Subsides o')
    ⟨fun h id o' hget => h id (Dict.mem_keys_of_get? hget) o' hget, fun h id _ o' hget => h id o' hget⟩

lemma Order.Subsides.refl (o : Order) : o.Subsides o := ⟨rfl, rfl, fun _ => rfl⟩

lemma Order.Subsides.trans {o o' o'' : Order} (h : o.Subsides o') (h' : o'.Subsides o'') :
    o.Subsides o'' where
  orderKind := h'.orderKind.trans h.orderKind
  isPaper := h'.isPaper.trans h.isPaper
  stays hopen := by
    have hstatus := h'.stays hopen
    rw [hstatus, h.stays (hstatus ▸ hopen)]

lemma Order.Subsides.of_closed {o o' : Order} (hkind : o'.orderKind = o.orderKind)
    (hpaper : o'.isPaper = o.isPaper) (hclosed : o'.status.isOpen = false) : o.Subsides o' :=
  ⟨hkind, hpaper, fun hopen => by rw [hclosed] at hopen; contradiction⟩

namespace Executor.Subsides

variable {s s' s'' : Executor}

lemma refl (s : Executor) : s.Subsides s := fun _ o' h => ⟨o', h, .refl o'⟩

lemma trans (h : s.Subsides s') (h' : s'.Subsides s'') : s.Subsides s'' := by
  intro id o'' hget
  obtain ⟨o', hget', ho'⟩ := h' id o'' hget
  obtain ⟨o, hget, ho⟩ := h id o' hget'
  exact ⟨o, hget, ho.trans ho'⟩

lemma modifyOrder {f : Order → Order} (s : Executor) (id : OrderId)
    (hf : ∀ o : Order, o.Subsides (f o)) : s.Subsides (s.modifyOrder id f) := by
  intro j o' hget
  rw [Executor.get?_modifyOrder] at hget
  split_ifs at hget with hj
  · obtain ⟨o, ho, rfl⟩ := Option.map_eq_some_iff.mp hget
    exact ⟨o, hj ▸ ho, hf o⟩
  · exact ⟨o', hget, .refl o'⟩

end Executor.Subsides

lemma Executor.setStatus_subsides (s : Executor) (id : OrderId) {status : OrderStatus}
    (hclosed : status.isOpen = false) : s.Subsides (s.setStatus id status) :=
  .modifyOrder s id fun _ => .of_closed rfl rfl hclosed

lemma Executor.setBracketState_subsides (s : Executor) (id : OrderId) (state : BracketState) :
    s.Subsides (s.setBracketState id state) :=
  .modifyOrder s id fun _ => ⟨rfl, rfl, fun _ => rfl⟩

lemma Order.besideCancelled_subsides (id : OrderId) (o : Order) (j : OrderId) (x : Order) :
    x.Subsides (o.besideCancelled id j x) := by
  rw [besideCancelled]
  split_ifs
  · exact .of_closed rfl rfl rfl
  · exact .of_closed rfl rfl rfl
  · exact .of_closed rfl rfl rfl
  · exact .refl x

lemma cancelLocally_subsides (id : OrderId) (o : Order) (s : Executor) :
    s.Subsides (cancelLocally id o s) := by
  intro j x' hget
  rw [get?_cancelLocally] at hget
  obtain ⟨x, hx, rfl⟩ := Option.map_eq_some_iff.mp hget
  exact ⟨x, hx, o.besideCancelled_subsides id j x⟩

lemma CancelOf.subsides {id : OrderId} {s s' : Executor} (h : CancelOf id s s') : s.Subsides s' := by
  cases h with
  | locally o hget hopen => exact cancelLocally_subsides id o s
  | confirmed o hget hkind hopen =>
    exact (s.setStatus_subsides id rfl).trans (Executor.setBracketState_subsides _ id .cancelled)
  | expire o hget harmed => exact s.setStatus_subsides id rfl

/-- A cancellation, alone, closes what it closes and opens nothing. -/
lemma subsides_of_byCancels {α : Type} {id : OrderId} {p : Program α} {w : ExecWorld}
    (h : BySteps (CancelOf id) (fun _ _ => True) p w) :
    Ends (fun _ w' => w.state.Subsides w'.state) p w := by
  have hchain : ∀ {s s'}, ReflTransGen (CancelOf id) s s' → s.Subsides s' := by
    intro s s' hsteps
    induction hsteps with
    | refl => exact .refl s
    | tail _ hstep ih => exact ih.trans hstep.subsides
  exact (h.reaches (fun _ => .refl) .trans).imp fun _ _ hw' => hchain hw'.2

/-- After its round an order is closed, or the exchange did not confirm. -/
lemma cancelIfOpen_closes (id : OrderId) (w : ExecWorld) :
    Ends (fun _ w' => ∀ o, w'.state.orders.get? id = some o → o.status.isOpen = true →
      o.NeedsExchange cfg ∧ cancelFailed id w'.trace = true) (cancelIfOpen cfg id) w := by
  refine .get_bind trivial ?_
  cases hget : w.state.orders.get? id with
  | none =>
    show ∀ o, _
    simp [hget]
  | some o =>
    dsimp only
    split_ifs with hopen
    · have hfinal : o.status.isFinal = false := by
        cases hstatus : o.status <;> simp_all [OrderStatus.isOpen, OrderStatus.isFinal]
      refine Meets.bind (Q := fun _ w' => ∀ o, w'.state.orders.get? id = some o →
        o.status.isOpen = true → o.NeedsExchange cfg ∧ cancelFailed id w'.trace = true) ?_ ?_
      · refine .get_bind trivial ?_
        rw [hget]
        dsimp only
        rw [if_neg (by simp [hfinal])]
        split_ifs with hlocal
        · refine ⟨trivial, fun x hx => ?_⟩
          rw [World.update_state, get?_cancelLocally, hget] at hx
          obtain rfl := Option.some.inj hx
          simp [Order.besideCancelled, OrderStatus.isOpen]
        · refine ((cancelOnExchange_inquires id o.exchangeOrderIds).meets
            (fun _ _ _ => trivial) w).bind ?_
          rintro ok w' ⟨hstate, t, htrace, _, hfailed, _⟩
          rw [concludeCancel]
          split_ifs with hok
          · refine ⟨trivial, fun x hx => ?_⟩
            rw [World.update_state, hstate, Executor.setBracketState,
              Executor.get?_modifyOrder_self, Executor.setStatus, Executor.get?_modifyOrder_self,
              hget] at hx
            obtain rfl := Option.some.inj hx
            simp [OrderStatus.isOpen]
          · intro x hx _
            rw [hstate, hget] at hx
            obtain rfl := Option.some.inj hx
            refine ⟨by simpa [Order.NeedsExchange] using hlocal, ?_⟩
            simp [htrace, cancelFailed] at hfailed ⊢
            exact Or.inr (by simpa [hok] using hfailed)
      · intro ok w' hw'
        split_ifs <;> exact hw'
    · show ∀ o, _
      simp [hget, hopen]

/-- What is left open was not confirmed by the exchange. -/
theorem cancelAllOpenOrders_withdraws (w : ExecWorld) :
    Ends (fun _ w' => w.state.Subsides w'.state ∧
      ∀ id o, w'.state.orders.get? id = some o → o.status.isOpen = true →
        o.NeedsExchange cfg ∧ cancelFailed id w'.trace = true) (cancelAllOpenOrders cfg) w := by
  -- what is open has its round still to come, or has had it in vain
  let I : List OrderId → ExecWorld → Prop := fun rest w' => w.state.Subsides w'.state ∧
    ∀ id o, w'.state.orders.get? id = some o → o.status.isOpen = true →
      id ∈ rest ∨ o.NeedsExchange cfg ∧ cancelFailed id w'.trace = true
  have hstart : I w.state.orders.keys w :=
    ⟨.refl _, fun id o hget _ => Or.inl (Dict.mem_keys_of_get? hget)⟩
  refine .get_bind trivial ?_
  refine Meets.bind (Meets.forEach_rest (I := I) ?_ hstart) ?_
  · rintro id rest w' ⟨hsubsides, hrest⟩
    refine (((subsides_of_byCancels (cancelIfOpen_byCancels id)).and
      (cancelIfOpen_closes id w')).and (cancelIfOpen_asks id w')).imp ?_
    rintro _ w'' ⟨⟨hround, hclosed⟩, t, htrace, _⟩
    refine ⟨hsubsides.trans hround, fun j o' hget hopen => ?_⟩
    by_cases hj : j = id
    · subst hj
      exact Or.inr (hclosed o' hget hopen)
    · obtain ⟨o, ho, hsub⟩ := hround j o' hget
      have hstatus := hsub.stays hopen
      rcases hrest j o ho (hstatus ▸ hopen) with hmem | ⟨hneeds, hfailed⟩
      · exact Or.inl ((List.mem_cons.mp hmem).resolve_left hj)
      · obtain ⟨hpaper, hclob, hkind⟩ := hneeds
        refine Or.inr ⟨⟨hsub.isPaper.trans hpaper, hclob, hsub.orderKind.trans hkind⟩, ?_⟩
        rw [cancelFailed] at hfailed ⊢
        rw [htrace, List.any_append, hfailed, Bool.true_or]
  · rintro _ w' ⟨hsubsides, hall⟩
    exact ⟨hsubsides, fun id o hget hopen => (hall id o hget hopen).resolve_left (List.not_mem_nil)⟩

/-! ### Next to other tasks -/

/-- The order is not open. -/
def Executor.Closes (s : Executor) (id : OrderId) : Prop :=
  ∀ o, s.orders.get? id = some o → o.status.isOpen = false

/-- A cancellation is confirmed. -/
def confirmsCancel : (q : Request) → Reply q → Bool
  | .cancel _ _, .ok () => true
  | .cancel _ _, .error _ => false
  | .balance _, _ | .gasPrice _, _ | .createAndPostOrder .., _ | .sleep _, _ | .status .., _ => true

/-- The contract of what only closes orders, next to tasks that only close orders. -/
abbrev Withdraws {α : Type} (Q : α → Executor → Prop) (p : Program α) (w : ExecWorld) : Prop :=
  Meets (fun q r w w' => w.state.Subsides w'.state ∧ confirmsCancel q r = true)
    (fun w w' => w.state.Subsides w'.state) (fun a w' => Q a w'.state) p w

lemma Executor.Closes.subsides {s s' : Executor} {id : OrderId} (h : s.Closes id)
    (hs : s.Subsides s') : s'.Closes id := by
  intro o' hget
  by_contra hopen
  rw [Bool.not_eq_false] at hopen
  obtain ⟨o, ho, hsub⟩ := hs id o' hget
  have hclosed := h o ho
  rw [← hsub.stays hopen, hopen] at hclosed
  contradiction

lemma cancelOnExchange_withdraws (id : OrderId) (exchangeIds : List ExchangeId) (w : ExecWorld) :
    Withdraws (fun ok s => ok = true ∧ w.state.Subsides s) (cancelOnExchange id exchangeIds) w := by
  suffices h : ∀ v : ExecWorld, w.state.Subsides v.state →
      Withdraws (fun ok s => ok = true ∧ w.state.Subsides s) (cancelOnExchange id exchangeIds) v from
    h w (.refl _)
  induction exchangeIds with
  | nil => exact fun v hv => ⟨rfl, hv⟩
  | cons exchangeId exchangeIds ih =>
    rintro v hv (e | _) w' ⟨hsubsides, hconfirms⟩
    · contradiction
    · exact ⟨.refl _, ih _ (hv.trans hsubsides)⟩

/-- A round closes its order. -/
lemma cancelIfOpen_withdraws (id : OrderId) (w : ExecWorld) :
    Withdraws (fun _ s => w.state.Subsides s ∧ s.Closes id) (cancelIfOpen cfg id) w := by
  have hreport : ∀ (ok : Bool) (v : ExecWorld), (w.state.Subsides v.state ∧ v.state.Closes id) →
      Withdraws (fun _ s => w.state.Subsides s ∧ s.Closes id)
        (if ok then Pure.pure [id] else Pure.pure [] : Program (List OrderId)) v := by
    intro ok v hv
    split_ifs <;> exact hv
  refine .get_bind (.refl _) ?_
  cases hget : w.state.orders.get? id with
  | none =>
    refine ⟨.refl _, fun o ho => ?_⟩
    rw [hget] at ho
    contradiction
  | some o =>
    dsimp only
    split_ifs with hopen
    · have hfinal : o.status.isFinal = false := by
        cases hstatus : o.status <;> simp_all [OrderStatus.isOpen, OrderStatus.isFinal]
      refine Meets.bind (Q := fun _ v => w.state.Subsides v.state ∧ v.state.Closes id) ?_ hreport
      refine .get_bind (.refl _) ?_
      rw [hget]
      dsimp only
      rw [if_neg (by simp [hfinal])]
      split_ifs
      · refine ⟨cancelLocally_subsides id o _, cancelLocally_subsides id o _, fun x hx => ?_⟩
        rw [World.update_state, get?_cancelLocally, hget] at hx
        obtain rfl := Option.some.inj hx
        simp [Order.besideCancelled, OrderStatus.isOpen]
      · refine (cancelOnExchange_withdraws id o.exchangeOrderIds w).bind ?_
        rintro ok w' ⟨rfl, hsubsides⟩
        have hclose := (Executor.setStatus_subsides w'.state id
          (rfl : OrderStatus.cancelled.isOpen = false)).trans
          (Executor.setBracketState_subsides _ id .cancelled)
        refine ⟨hclose, hsubsides.trans hclose, fun x hx => ?_⟩
        rw [World.update_state, Executor.setBracketState, Executor.get?_modifyOrder_self,
          Executor.setStatus, Executor.get?_modifyOrder_self] at hx
        obtain ⟨y, hy, rfl⟩ := Option.map_eq_some_iff.mp hx
        obtain ⟨z, -, rfl⟩ := Option.map_eq_some_iff.mp hy
        rfl
    · refine ⟨.refl _, fun x hx => ?_⟩
      rw [hget] at hx
      obtain rfl := Option.some.inj hx
      simpa using hopen

/-- Next to tasks that only close orders, all orders are closed. -/
theorem cancelAllOpenOrders_closes (w : ExecWorld) :
    Withdraws (fun _ s => ∀ id, s.Closes id) (cancelAllOpenOrders cfg) w := by
  refine .get_bind (.refl _) ?_
  refine Meets.bind (Meets.forEach_rest
    (I := fun rest w' => ∀ id, id ∈ rest ∨ w'.state.Closes id) ?_ fun id => ?_) ?_
  · intro id rest w' hrest
    refine (cancelIfOpen_withdraws id w').imp ?_
    rintro _ w'' ⟨hsubsides, hclosed⟩ j
    by_cases hj : j = id
    · exact Or.inr (hj ▸ hclosed)
    · exact (hrest j).imp (fun h => (List.mem_cons.mp h).resolve_left hj) (·.subsides hsubsides)
  · by_cases hid : id ∈ w.state.orders.keys
    · exact Or.inl hid
    · exact Or.inr fun o hget => absurd (Dict.mem_keys_of_get? hget) hid
  · exact fun _ w' hall id => (hall id).resolve_left List.not_mem_nil

end PolyCortex
