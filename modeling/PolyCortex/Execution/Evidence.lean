import PolyCortex.Execution.LiveStatus

/-!
# The evidence for fills

A live order should be filled on the word of the exchange only: a row that reports the fill, or an
accepted SELL of its token. `Executor.FillsBacked` says that what happens between two states fills
nothing else. Everything but the triggers of bracket children has it, and a trigger has it when a
SELL of the child's token was accepted before.
-/

namespace PolyCortex

open Coroutine Relation

variable {cfg : Config} {s s' : Executor} {t t' : Trace} {id : OrderId}

/-! ### Evidence -/

def isAcceptedSell (tokenId : TokenId) : Exchanged Request Reply → Bool
  | ⟨.createAndPostOrder _ token _ _ .sell, .ok _⟩ => token = tokenId
  | _ => false

/-- A SELL of the token was accepted through `create_and_post_order`. -/
def SellAccepted (tokenId : TokenId) (trace : Trace) : Prop :=
  trace.any (isAcceptedSell tokenId) = true

/-- Consecutive status rows of the order report what it has filled. -/
def FillReported (id : OrderId) (o : Order) (trace : Trace) : Prop :=
  ∃ rows, rows <:+: reportedRows id trace ∧ o.filledSizeUsdc ≤ totalFilled rows + dust / 2

def FillEvidence (id : OrderId) (o : Order) (trace : Trace) : Prop :=
  FillReported id o trace ∨ SellAccepted o.tokenId trace

/-- Every filled order has evidence for it. -/
def Evidenced (w : ExecWorld) : Prop :=
  ∀ id o, w.state.orders.get? id = some o → o.status = .filled → FillEvidence id o w.trace

lemma SellAccepted.extend {tokenId : TokenId} (h : SellAccepted tokenId t) (ht : t <+: t') :
    SellAccepted tokenId t' := by
  obtain ⟨t'', rfl⟩ := ht
  rw [SellAccepted, List.any_append, Bool.or_eq_true]
  exact Or.inl h

lemma FillEvidence.extend {o : Order} (h : FillEvidence id o t) (ht : t <+: t') :
    FillEvidence id o t' := by
  rcases h with ⟨rows, hrows, hfilled⟩ | hsell
  · obtain ⟨t'', rfl⟩ := ht
    refine Or.inl ⟨rows, ?_, hfilled⟩
    rw [reportedRows_append]
    exact hrows.trans (List.prefix_append _ _).isInfix
  · exact Or.inr (hsell.extend ht)

/-- Evidence is about the token and the filled size. -/
lemma FillEvidence.congr {o o' : Order} (h : FillEvidence id o t)
    (htoken : o'.tokenId = o.tokenId) (hfilled : o'.filledSizeUsdc = o.filledSizeUsdc) :
    FillEvidence id o' t := by
  simpa [FillEvidence, FillReported, htoken, hfilled] using h

/-! ### Fills with evidence -/

/-- `o'` is what has become of `o`: not armed anew, and filled only with evidence. -/
structure Order.Backed (t : Trace) (id : OrderId) (o o' : Order) : Prop where
  terms : Order.SameTerms o o'
  armed : o'.status = .armed → o.status = .armed
  filled : o'.status = .filled →
    (o.status = .filled ∧ o'.filledSizeUsdc = o.filledSizeUsdc) ∨ FillEvidence id o' t

/-- What happens from `s` to `s'` fills no order without evidence in the trace. -/
structure Executor.FillsBacked (t : Trace) (s s' : Executor) : Prop where
  kept : ∀ id o, s.orders.get? id = some o →
    ∃ o', s'.orders.get? id = some o' ∧ Order.Backed t id o o'
  new : ∀ id o', s.orders.get? id = none → s'.orders.get? id = some o' → o'.status = .filled →
    FillEvidence id o' t

lemma Order.Backed.refl (o : Order) : Order.Backed t id o o :=
  ⟨.refl o, fun h => h, fun h => Or.inl ⟨h, rfl⟩⟩

/-- An order that keeps its filled size and keeps its status or is withdrawn. -/
lemma Order.Backed.of_status {o o' : Order} (hterms : Order.SameTerms o o')
    (hfilled : o'.filledSizeUsdc = o.filledSizeUsdc)
    (hstatus : o'.status = o.status ∨ o'.status = .cancelled ∨ o'.status = .expired) :
    Order.Backed t id o o' := by
  refine ⟨hterms, ?_, ?_⟩
  · rcases hstatus with h | h | h <;> simp [h]
  · intro hst
    rcases hstatus with h | h | h
    · exact Or.inl ⟨h.symm.trans hst, hfilled⟩
    · simp [h] at hst
    · simp [h] at hst

lemma Order.Backed.trans {o₁ o₂ o₃ : Order} (h : Order.Backed t id o₁ o₂)
    (h' : Order.Backed t id o₂ o₃) : Order.Backed t id o₁ o₃ := by
  refine ⟨h.terms.trans h'.terms, fun hst => h.armed (h'.armed hst), fun hst => ?_⟩
  rcases h'.filled hst with ⟨hst', hsize'⟩ | hevidence
  · rcases h.filled hst' with ⟨hst'', hsize⟩ | hevidence
    · exact Or.inl ⟨hst'', hsize'.trans hsize⟩
    · exact Or.inr (hevidence.congr h'.terms.tokenId hsize')
  · exact Or.inr hevidence

namespace Executor.FillsBacked

lemma refl (t : Trace) (s : Executor) : FillsBacked t s s := by
  refine ⟨fun id o ho => ⟨o, ho, .refl o⟩, fun id o' hnone ho' => ?_⟩
  rw [hnone] at ho'
  cases ho'

lemma trans {s'' : Executor} (h : FillsBacked t s s') (h' : FillsBacked t s' s'') :
    FillsBacked t s s'' := by
  constructor
  · intro id o ho
    obtain ⟨o', ho', hbacked⟩ := h.kept id o ho
    obtain ⟨o'', ho'', hbacked'⟩ := h'.kept id o' ho'
    exact ⟨o'', ho'', hbacked.trans hbacked'⟩
  · intro id o'' hnone ho'' hst
    cases hs' : s'.orders.get? id with
    | none => exact h'.new id o'' hs' ho'' hst
    | some o' =>
      obtain ⟨x, hx, hbacked⟩ := h'.kept id o' hs'
      rw [ho'', Option.some.injEq] at hx
      subst hx
      rcases hbacked.filled hst with ⟨hst', hsize⟩ | hevidence
      · exact (h.new id o' hnone hs' hst').congr hbacked.terms.tokenId hsize
      · exact hevidence

lemma extend (h : FillsBacked t s s') (ht : t <+: t') : FillsBacked t' s s' := by
  constructor
  · intro id o ho
    obtain ⟨o', ho', hterms, harmed, hfilled⟩ := h.kept id o ho
    exact ⟨o', ho', hterms, harmed, fun hst => (hfilled hst).imp_right fun h => h.extend ht⟩
  · exact fun id o' hnone ho' hst => (h.new id o' hnone ho' hst).extend ht

lemma of_orders_eq (h : s'.orders = s.orders) : FillsBacked t s s' := by
  refine ⟨fun id o ho => ⟨o, h ▸ ho, .refl o⟩, fun id o' hnone ho' => ?_⟩
  rw [h, hnone] at ho'
  cases ho'

lemma of_map {f : OrderId → Order → Order}
    (hget : ∀ id, s'.orders.get? id = (s.orders.get? id).map (f id))
    (hf : ∀ id o, s.orders.get? id = some o → Order.Backed t id o (f id o)) :
    FillsBacked t s s' := by
  constructor
  · intro id o ho
    exact ⟨f id o, by simp [hget, ho], hf id o ho⟩
  · intro id o' hnone ho'
    simp [hget, hnone] at ho'

lemma modifyOrder {f : Order → Order}
    (hf : ∀ o, s.orders.get? id = some o → Order.Backed t id o (f o)) :
    FillsBacked t s (s.modifyOrder id f) := by
  refine of_map (f := fun j o => if j = id then f o else o) (fun j => ?_) fun j o ho => ?_
  · rw [get?_modifyOrder]
    split_ifs with hj
    · rw [hj]
    · simp
  · split_ifs with hj
    · subst hj
      exact hf o ho
    · exact .refl o

lemma insertOrder {mk : OrderId → Order} (hnew : ∀ id, (mk id).New id) :
    FillsBacked t s (s.insertOrder mk) := by
  refine ⟨fun id o ho => ⟨o, get?_insertOrder_of_some ho mk, .refl o⟩, fun id o' hnone ho' => ?_⟩
  rw [get?_insertOrder] at ho'
  split_ifs at ho' with hid
  · intro hst
    rw [Option.some.injEq] at ho'
    subst ho'
    rw [(hnew _).status] at hst
    cases hst
  · rw [hnone] at ho'
    cases ho'

end Executor.FillsBacked

open Executor (FillsBacked)

/-! ### What fills nothing -/

lemma setStatus_fillsBacked {status : OrderStatus}
    (hstatus : status = .cancelled ∨ status = .expired) :
    FillsBacked t s (s.setStatus id status) := by
  apply FillsBacked.modifyOrder
  intro o _
  apply Order.Backed.of_status
  · constructor <;> rfl
  · rfl
  · exact Or.inr hstatus

lemma setBracketState_fillsBacked (state : BracketState) :
    FillsBacked t s (s.setBracketState id state) := by
  apply FillsBacked.modifyOrder
  intro o _
  apply Order.Backed.of_status
  · constructor <;> rfl
  · rfl
  · exact Or.inl rfl

lemma Arming.fillsBacked (h : Arming id s s') : FillsBacked t s s' := by
  cases h with
  | levels takeProfit stopLoss =>
    apply FillsBacked.modifyOrder
    intro o _
    apply Order.Backed.of_status
    · constructor <;> rfl
    · rfl
    · exact Or.inl rfl
  | state state => exact setBracketState_fillsBacked state
  | refresh parent hget hkind =>
    refine .of_map (get?_syncChildSizes parent s) fun c o ho => ?_
    split_ifs
    · exact .of_status (Order.resized_terms _ _) (by simp) (by simp)
    · exact .refl o
  | create spec now parent hget hkind hnone =>
    constructor
    · intro c o ho
      rw [get?_createBrackets_of_some spec now hget ho]
      split_ifs with hc
      · subst hc
        rw [hget, Option.some.injEq] at ho
        subst ho
        refine ⟨_, rfl, ?_⟩
        apply Order.Backed.of_status
        · constructor <;> rfl
        · rfl
        · exact Or.inl rfl
      · exact ⟨o, rfl, .refl o⟩
    · intro c o' hc ho' hst
      rcases createBrackets_cases spec now hget ho' with ⟨_, hnew⟩ | ⟨rfl, _⟩ | ⟨_, ho⟩
      · rw [hnew.status] at hst
        cases hst
      · rw [hget] at hc
        cases hc
      · rw [hc] at ho
        cases ho

lemma Armings.fillsBacked (h : Armings id s s') : FillsBacked t s s' := by
  induction h with
  | refl => exact .refl t s
  | tail _ hstep ih => exact ih.trans hstep.fillsBacked

lemma cancelLocally_fillsBacked (o : Order) : FillsBacked t s (cancelLocally id o s) := by
  refine cancelLocally_induction (P := FillsBacked t s) o (.refl t s) ?_ ?_ ?_
  · exact fun _ hs => hs.trans (setStatus_fillsBacked (Or.inl rfl))
  · exact fun _ hs => hs.trans (setBracketState_fillsBacked .cancelled)
  · refine fun _ c hs => hs.trans (.modifyOrder fun child _ => ?_)
    split_ifs
    · exact .refl child
    · apply Order.Backed.of_status
      · constructor <;> rfl
      · rfl
      · exact Or.inr (Or.inl rfl)

/-- A live executor fills nothing by placing, cancelling and closing. -/
lemma Command.fillsBacked (hlive : cfg.isPaper = false) (h : Command cfg s s') :
    FillsBacked t s s' := by
  cases h with
  | cleanup now => exact .of_orders_eq (orders_cleanupRecentPlacements cfg now s)
  | openEntry env req hvalid =>
    have hinsert : FillsBacked t s (s.insertOrder (buildEntryOrder cfg env req)) :=
      .insertOrder (buildEntryOrder_new env req (half_le_of_valid hvalid))
    exact hinsert.trans (.of_orders_eq rfl)
  | fillOnPlace env req id hvalid hget hpaper =>
    rw [hlive] at hpaper
    cases hpaper
  | persist env req => exact .of_orders_eq (orders_persistOrderIntent ..)
  | abandon id o hget hkind hstatus => exact setStatus_fillsBacked (Or.inl rfl)
  | acknowledgeEntry req exchangeIds id o hget hkind =>
    apply FillsBacked.modifyOrder
    intro o _
    apply Order.Backed.of_status
    · constructor <;> rfl
    · rfl
    · exact Or.inl rfl
  | cancelLocally id o hget hopen => exact cancelLocally_fillsBacked o
  | cancelConfirmed id o hget hkind hopen =>
    exact (setStatus_fillsBacked (Or.inl rfl)).trans (setBracketState_fillsBacked .cancelled)
  | expire id o hget harmed => exact setStatus_fillsBacked (Or.inr rfl)
  | openExit env req hsize => exact .insertOrder (buildExitOrder_new env req hsize)
  | fillExit env req id hsize hget hpaper =>
    rw [hlive] at hpaper
    cases hpaper
  | acknowledgeExit id exchangeId o hget hkind =>
    apply FillsBacked.modifyOrder
    intro o _
    apply Order.Backed.of_status
    · constructor <;> rfl
    · rfl
    · exact Or.inl rfl

lemma Commands.fillsBacked (hlive : cfg.isPaper = false) (h : Commands cfg s s') :
    FillsBacked t s s' := by
  induction h with
  | refl => exact .refl t s
  | tail _ hstep ih => exact ih.trans (hstep.fillsBacked hlive)

/-! ### What the rounds of a pass fill -/

/-- The rows that fill an order report what it has filled. -/
lemma Order.liveFill_filled {o : Order} {rows : List StatusRow} {now : Time}
    (hopen : o.status.isFinal = false) (hfilled : (o.liveFill rows now).status = .filled) :
    (o.liveFill rows now).filledSizeUsdc ≤ totalFilled rows + dust / 2 := by
  have hne : o.status ≠ .filled := by
    intro h
    simp [h, OrderStatus.isFinal] at hopen
  rw [liveFill] at hfilled ⊢
  split_ifs at hfilled ⊢ with hdelta
  · by_cases hpos : 0 < o.acceptedFill (deltaFilled o rows)
    · rw [applyFill_of_pos hpos]
      have hround := round8_le_add (o.filledSizeUsdc + o.acceptedFill (deltaFilled o rows))
      have hle : o.acceptedFill (deltaFilled o rows) ≤ deltaFilled o rows := min_le_left _ _
      have hnew : deltaFilled o rows = totalFilled rows - o.filledSizeUsdc := by
        rw [deltaFilled] at hdelta ⊢
        exact max_eq_left ((lt_max_iff.mp hdelta).resolve_right (lt_irrefl 0)).le
      dsimp only
      linarith
    · rw [applyFill_of_nonpos (not_lt.mp hpos)] at hfilled
      exact absurd hfilled hne
  · exact absurd hfilled hne

lemma applyStatusRows_fillsBacked {rows : List StatusRow} {now : Time} {o : Order}
    (hget : s.orders.get? id = some o) (hopen : o.status.isFinal = false)
    (hrows : rows <:+: reportedRows id t) :
    FillsBacked t s (applyStatusRows cfg now id rows s).2 := by
  have hfill : FillsBacked t s (s.modifyOrder id fun _ => (o.liveFill rows now).liveStatus rows) := by
    apply FillsBacked.modifyOrder
    intro o' ho'
    rw [hget, Option.some.injEq] at ho'
    subst ho'
    obtain ⟨hterms, _⟩ := o.liveFill_terms rows now
    have hbacked : Order.Backed t id o (o.liveFill rows now) := by
      refine ⟨hterms, fun harmed => ?_, fun hfilled => ?_⟩
      · rcases o.liveFill_status rows now with h | h | h
        · exact h.symm.trans harmed
        · simp [h] at harmed
        · simp [h] at harmed
      · exact Or.inr (Or.inl ⟨rows, hrows, Order.liveFill_filled hopen hfilled⟩)
    refine hbacked.trans ?_
    rcases liveStatus_cases rows (o.liveFill rows now) with h | ⟨_, _, h | h⟩
    · rw [h]
      exact .refl _
    · rw [h]
      apply Order.Backed.of_status
      · constructor <;> rfl
      · rfl
      · exact Or.inr (Or.inl rfl)
    · rw [h]
      apply Order.Backed.of_status
      · constructor <;> rfl
      · rfl
      · exact Or.inr (Or.inr rfl)
  simp only [applyStatusRows, hget]
  split_ifs
  · exact .refl t s
  · exact hfill.trans (armDefaultBrackets_armings cfg now id _).fillsBacked
  · exact hfill

/-- A child is filled when its trigger fires, which a SELL of its token has to back. -/
lemma reconcileChild_fillsBacked {data : MarketData} {now : Time} {o : Order}
    (hget : s.orders.get? id = some o)
    (hsell : o.status = .armed → o.isPastExpiry now = false → shouldTrigger data o = true →
      SellAccepted o.tokenId t) :
    FillsBacked t s (reconcileChild data now id o s).2 := by
  rw [reconcileChild]
  split_ifs with harmed hexpired htrigger
  · exact .refl t s
  · rw [expireChild, setParentBracketState]
    have hexpire : FillsBacked t s (s.setStatus id .expired) := setStatus_fillsBacked (Or.inr rfl)
    cases o.parentOrderId with
    | none => exact hexpire
    | some parentId => exact hexpire.trans (setBracketState_fillsBacked .expired)
  · rw [not_not] at harmed
    have hevidence := hsell harmed (by simpa using hexpired) htrigger
    have hterms : Order.SameTerms o (o.exitFill data now) := o.applyFill_sameTerms _ _ _
    have hfill : FillsBacked t s (s.modifyOrder id fun _ => o.exitFill data now) := by
      apply FillsBacked.modifyOrder
      intro o' ho'
      rw [hget, Option.some.injEq] at ho'
      subst ho'
      refine ⟨hterms, fun _ => harmed, fun _ => Or.inr (Or.inr ?_)⟩
      rwa [hterms.tokenId]
    refine hfill.trans (.of_map (f := (o.exitFill data now).besideTriggered) (fun j => ?_) ?_)
    · rw [get?_triggerChild hget, Executor.get?_modifyOrder, hget, Option.map_some]
    · intro j o' _
      refine .of_status (besideTriggered_terms _ _ _) (besideTriggered_fill _ _ _).filledSizeUsdc ?_
      rw [besideTriggered_status]
      split_ifs
      · exact Or.inr (Or.inl rfl)
      · exact Or.inl rfl
  · exact .refl t s

/-! ### The events of the rounds -/

/-- No event says that an exit was filled. -/
def NoExits (events : List OrderLifecycleEvent) : Prop :=
  ∀ event ∈ events, event.eventType ≠ .exitFilled

lemma NoExits.append {events events' : List OrderLifecycleEvent} (h : NoExits events)
    (h' : NoExits events') : NoExits (events ++ events') := by
  intro event hevent
  exact (List.mem_append.mp hevent).elim (h event) (h' event)

lemma armBracketOrders_noExits (spec : BracketSpec) (now : Time) (id : OrderId) (s : Executor) :
    NoExits (armBracketOrders spec now id s).1 := by
  rw [armBracketOrders]
  cases s.orders.get? id with
  | none => simp [NoExits]
  | some parent =>
    dsimp only
    split_ifs
    · simp [NoExits]
    · simp [NoExits, refreshBrackets, bracketsArmedEvent]
    · simp [NoExits, createBrackets, bracketsArmedEvent, gttCreatedEvent]

lemma armDefaultBrackets_noExits (cfg : Config) (now : Time) (id : OrderId) (s : Executor) :
    NoExits (armDefaultBrackets cfg now id s).1 := by
  rw [armDefaultBrackets]
  cases cfg.defaultBracketSpec with
  | none => simp [NoExits]
  | some spec => exact armBracketOrders_noExits spec now id s

lemma armDeferred_noExits (cfg : Config) (now : Time) (id : OrderId) (s : Executor) :
    NoExits (armDeferred cfg now id s).1 := by
  rw [armDeferred]
  cases s.orders.get? id with
  | none => simp [NoExits]
  | some o =>
    dsimp only
    split_ifs
    · exact armDefaultBrackets_noExits cfg now id s
    · simp [NoExits]

lemma applyStatusRows_noExits (cfg : Config) (now : Time) (id : OrderId) (rows : List StatusRow)
    (s : Executor) : NoExits (applyStatusRows cfg now id rows s).1 := by
  rw [applyStatusRows]
  cases s.orders.get? id with
  | none => simp [NoExits]
  | some o =>
    have hfill : NoExits (liveFillEvents o (o.liveFill rows now) rows) := by
      rw [liveFillEvents]
      split_ifs
      · simp only [NoExits, entryFillEvent, List.mem_singleton, forall_eq]
        split_ifs <;> simp
      · simp [NoExits]
    have hstatus : NoExits (liveStatusEvents (o.liveFill rows now) rows) := by
      rw [liveStatusEvents]
      split_ifs <;> simp [NoExits]
    dsimp only
    split_ifs
    · simp [NoExits]
    · exact (hfill.append hstatus).append (armDefaultBrackets_noExits cfg now id _)
    · exact hfill.append hstatus

/-- A child reports a filled exit only when its trigger fires, and then its own. -/
lemma reconcileChild_exits {data : MarketData} {now : Time} {o : Order}
    (event : OrderLifecycleEvent) (hevent : event ∈ (reconcileChild data now id o s).1)
    (hexit : event.eventType = .exitFilled) :
    event.orderId = o.orderId ∧ o.status = .armed ∧ o.isPastExpiry now = false ∧
      shouldTrigger data o = true := by
  rw [reconcileChild] at hevent
  split_ifs at hevent with harmed hexpired htrigger
  · cases hevent
  · rw [expireChild, List.mem_singleton] at hevent
    subst hevent
    cases hexit
  · refine ⟨?_, not_not.mp harmed, by simpa using hexpired, htrigger⟩
    simp only [triggerChild, List.mem_append, List.mem_singleton] at hevent
    rcases hevent with hsibling | rfl
    · simp only [cancelSiblings, List.mem_map] at hsibling
      obtain ⟨_, _, rfl⟩ := hsibling
      cases hexit
    · exact (o.applyFill_sameTerms _ _ _).orderId
  · cases hevent

/-! ### Runs -/

instance (tokenId : TokenId) (trace : Trace) : Decidable (SellAccepted tokenId trace) :=
  inferInstanceAs (Decidable (trace.any (isAcceptedSell tokenId) = true))

/-- Every trigger that a pass would fire is backed by an accepted SELL of the child's token. -/
def TriggersBacked (w : ExecWorld) (call : Call) : Prop :=
  match call.op with
  | .reconcileOrders books => ∀ id ∈ w.state.orders.keys, ∀ o ∈ w.state.orders.get? id,
    ∀ data ∈ books o.marketId, o.orderKind.isBracket = true → o.status = .armed →
      o.isPastExpiry call.env.now = false → shouldTrigger data o = true →
      SellAccepted o.tokenId w.trace
  | _ => True

instance (w : ExecWorld) (call : Call) : Decidable (TriggersBacked w call) :=
  match call with
  | ⟨.reconcileOrders books, env⟩ =>
    inferInstanceAs (Decidable (∀ id ∈ w.state.orders.keys, ∀ o ∈ w.state.orders.get? id,
      ∀ data ∈ books o.marketId, o.orderKind.isBracket = true → o.status = .armed →
        o.isPastExpiry env.now = false → shouldTrigger data o = true →
        SellAccepted o.tokenId w.trace))
  | ⟨.placeOrder _, _⟩ | ⟨.cancelOrder _, _⟩ | ⟨.cancelAllOpenOrders, _⟩
  | ⟨.cancelExpiredOrders, _⟩ | ⟨.closePosition _, _⟩ => inferInstanceAs (Decidable True)

/-- An event that books an exit belongs to an order whose token had been sold. -/
def ExitBacked (w : ExecWorld) (event : OrderLifecycleEvent) : Prop :=
  event.eventType = .exitFilled →
    ∃ o, w.state.orders.get? event.orderId = some o ∧ SellAccepted o.tokenId w.trace

/-- From `w₀` to `w` nothing was filled without evidence. -/
structure BackedSince (w₀ w : ExecWorld) : Prop where
  trace : w₀.trace <+: w.trace
  backed : FillsBacked w.trace w₀.state w.state

lemma BackedSince.then {w₀ w w' : ExecWorld} (h : BackedSince w₀ w) (ht : w.trace <+: w'.trace)
    (hs : FillsBacked w'.trace w.state w'.state) : BackedSince w₀ w' :=
  ⟨h.trace.trans ht, (h.backed.extend ht).trans hs⟩

lemma BackedSince.evidenced {w₀ w : ExecWorld} (h : BackedSince w₀ w) (hw₀ : Evidenced w₀) :
    Evidenced w := by
  intro id o' ho' hst
  cases hs : w₀.state.orders.get? id with
  | none => exact h.backed.new id o' hs ho' hst
  | some o =>
    obtain ⟨x, hx, hbacked⟩ := h.backed.kept id o hs
    rw [ho', Option.some.injEq] at hx
    subst hx
    rcases hbacked.filled hst with ⟨hst', hsize⟩ | hevidence
    · exact ((hw₀ id o hs hst').extend h.trace).congr hbacked.terms.tokenId hsize
    · exact hevidence

/-- A round of a pass whose triggers are backed. -/
lemma reconcileOrder_backedSince {w₀ w : ExecWorld} {books : MarketBooks} {env : Ambient}
    (hpaper : w₀.state.PaperIs false) (hkeyed : w₀.state.Keyed)
    (htriggers : TriggersBacked w₀ ⟨.reconcileOrders books, env⟩) (hid : id ∈ w₀.state.orders.keys)
    (hw : BackedSince w₀ w) :
    Meets Alone (fun _ _ => True)
      (fun events w' => BackedSince w₀ w' ∧ ∀ event ∈ events, ExitBacked w₀ event)
      (reconcileOrder cfg books env.now id) w := by
  obtain ⟨o₀, ho₀⟩ := Option.isSome_iff_exists.mp ((w₀.state.orders.mem_keys id).mp hid)
  obtain ⟨o, hget, hbacked⟩ := hw.backed.kept id o₀ ho₀
  have hnone : ∀ {w' : ExecWorld}, BackedSince w₀ w' → BackedSince w₀ w' ∧
      ∀ event ∈ ([] : List OrderLifecycleEvent), ExitBacked w₀ event := fun hw' => ⟨hw', by simp⟩
  have hquiet : ∀ {events}, NoExits events → ∀ event ∈ events, ExitBacked w₀ event :=
    fun h event hevent hexit => absurd hexit (h event hevent)
  apply Meets.get_bind trivial
  simp only [hget]
  have hchild : o.orderKind.isBracket = true → ∀ data, books o.marketId = some data →
      Meets Alone (fun _ _ => True)
        (fun events w' => BackedSince w₀ w' ∧ ∀ event ∈ events, ExitBacked w₀ event)
        (modifyGet (reconcileChild data env.now id o)) w := by
    intro hkind data hdata
    have hsell : o.status = .armed → o.isPastExpiry env.now = false →
        shouldTrigger data o = true → SellAccepted o₀.tokenId w₀.trace := by
      intro harmed hexpiry htrigger
      have hterms := hbacked.terms
      refine htriggers id hid o₀ ho₀ data ?_ ?_ (hbacked.armed harmed) ?_ ?_
      · rwa [← hterms.marketId]
      · rwa [← hterms.orderKind]
      · rwa [Order.isPastExpiry, ← hterms.gttExpiryAt]
      · rwa [← hterms.shouldTrigger data]
    refine ⟨trivial, hw.then (List.prefix_refl _) (reconcileChild_fillsBacked hget ?_), ?_⟩
    · intro harmed hexpiry htrigger
      rw [hbacked.terms.tokenId]
      exact (hsell harmed hexpiry htrigger).extend hw.trace
    · intro event hevent hexit
      obtain ⟨hown, harmed, hexpiry, htrigger⟩ := reconcileChild_exits event hevent hexit
      refine ⟨o₀, ?_, hsell harmed hexpiry htrigger⟩
      rw [hown, hbacked.terms.orderId, hkeyed id o₀ ho₀, ho₀]
  have hdeferred : ∀ {w' : ExecWorld} {events}, BackedSince w₀ w' → NoExits events →
      Meets Alone (fun _ _ => True)
        (fun events w' => BackedSince w₀ w' ∧ ∀ event ∈ events, ExitBacked w₀ event)
        ((modifyGet (armDeferred cfg env.now id)).bind fun armed => .pure (events ++ armed)) w' := by
    intro w' events hw' hevents
    refine .modifyGet_bind trivial ⟨?_, hquiet (hevents.append (armDeferred_noExits _ _ _ _))⟩
    exact hw'.then (List.prefix_refl _) (armDeferred_armings ..).fillsBacked
  cases hkind : o.orderKind with
  | exit => exact hnone hw
  | takeProfit =>
    dsimp only
    cases hdata : books o.marketId with
    | none => exact hnone hw
    | some data => exact hchild (by rw [hkind]; rfl) data hdata
  | stopLoss =>
    dsimp only
    cases hdata : books o.marketId with
    | none => exact hnone hw
    | some data => exact hchild (by rw [hkind]; rfl) data hdata
  | entry =>
    dsimp only
    split_ifs with hfinal
    · exact hnone hw
    have hlive : o.isPaper = false := hbacked.terms.isPaper.trans (hpaper id o₀ ho₀)
    rw [reconcileEntry]
    split_ifs with hasks hmarket
    · refine Meets.bind (Q := fun events w' => BackedSince w₀ w' ∧ NoExits events) ?_
        fun events w' h => hdeferred h.1 h.2
      refine (fetchStatusRows_meets id _ w).bind fun rows w' hasked => ?_
      obtain ⟨hstate, t, htrace, _, hrows, _⟩ := hasked
      refine ⟨trivial, hw.then ?_ ?_, applyStatusRows_noExits _ _ _ _ _⟩
      · rw [World.update_trace, htrace]
        exact List.prefix_append _ _
      · rw [World.update_state, ← hstate]
        refine applyStatusRows_fillsBacked (hstate ▸ hget) (by simpa using hfinal) ?_
        rw [World.update_trace, htrace, reportedRows_append, hrows]
        exact (List.suffix_append _ _).isInfix
    · simp [hlive] at hmarket
    · refine ⟨trivial, ?_, hquiet (armDeferred_noExits _ _ _ _)⟩
      exact hw.then (List.prefix_refl _) (armDeferred_armings ..).fillsBacked

/-- A call of a live executor whose triggers are backed fills nothing without evidence. -/
lemma Invocation.perform_backedSince (hlive : cfg.isPaper = false) {w : ExecWorld}
    (hpaper : w.state.PaperIs false) (hkeyed : w.state.Keyed) (i : Invocation)
    (htriggers : TriggersBacked w i.call) :
    BackedSince w (i.perform cfg w) ∧
      ∀ event ∈ (i.outcome cfg w.state).result.lifecycleEvents, ExitBacked w event := by
  obtain ⟨⟨op, env⟩, answers⟩ := i
  by_cases hop : ∃ books, op = .reconcileOrders books
  · obtain ⟨books, rfl⟩ := hop
    have hmeets : Meets Alone (fun _ _ => True)
        (fun result w' => BackedSince w w' ∧ ∀ event ∈ result.lifecycleEvents, ExitBacked w event)
        (Call.program cfg ⟨.reconcileOrders books, env⟩) w := by
      refine Meets.bind (Q := fun events w' => BackedSince w w' ∧
        ∀ event ∈ events, ExitBacked w event) ?_ ?_
      · refine .get_bind trivial (Meets.forEach_all (fun id hid w' hw' => ?_) ?_)
        · exact reconcileOrder_backedSince hpaper hkeyed htriggers hid hw'
        · exact ⟨List.prefix_refl _, .refl _ _⟩
      · exact fun events w' h => h
    exact Ends.run hmeets answers
  · have hcommands : Commands cfg w.state (Invocation.perform cfg w ⟨⟨op, env⟩, answers⟩).state :=
      ((Call.byCommands cfg ⟨op, env⟩ w (not_exists.mp hop)).run alone_refl (fun _ => .refl) .trans
        answers).1
    refine ⟨⟨List.prefix_append _ _, hcommands.fillsBacked hlive⟩, ?_⟩
    cases op with
    | reconcileOrders books => exact absurd ⟨books, rfl⟩ hop
    | _ => simp [Invocation.outcome, Call.program, OpResult.lifecycleEvents]

/-- A live position: an entry in one chunk, filled at 0.5 by the first pass, with its bracket. -/
def filledEntry : List Invocation :=
  [⟨⟨.placeOrder { threeChunks with sizeUsdc := 10 }, { now := 0 }⟩,
      scripted (fun _ => acknowledged "x") (fun _ => .error .network) fun _ => .failed⟩,
    ⟨⟨.reconcileOrders fun _ => none, { now := 1 }⟩,
      scripted (fun _ => .error .network) (fun _ => .error .network) fun _ =>
        .response (.dict [("status", .text "matched"), ("size_matched", .num 10),
          ("avg_price", .num (1 / 2))])⟩]

/-- A pass over a book in which the take-profit triggers. -/
def takeProfitPass : Invocation :=
  offline (.reconcileOrders fun _ => some { bestBid := some (9 / 10) }) 2

/-- The position is offered for sale, and the exchange accepts. -/
def sellPosition : Invocation :=
  ⟨⟨.closePosition ⟨"m", "t", .yes, 10, 1 / 2⟩, { now := 1 }⟩,
    scripted (fun _ => acknowledged "y") (fun _ => .error .network) fun _ => .failed⟩

/-- The order `id` is filled at the end of the run. -/
def FilledAfter (cfg : Config) (run : List Invocation) (id : OrderId) : Prop :=
  ((runAll cfg run).state.orders.get? id).any (fun o => o.status = .filled) = true

instance (cfg : Config) (run : List Invocation) (id : OrderId) :
    Decidable (FilledAfter cfg run id) :=
  inferInstanceAs (Decidable (((runAll cfg run).state.orders.get? id).any _ = true))

end PolyCortex
