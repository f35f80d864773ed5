import PolyCortex.Execution.Effects

/-!
# Conservation of fills

No operation loses or invents a fill: in every state of a run the filled and the remaining size of
an order make up its size, up to the rounding, and what is filled stays filled.
-/

namespace PolyCortex

open Relation

variable {cfg : Config} {s s' : Executor}

/-- From `s` to `s'` nothing is unfilled, and `s'` is accounted for. -/
structure Executor.Conserves (s s' : Executor) : Prop where
  accounted : s'.Accounted
  filled_mono : ∀ id o, s.orders.get? id = some o →
    ∃ o', s'.orders.get? id = some o' ∧ o.filledSizeUsdc ≤ o'.filledSizeUsdc

namespace Executor.Conserves

lemma refl (hs : s.Accounted) : Conserves s s :=
  ⟨hs, fun _ o ho => ⟨o, ho, le_rfl⟩⟩

lemma trans {s'' : Executor} (h : Conserves s s') (h' : Conserves s' s'') : Conserves s s'' := by
  refine ⟨h'.accounted, fun id o ho => ?_⟩
  obtain ⟨o', ho', hle⟩ := h.filled_mono id o ho
  obtain ⟨o'', ho'', hle'⟩ := h'.filled_mono id o' ho'
  exact ⟨o'', ho'', hle.trans hle'⟩

lemma of_orders_eq (hs : s.Accounted) (h : s'.orders = s.orders) : Conserves s s' := by
  refine ⟨fun id o ho => hs id o (h ▸ ho), fun id o ho => ⟨o, ?_, le_rfl⟩⟩
  rw [h, ho]

lemma insertOrder (hs : s.Accounted) (mk : OrderId → Order) (hnew : (mk s.nextId).Accounted) :
    Conserves s (s.insertOrder mk) := by
  constructor
  · intro id o ho
    rw [get?_insertOrder] at ho
    split_ifs at ho with hid
    · cases ho
      exact hnew
    · exact hs id o ho
  · intro id o ho
    exact ⟨o, get?_insertOrder_of_some ho mk, le_rfl⟩

/-- Assigning fields of one order, when the assignment keeps its accounts. -/
lemma modifyOrder (hs : s.Accounted) {id : OrderId} {f : Order → Order}
    (hf : ∀ o, s.orders.get? id = some o → o.Accounted →
      (f o).Accounted ∧ o.filledSizeUsdc ≤ (f o).filledSizeUsdc) :
    Conserves s (s.modifyOrder id f) := by
  constructor
  · intro j o ho
    rw [get?_modifyOrder] at ho
    split_ifs at ho with hj
    · obtain ⟨o', ho', rfl⟩ := Option.map_eq_some_iff.mp ho
      exact (hf o' ho' (hs id o' ho')).1
    · exact hs j o ho
  · intro j o ho
    rw [get?_modifyOrder]
    split_ifs with hj
    · subst hj
      rw [ho]
      exact ⟨f o, rfl, (hf o ho (hs j o ho)).2⟩
    · exact ⟨o, ho, le_rfl⟩

lemma mapOrders (hs : s.Accounted) {f : Order → Order}
    (hf : ∀ o, o.Accounted → (f o).Accounted ∧ o.filledSizeUsdc ≤ (f o).filledSizeUsdc) :
    Conserves s (s.mapOrders f) := by
  constructor
  · intro id o ho
    rw [get?_mapOrders] at ho
    obtain ⟨o', ho', rfl⟩ := Option.map_eq_some_iff.mp ho
    exact (hf o' (hs id o' ho')).1
  · intro id o ho
    rw [get?_mapOrders, ho]
    exact ⟨f o, rfl, (hf o (hs id o ho)).2⟩

end Executor.Conserves

open Executor (Conserves)

/-! ### The parts of an effect -/

lemma Order.New.accounted {id : OrderId} {o : Order} (h : o.New id) : o.Accounted := by
  refine .of_untouched h.filled h.remaining h.size_nonneg ?_ h.entry_size ?_
  · rw [h.status]
    exact fun h => by cases h
  · rw [h.status]
    exact fun h => by cases h

lemma bracketChild_accounted {parent : Order} (hsize : 0 ≤ parent.activeSize) (spec : BracketSpec)
    (now : Time) (ocoGroupId : ℕ) {kind : OrderKind} (hkind : kind.isBracket = true)
    (trigger : TriggerCondition) (price : ℚ) (id : OrderId) :
    (bracketChild parent spec now ocoGroupId kind trigger price id).Accounted := by
  rw [bracketChild_eq]
  refine .of_untouched rfl rfl hsize (fun h => by cases h) ?_ fun _ => hkind
  dsimp only
  rintro rfl
  cases hkind

lemma syncChildSizes_conserves {parent : Order} (hsize : 0 ≤ parent.activeSize)
    (hs : s.Accounted) : Conserves s (syncChildSizes parent s) := by
  unfold syncChildSizes
  induction parent.bracketOrderIds generalizing s with
  | nil => exact .refl hs
  | cons id ids ih =>
    have hstep : Conserves s (s.modifyOrder id fun child =>
        if child.status = .armed then
          { child with sizeUsdc := parent.activeSize, remainingSizeUsdc := parent.activeSize }
        else child) := by
      refine .modifyOrder hs fun o _ ho => ?_
      split_ifs with harmed
      · refine ⟨?_, le_rfl⟩
        refine .of_untouched (ho.untouched (Or.inr harmed)).1 rfl hsize ?_ ?_ ho.bracket_of_armed
        · dsimp only
          rw [harmed]
          exact fun h => by cases h
        · intro hentry
          have hbracket := ho.bracket_of_armed harmed
          dsimp only at hentry
          rw [hentry] at hbracket
          cases hbracket
      · exact ⟨ho, le_rfl⟩
    exact hstep.trans (ih hstep.accounted)

/-- The size of an entry is positive, and so is the size its bracket protects. -/
lemma Executor.Accounted.activeSize_nonneg (hs : s.Accounted) {id : OrderId} {o : Order}
    (hget : s.orders.get? id = some o) (hkind : o.orderKind = .entry) : 0 ≤ o.activeSize := by
  have hsize := (hs id o hget).entry_size hkind
  exact (hs id o hget).activeSize_nonneg (by linarith)

lemma setBracketState_conserves (hs : s.Accounted) (id : OrderId) (state : BracketState) :
    Conserves s (s.setBracketState id state) :=
  .modifyOrder hs fun _ _ ho => ⟨ho.congr rfl rfl rfl rfl (Or.inl rfl), le_rfl⟩

lemma createBrackets_conserves (spec : BracketSpec) (now : Time) {id : OrderId} {o : Order}
    (hsize : 0 ≤ o.activeSize) (hs : s.Accounted) :
    Conserves s (createBrackets spec now id o s).2 := by
  unfold createBrackets
  dsimp only
  have htake : Conserves s s.takeId := .of_orders_eq hs rfl
  have htp := Conserves.insertOrder htake.accounted (takeProfitOrder o spec now s.nextId)
    (bracketChild_accounted hsize spec now _ rfl _ _ _)
  have hsl := Conserves.insertOrder htp.accounted (stopLossOrder o spec now s.nextId)
    (bracketChild_accounted hsize spec now _ rfl _ _ _)
  refine ((htake.trans htp).trans hsl).trans (.modifyOrder hsl.accounted fun o _ ho => ?_)
  exact ⟨ho.congr rfl rfl rfl rfl (Or.inl rfl), le_rfl⟩

lemma triggerChild_conserves {data : MarketData} {now : Time} {id : OrderId} {o : Order}
    (hget : s.orders.get? id = some o) (hs : s.Accounted) :
    Conserves s (triggerChild data now id o s).2 := by
  unfold triggerChild cancelSiblings
  dsimp only
  have hfill : Conserves s (s.modifyOrder id fun _ => o.exitFill data now) := by
    refine .modifyOrder hs fun o' ho' hacc => ?_
    rw [hget] at ho'
    cases ho'
    exact ⟨hacc.applyFill _ _ _, hacc.filled_le_applyFill _ _ _⟩
  have hparent : ∀ {s : Executor}, s.Accounted → ∀ o : Order,
      Conserves s (setParentBracketState o .closed s) := by
    intro s hs o
    unfold setParentBracketState
    cases o.parentOrderId with
    | none => exact .refl hs
    | some parentId => exact setBracketState_conserves hs parentId .closed
  have hclosed := hparent hfill.accounted (o.exitFill data now)
  refine (hfill.trans hclosed).trans (.mapOrders hclosed.accounted fun o' ho' => ?_)
  split_ifs
  · exact ⟨ho'.congr rfl rfl rfl rfl (Or.inr (Or.inl rfl)), le_rfl⟩
  · exact ⟨ho', le_rfl⟩

/-! ### Effects and changes -/

/-- Every effect conserves the fills. -/
theorem Effect.conserves (h : Effect cfg s s') (hs : s.Accounted) : Conserves s s' := by
  cases h with
  | bookkeeping _ horders hid => exact .of_orders_eq hs horders
  | insert mk hnew hpaper => exact .insertOrder hs mk (hnew _).accounted
  | touch id f htouch =>
    refine .modifyOrder hs fun o ho hacc => ?_
    obtain ⟨hterms, hfill, hstatus, _⟩ := htouch o ho
    exact ⟨hacc.congr hfill.sizeUsdc hfill.filledSizeUsdc hfill.remainingSizeUsdc hterms.orderKind
      (Or.inl hstatus), hfill.filledSizeUsdc.ge⟩
  | withdraw id o status hget hopen hstatus =>
    refine .modifyOrder hs fun o _ hacc => ⟨hacc.congr rfl rfl rfl rfl (Or.inr hstatus), le_rfl⟩
  | fill id o x p now hget hkind hopen =>
    exact .modifyOrder hs fun o _ hacc =>
      ⟨hacc.applyFill x p now, hacc.filled_le_applyFill x p now⟩
  | refresh parentId o hget hkind =>
    exact syncChildSizes_conserves (hs.activeSize_nonneg hget hkind) hs
  | create parentId o spec now hget hkind hnone hfill =>
    exact createBrackets_conserves spec now (hs.activeSize_nonneg hget hkind) hs
  | trigger data now id o hget hkind harmed => exact triggerChild_conserves hget hs

lemma Effects.conserves (h : Effects cfg s s') (hs : s.Accounted) : Conserves s s' := by
  induction h with
  | refl => exact .refl hs
  | tail _ hstep ih => exact ih.trans (hstep.conserves ih.accounted)

lemma Changes.conserves (h : Changes cfg s s') (hs : s.Accounted) : Conserves s s' := by
  induction h with
  | refl => exact .refl hs
  | tail _ hstep ih => exact ih.trans ((hstep.effects ih.accounted).conserves ih.accounted)

/-! ### Runs -/

lemma Executor.accounted_init : Executor.init.Accounted := by
  rintro id o ⟨⟩

lemma runAll_accounted (cfg : Config) (run : List Invocation) : (runAll cfg run).state.Accounted :=
  (Changes.conserves (runFrom_changes cfg ⟨.init, []⟩ run) Executor.accounted_init).accounted

lemma Order.Accounted.filled_le_size {o : Order} (h : o.Accounted) :
    o.filledSizeUsdc ≤ o.sizeUsdc + dust := by
  have htotal := h.total_le_size
  have hremaining := h.remaining_nonneg
  have hdust := dust_pos
  linarith

lemma Order.Accounted.abs_total_sub_size_le {o : Order} (h : o.Accounted) :
    |o.filledSizeUsdc + o.remainingSizeUsdc - o.sizeUsdc| ≤ 2 * dust := by
  have hle := h.total_le_size
  have hge := h.size_le_total
  have hdust := dust_pos
  rw [abs_le]
  constructor <;> linarith

/-- In every state of a run each order's sizes add up, and no later operation unfills it. -/
theorem runAll_conserves_fills (cfg : Config) (run : List Invocation) (i : Invocation)
    (id : OrderId) (o : Order) (hget : (runAll cfg run).state.orders.get? id = some o) :
    (0 ≤ o.filledSizeUsdc ∧ o.filledSizeUsdc ≤ o.sizeUsdc + dust) ∧
      0 ≤ o.remainingSizeUsdc ∧
      |o.filledSizeUsdc + o.remainingSizeUsdc - o.sizeUsdc| ≤ 2 * dust ∧
      (o.status = .filled → o.remainingSizeUsdc = 0) ∧
      ∃ o', (runAll cfg (run ++ [i])).state.orders.get? id = some o' ∧
        o.filledSizeUsdc ≤ o'.filledSizeUsdc := by
  have hacc := runAll_accounted cfg run
  have ho := hacc id o hget
  refine ⟨⟨ho.filled_nonneg, ho.filled_le_size⟩, ho.remaining_nonneg, ho.abs_total_sub_size_le,
    ho.remaining_of_filled, ?_⟩
  rw [runAll_concat]
  exact ((i.perform_changes cfg _).conserves hacc).filled_mono id o hget

/-- The theorem at a paper entry that is filled on placement. -/
theorem runAll_conserves_fills_placed : ∃ (run : List Invocation) (i : Invocation) (o : Order),
    (runAll {} run).state.orders.get? 0 = some o ∧
      (0 ≤ o.filledSizeUsdc ∧ o.filledSizeUsdc ≤ o.sizeUsdc + dust) ∧
      0 ≤ o.remainingSizeUsdc ∧
      |o.filledSizeUsdc + o.remainingSizeUsdc - o.sizeUsdc| ≤ 2 * dust ∧
      (o.status = .filled → o.remainingSizeUsdc = 0) ∧
      ∃ o', (runAll {} (run ++ [i])).state.orders.get? 0 = some o' ∧
        o.filledSizeUsdc ≤ o'.filledSizeUsdc := by
  have hsome : ((runAll {} [offline (.placeOrder
      { marketId := "m", direction := .yes, sizeUsdc := 10, price := 1 / 2 }) 0]).state.orders.get?
        0).isSome = true := by decide +kernel
  obtain ⟨o, hget⟩ := Option.isSome_iff_exists.mp hsome
  exact ⟨_, offline .cancelAllOpenOrders 1, o, hget, runAll_conserves_fills _ _ _ _ _ hget⟩

end PolyCortex
