import PolyCortex.Execution.FamilySteps

/-!
# Operations over the families of a state

Each operation loops over all orders. What it does to one family is what the rounds of its three
orders do; the rounds of the other orders leave it alone. So the operations do to a family what
the functions of `FamilySteps` say, given what the exchange has answered about the entry.
-/

namespace PolyCortex

open Coroutine Relation

variable {cfg : Config} {s s' : Executor} {w : ExecWorld} {e id : OrderId} {g : ℕ} {f f' : Family}
  {books : MarketBooks} {now : Time}

/-- The family `f` in a state that hangs together. -/
structure Executor.FamilyAt (s : Executor) (e : OrderId) (g : ℕ) (f : Family) : Prop where
  related : s.Related
  whole : s.ChildrenWhole
  family : s.HasFamily e g f

lemma Executor.FamilyAt.step (h : s.FamilyAt e g f) (hchanges : Changes cfg s s')
    (hf : s'.Stores e g f') : s'.FamilyAt e g f' where
  related := hchanges.related h.related
  whole := hchanges.childrenWhole h.related.accounted h.whole
  family := Executor.HasFamily.of_changes h.family h.related.accounted hchanges hf

/-- What leaves the orders apart from `id` alone leaves a family alone that `id` is not in. -/
lemma Executor.FamilyAt.frame {R : Executor → Executor → Prop}
    (hchange : ∀ s s', R s s' → Change cfg s s')
    (hframe : ∀ s s' j x, R s s' → s.Apart id j → s.orders.get? j = some x →
      s'.orders.get? j = some x)
    (h : s.FamilyAt e g f) (hid : id ∉ [e, g + 1, g + 2]) (hsteps : ReflTransGen R s s') :
    s'.FamilyAt e g f := by
  induction hsteps with
  | refl => exact h
  | @tail s₁ s₂ _ hstep ih =>
    have hapart : ∀ j ∈ [e, g + 1, g + 2], s₁.Apart id j := fun j hj =>
      ih.family.apart ih.related hid hj
    refine ih.step (.single (hchange _ _ hstep)) ⟨?_, ?_, ?_⟩
    · exact hframe _ _ _ _ hstep (hapart e (by simp)) ih.family.get
    · exact hframe _ _ _ _ hstep (hapart _ (by simp)) ih.family.get_takeProfit
    · exact hframe _ _ _ _ hstep (hapart _ (by simp)) ih.family.get_stopLoss

lemma Executor.Related.linked (hs : s.Related) : s.Linked := by
  refine ⟨hs.accounted, fun e entry c hentry hc => ?_⟩
  obtain ⟨g, tp, sl, hb⟩ := hs.listed e entry hentry (List.ne_nil_of_mem hc)
  rw [hb.ids] at hc
  obtain ⟨x, hx, hmember⟩ := hb.member (List.mem_cons_of_mem _ hc)
  refine ⟨x, hx, ?_⟩
  rcases hmember with ⟨rfl, rfl⟩ | ⟨hbracket, _⟩
  · simp [hb.ne_takeProfit, hb.ne_stopLoss] at hc
  · exact hbracket

/-- An operation that ends with the three orders as `F` says has made the family so. -/
lemma Executor.FamilyAt.ends {α : Type} {R : Executor → Executor → Prop} {p : Program α}
    {F : ExecWorld → Family} {P : ExecWorld → Prop} (h : w.state.FamilyAt e g f)
    (hchange : ∀ s s', R s s' → Change cfg s s') (hsteps : BySteps R (fun _ _ => True) p w)
    (hp : Ends (fun _ w' => w'.state.Stores e g (F w') ∧ P w') p w) :
    Ends (fun _ w' => w'.state.FamilyAt e g (F w') ∧ P w') p w := by
  refine ((hsteps.reaches (fun _ => .refl) .trans).and hp).imp ?_
  rintro _ w' ⟨⟨_, hreach⟩, hstores, hrest⟩
  exact ⟨h.step (ReflTransGen.mono hchange _ _ hreach) hstores, hrest⟩

/-- A loop over all orders is three rounds for a family. What the entry's round does goes by what
the trace has told of it, which is nothing before; the other rounds tell nothing. -/
lemma Executor.FamilyAt.forEach {α β : Type} {round : OrderId → Program (List β)}
    (h : s.FamilyAt e g f) (hs : s.Ordered) (told : Trace → α) (entryRound : α → Family)
    (takeProfitRound stopLossRound : Family → Family)
    (hothers : ∀ {f' id w}, w.state.FamilyAt e g f' → id ∉ [e, g + 1, g + 2] →
      Ends (fun _ w' => w'.state.FamilyAt e g f' ∧ told w'.trace = told w.trace) (round id) w)
    (hentry : ∀ {w}, w.state.FamilyAt e g f → told w.trace = told [] →
      Ends (fun _ w' => w'.state.FamilyAt e g (entryRound (told w'.trace))) (round e) w)
    (htakeProfit : ∀ {f' w}, w.state.FamilyAt e g f' →
      Ends (fun _ w' => w'.state.FamilyAt e g (takeProfitRound f') ∧ w'.trace = w.trace)
        (round (g + 1)) w)
    (hstopLoss : ∀ {f' w}, w.state.FamilyAt e g f' →
      Ends (fun _ w' => w'.state.FamilyAt e g (stopLossRound f') ∧ w'.trace = w.trace)
        (round (g + 2)) w) :
    Ends (fun _ w' => w'.state.FamilyAt e g
        (stopLossRound (takeProfitRound (entryRound (told w'.trace)))))
      (Coroutine.forEach round s.orders.keys) ⟨s, []⟩ := by
  -- the family after the first `n` of its rounds
  let rounds : ℕ → α → Family := fun n a =>
    match n with
    | 0 => f
    | 1 => entryRound a
    | 2 => takeProfitRound (entryRound a)
    | _ => stopLossRound (takeProfitRound (entryRound a))
  let J : ℕ → ExecWorld → Prop := fun n w' =>
    w'.state.FamilyAt e g (rounds n (told w'.trace)) ∧ (n = 0 → told w'.trace = told [])
  have hpass : Ends (fun _ => J 3) (Coroutine.forEach round s.orders.keys) ⟨s, []⟩ := by
    refine Meets.forEach_stages (h.family.sublist hs) s.orders.nodup ?_ ?_ ?_
    · rintro id _ hid n w' ⟨hw', hquiet⟩
      refine (hothers hw' hid).imp ?_
      rintro _ w'' ⟨hw'', hsame⟩
      exact ⟨by rwa [hsame], by rwa [hsame]⟩
    · rintro n id hn w' ⟨hw', hquiet⟩
      match n, hn with
      | 0, hn =>
        obtain rfl : e = id := Option.some.inj hn
        exact (hentry hw' (hquiet rfl)).imp fun _ _ hw'' => ⟨hw'', by simp⟩
      | 1, hn =>
        obtain rfl : g + 1 = id := Option.some.inj hn
        refine (htakeProfit hw').imp ?_
        rintro _ w'' ⟨hw'', htrace⟩
        exact ⟨by rwa [htrace], by simp⟩
      | 2, hn =>
        obtain rfl : g + 2 = id := Option.some.inj hn
        refine (hstopLoss hw').imp ?_
        rintro _ w'' ⟨hw'', htrace⟩
        exact ⟨by rwa [htrace], by simp⟩
    · exact ⟨h, fun _ => rfl⟩
  exact hpass.imp fun _ _ hw' => hw'.1

/-! ### A pass -/

/-- The round of an order outside the family. -/
lemma reconcileOrder_others (h : w.state.FamilyAt e g f) (hid : id ∉ [e, g + 1, g + 2]) :
    Ends (fun _ w' => w'.state.FamilyAt e g f ∧ reportedRows e w'.trace = reportedRows e w.trace)
      (reconcileOrder cfg books now id) w := by
  have hne : id ≠ e := fun hid' => hid (by simp [hid'])
  have hsteps : BySteps (RoundOf cfg books now id) (fun _ _ => True)
      (reconcileOrder cfg books now id) w := reconcileOrder_byRoundsOf books now id
  refine ((hsteps.reaches (fun _ => .refl) .trans).and (reconcileOrder_undisturbed books now hne
    h.related.linked h.family.get h.family.kind)).imp ?_
  rintro _ w' ⟨⟨_, hreach⟩, hundisturbed⟩
  refine ⟨Executor.FamilyAt.frame (fun _ _ hround => hround.round.change) ?_ h hid hreach,
    hundisturbed.rows⟩
  exact fun _ _ _ _ hround hapart hget => hround.frame hapart hget

/-- Arming is not deferred where there is a bracket. -/
lemma armDeferred_ends {α : Type} {k : List OrderLifecycleEvent → α} {P : ExecWorld → Prop}
    (hget : w.state.orders.get? e = some f.entry) (hids : f.entry.bracketOrderIds ≠ []) (hw : P w) :
    Ends (fun _ => P) ((modifyGet (armDeferred cfg now e)).bind fun events => .pure (k events))
      w := by
  refine .modifyGet_bind trivial ?_
  have hsame : w.update (fun s => (armDeferred cfg now e s).2) = w := by
    cases w
    simp only [World.update, armDeferred_of_bracket hget hids]
  rw [hsame]
  exact hw

/-- The round of the entry. -/
lemma reconcileOrder_entry (h : w.state.FamilyAt e g f) (hrows : reportedRows e w.trace = []) :
    Ends (fun _ w' => w'.state.FamilyAt e g (f.entryRound cfg books now (reportedRows e w'.trace)))
      (reconcileOrder cfg books now e) w := by
  suffices hstores : Ends (fun _ w' => w'.state.Stores e g
      (f.entryRound cfg books now (reportedRows e w'.trace)) ∧ True)
      (reconcileOrder cfg books now e) w from
    (h.ends (fun _ _ hround => hround.change) (reconcileOrder_byRounds books now e) hstores).imp
      fun _ _ hw' => hw'.1
  have hb := h.family
  refine .get_bind trivial ?_
  simp only [hb.get, hb.kind]
  split_ifs with hfinal
  · simp [Family.entryRound, hfinal, hb.stores]
  rw [reconcileEntry]
  split_ifs with hlive hpaper
  · refine Meets.bind (Q := fun _ w' => w'.state.Stores e g
      (f.applyRows cfg (reportedRows e w'.trace) now) ∧ Changes cfg w.state w'.state) ?_ ?_
    · refine (fetchStatusRows_meets e _ w).bind fun rows w' hasked => ?_
      obtain ⟨hstate, t, htrace, _, ht, _⟩ := hasked
      have hrows' : reportedRows e w'.trace = rows := by simp [htrace, hrows, ht]
      refine ⟨trivial, ?_, ?_⟩
      · simp only [World.update_trace, World.update_state, hrows', hstate]
        exact applyStatusRows_stores hb rows now
      · rw [World.update_state, hstate]
        exact .single (.statusRows now e rows f.entry hb.get hb.kind (by simpa using hfinal)
          (by simpa using hlive.1))
    · rintro events w' ⟨hstores, hchanges⟩
      have hb' := (h.step hchanges hstores).family
      refine armDeferred_ends hb'.get hb'.ids_ne_nil ⟨?_, trivial⟩
      simpa [Family.entryRound, hfinal, hlive] using hstores
  · cases hdata : books f.entry.marketId with
    | none => exact ⟨by simpa [Family.entryRound, hfinal, hpaper, hdata] using hb.stores, trivial⟩
    | some data =>
      have hstores := reconcilePaperEntry_stores cfg hb data now
      have hb' := (h.step (.single (.paperEntry data now e f.entry hb.get hb.kind hpaper.2
        hpaper.1)) hstores).family
      refine .modifyGet_bind trivial (armDeferred_ends hb'.get hb'.ids_ne_nil ⟨?_, trivial⟩)
      simpa [Family.entryRound, hfinal, hpaper, hdata] using hstores
  · refine ⟨trivial, ?_, trivial⟩
    rw [World.update_state, armDeferred_of_bracket hb.get hb.ids_ne_nil]
    rw [Family.entryRound, if_neg hfinal, if_neg hlive, if_neg hpaper]
    exact hb.stores

/-- The round of the take-profit child. -/
lemma reconcileOrder_takeProfit (h : w.state.FamilyAt e g f) :
    Ends (fun _ w' => w'.state.FamilyAt e g (f.takeProfitRound books now) ∧ w'.trace = w.trace)
      (reconcileOrder cfg books now (g + 1)) w := by
  have hb := h.family
  refine h.ends (fun _ _ hround => hround.change) (reconcileOrder_byRounds books now _) ?_
  refine .get_bind trivial ?_
  simp only [hb.get_takeProfit, hb.takeProfit.orderKind, Family.takeProfitRound]
  cases books f.takeProfit.marketId with
  | none => exact ⟨hb.stores, rfl⟩
  | some data =>
    obtain ⟨hentry, hown, hsibling⟩ :=
      reconcileChild_siblings (hb.siblings_takeProfit h.related) data now
    exact ⟨trivial, ⟨hentry, hown, hsibling⟩, rfl⟩

/-- The round of the stop-loss child. -/
lemma reconcileOrder_stopLoss (h : w.state.FamilyAt e g f) :
    Ends (fun _ w' => w'.state.FamilyAt e g (f.stopLossRound books now) ∧ w'.trace = w.trace)
      (reconcileOrder cfg books now (g + 2)) w := by
  have hb := h.family
  refine h.ends (fun _ _ hround => hround.change) (reconcileOrder_byRounds books now _) ?_
  refine .get_bind trivial ?_
  simp only [hb.get_stopLoss, hb.stopLoss.orderKind, Family.stopLossRound]
  cases books f.stopLoss.marketId with
  | none => exact ⟨hb.stores, rfl⟩
  | some data =>
    obtain ⟨hentry, hown, hsibling⟩ :=
      reconcileChild_siblings (hb.siblings_stopLoss h.related) data now
    exact ⟨trivial, ⟨hentry, hsibling, hown⟩, rfl⟩

/-- A pass does to a family what `Family.reconciled` says. -/
theorem reconcileOrders_family (cfg : Config) (books : MarketBooks) (now : Time)
    (h : s.FamilyAt e g f) (hs : s.Ordered) (ω : Oracle Request Reply) :
    ((reconcileOrders cfg books now).run ω s).state.FamilyAt e g
      (f.reconciled cfg books now
        (reportedRows e ((reconcileOrders cfg books now).run ω s).trace)) := by
  have hpass : Ends (fun _ w' => w'.state.FamilyAt e g
      (f.reconciled cfg books now (reportedRows e w'.trace))) (reconcileOrders cfg books now)
      ⟨s, []⟩ := by
    refine .get_bind trivial (h.forEach hs (reportedRows e)
      (fun rows => f.entryRound cfg books now rows) (fun f' => f'.takeProfitRound books now)
      (fun f' => f'.stopLossRound books now) ?_ ?_ ?_ ?_)
    · exact reconcileOrder_others
    · exact reconcileOrder_entry
    · exact reconcileOrder_takeProfit
    · exact reconcileOrder_stopLoss
  have hend := hpass.run ω
  simp only [World.after_state, World.after_trace, List.nil_append] at hend
  exact hend

/-! ### Cancellations -/

lemma CancelOf.change (h : CancelOf id s s') (cfg : Config) : Change cfg s s' :=
  .command h.routine.command

/-- Cancelling an order tells nothing about the others. -/
lemma AsksFor.cancelFailed_of_ne {kind : Request → Bool} {t : Trace} (h : AsksFor kind id t)
    (hne : id ≠ e) : cancelFailed e t = false := by
  rw [cancelFailed, List.any_eq_false]
  rintro ⟨q, r⟩ hx
  have hq : q.order = id := (h _ hx).1
  cases q with
  | cancel order exchangeId =>
    have hne' : order ≠ e := fun heq => hne (hq.symm.trans heq)
    cases r <;> simp [isCancelFailure, hne']
  | _ => simp [isCancelFailure]

lemma asks_nothing (id : OrderId) (trace : Trace) :
    ∃ t, trace = trace ++ t ∧ AsksFor Request.isCancel id t :=
  ⟨[], by simp, by simp⟩

/-- `cancel_order` asks about its order alone. -/
lemma cancelOrder_asks (id : OrderId) (w : ExecWorld) :
    Ends (fun _ w' => ∃ t, w'.trace = w.trace ++ t ∧ AsksFor Request.isCancel id t)
      (cancelOrder cfg id) w := by
  refine .get_bind trivial ?_
  cases w.state.orders.get? id with
  | none => exact asks_nothing id w.trace
  | some o =>
    dsimp only
    split_ifs
    · exact asks_nothing id w.trace
    · exact ⟨trivial, asks_nothing id w.trace⟩
    · refine (((cancelOnExchange_inquires id o.exchangeOrderIds).meets
        (fun _ _ _ => trivial) w)).bind ?_
      rintro ok w' ⟨_, t, htrace, hasks, _⟩
      rw [concludeCancel]
      split_ifs
      · exact ⟨trivial, t, htrace, hasks⟩
      · exact ⟨t, htrace, hasks⟩

lemma cancelIfOpen_asks (id : OrderId) (w : ExecWorld) :
    Ends (fun _ w' => ∃ t, w'.trace = w.trace ++ t ∧ AsksFor Request.isCancel id t)
      (cancelIfOpen cfg id) w := by
  refine .get_bind trivial ?_
  cases w.state.orders.get? id with
  | none => exact asks_nothing id w.trace
  | some o =>
    dsimp only
    split_ifs
    · refine (cancelOrder_asks id w).bind fun ok w' hw' => ?_
      split_ifs <;> exact hw'
    · exact asks_nothing id w.trace

lemma cancelIfExpired_asks (id : OrderId) (w : ExecWorld) :
    Ends (fun _ w' => ∃ t, w'.trace = w.trace ++ t ∧ AsksFor Request.isCancel id t)
      (cancelIfExpired cfg now id) w := by
  refine .get_bind trivial ?_
  cases w.state.orders.get? id with
  | none => exact asks_nothing id w.trace
  | some o =>
    dsimp only
    split_ifs
    · exact ⟨trivial, asks_nothing id w.trace⟩
    · exact asks_nothing id w.trace
    · refine (cancelOrder_asks id w).bind fun ok w' hw' => ?_
      split_ifs <;> exact hw'
    · exact asks_nothing id w.trace
    · exact asks_nothing id w.trace

/-- A cancellation of an order outside the family. -/
lemma cancel_others {α : Type} {p : Program α} (h : w.state.FamilyAt e g f)
    (hid : id ∉ [e, g + 1, g + 2]) (hsteps : BySteps (CancelOf id) (fun _ _ => True) p w)
    (hasks : Ends (fun _ w' => ∃ t, w'.trace = w.trace ++ t ∧ AsksFor Request.isCancel id t) p w) :
    Ends (fun _ w' => w'.state.FamilyAt e g f ∧ cancelFailed e w'.trace = cancelFailed e w.trace)
      p w := by
  have hne : id ≠ e := fun hid' => hid (by simp [hid'])
  refine ((hsteps.reaches (fun _ => .refl) .trans).and hasks).imp ?_
  rintro _ w' ⟨⟨_, hreach⟩, t, htrace, ht⟩
  refine ⟨Executor.FamilyAt.frame (fun _ _ hcancel => hcancel.change {}) ?_ h hid hreach,
    by simp [htrace, ht.cancelFailed_of_ne hne]⟩
  exact fun _ _ _ _ hcancel hapart hget => hcancel.frame hapart hget

/-- A cancellation of the order of `id` that ends with the three orders as `F` says. -/
lemma Executor.FamilyAt.cancel_ends {α : Type} {p : Program α} {F : ExecWorld → Family}
    {P : ExecWorld → Prop} (h : w.state.FamilyAt e g f)
    (hsteps : BySteps (CancelOf id) (fun _ _ => True) p w)
    (hp : Ends (fun _ w' => w'.state.Stores e g (F w') ∧ P w') p w) :
    Ends (fun _ w' => w'.state.FamilyAt e g (F w') ∧ P w') p w :=
  h.ends (fun _ _ hcancel => hcancel.change {}) hsteps hp

/-! The three orders after a local cancellation. -/

lemma cancelLocally_entry (hb : s.HasFamily e g f) :
    (cancelLocally e f.entry s).Stores e g
      { entry := { f.entry with status := .cancelled, bracketState := .cancelled }
        takeProfit := f.takeProfit.withdrawn
        stopLoss := f.stopLoss.withdrawn } := by
  have hchild : ∀ {c : OrderId} {o : Order}, c ∈ [g + 1, g + 2] → c ≠ e →
      f.entry.besideCancelled e c o = o.withdrawn := by
    intro c o hc hne
    rw [Order.besideCancelled, if_neg hne, Order.withdrawn, hb.ids]
    cases hfinal : o.status.isFinal <;> simp [hb.kind, hc]
  constructor
  · rw [get?_cancelLocally, hb.get, Option.map_some, Order.besideCancelled, if_pos rfl,
      if_pos hb.kind]
  · rw [get?_cancelLocally, hb.get_takeProfit, Option.map_some,
      hchild (by simp) hb.ne_takeProfit.symm]
  · rw [get?_cancelLocally, hb.get_stopLoss, Option.map_some,
      hchild (by simp) hb.ne_stopLoss.symm]

lemma cancelLocally_child {c : OrderId} {own : Order} (hkind : own.orderKind ≠ .entry) :
    cancelLocally c own s = s.setStatus c .cancelled := by
  simp [cancelLocally, hkind]

/-! The rounds of the family. -/

lemma cancelOrder_entry_stores (h : w.state.FamilyAt e g f)
    (hfailed : cancelFailed e w.trace = false) :
    Ends (fun _ w' => w'.state.Stores e g (f.cancelled cfg (cancelFailed e w'.trace)))
      (cancelOrder cfg e) w := by
  have hb := h.family
  refine .get_bind trivial ?_
  simp only [hb.get]
  split_ifs with hfinal hlocal
  · simpa [Family.cancelled, hfinal] using hb.stores
  · have hlocal' : f.entry.isPaper ∨ ¬ cfg.clobConnected := by simpa [hb.kind] using hlocal
    refine ⟨trivial, ?_⟩
    show (cancelLocally e f.entry w.state).Stores e g _
    rw [Family.cancelled, if_neg hfinal, if_pos hlocal']
    exact cancelLocally_entry hb
  · have hlocal' : ¬ (f.entry.isPaper ∨ ¬ cfg.clobConnected) := by simpa [hb.kind] using hlocal
    refine ((cancelOnExchange_inquires e _).meets (fun _ _ _ => trivial) w).bind ?_
    rintro ok w' ⟨hstate, t, htrace, _, hok, _⟩
    have hfailed' : cancelFailed e w'.trace = !ok := by simp [htrace, hfailed, hok]
    rw [concludeCancel]
    cases ok with
    | true =>
      rw [if_pos rfl]
      refine ⟨trivial, ?_⟩
      show ((w'.state.setStatus e .cancelled).setBracketState e .cancelled).Stores e g
        (f.cancelled cfg (cancelFailed e w'.trace))
      rw [hfailed', Family.cancelled, if_neg hfinal, if_neg hlocal', hstate,
        Executor.setBracketState, Executor.setStatus, Executor.modifyOrder_modifyOrder]
      have hsame : w.state.modifyOrder e (fun o =>
          { o with status := .cancelled, bracketState := .cancelled }) =
          w.state.modifyOrder e fun _ =>
            { f.entry with status := .cancelled, bracketState := .cancelled } :=
        Executor.modifyOrder_congr fun o ho => by rw [Option.some.inj (ho.symm.trans hb.get)]
      rw [hsame]
      exact Executor.HasFamily.assign hb _
    | false =>
      show w'.state.Stores e g (f.cancelled cfg (cancelFailed e w'.trace))
      rw [hfailed', Family.cancelled, if_neg hfinal, if_neg hlocal', hstate]
      exact hb.stores

/-- A local cancellation of a child, for the take-profit and the stop-loss. -/
lemma setStatus_takeProfit (hb : s.HasFamily e g f) (status : OrderStatus) :
    (s.setStatus (g + 1) status).Stores e g
      { f with takeProfit := { f.takeProfit with status } } := by
  constructor <;> simp [Executor.setStatus, Executor.get?_modifyOrder, hb.get, hb.get_takeProfit,
    hb.get_stopLoss, hb.ne_takeProfit]

lemma setStatus_stopLoss (hb : s.HasFamily e g f) (status : OrderStatus) :
    (s.setStatus (g + 2) status).Stores e g { f with stopLoss := { f.stopLoss with status } } := by
  constructor <;> simp [Executor.setStatus, Executor.get?_modifyOrder, hb.get, hb.get_takeProfit,
    hb.get_stopLoss, hb.ne_stopLoss]

lemma cancelOrder_takeProfit_stores (h : w.state.FamilyAt e g f) :
    Ends (fun _ w' => w'.state.Stores e g { f with takeProfit := f.takeProfit.withdrawn } ∧
      w'.trace = w.trace) (cancelOrder cfg (g + 1)) w := by
  have hb := h.family
  have hkind : f.takeProfit.orderKind ≠ .entry := by simp [hb.takeProfit.orderKind]
  refine .get_bind trivial ?_
  simp only [hb.get_takeProfit]
  split_ifs with hfinal hlocal
  · rw [Order.withdrawn, if_pos hfinal]
    exact ⟨hb.stores, rfl⟩
  · refine ⟨trivial, ?_, rfl⟩
    show (cancelLocally (g + 1) f.takeProfit w.state).Stores e g _
    rw [cancelLocally_child hkind, Order.withdrawn, if_neg hfinal]
    exact setStatus_takeProfit hb .cancelled
  · exact absurd (Or.inr (Or.inr hkind)) hlocal

lemma cancelOrder_stopLoss_stores (h : w.state.FamilyAt e g f) :
    Ends (fun _ w' => w'.state.Stores e g { f with stopLoss := f.stopLoss.withdrawn } ∧
      w'.trace = w.trace) (cancelOrder cfg (g + 2)) w := by
  have hb := h.family
  have hkind : f.stopLoss.orderKind ≠ .entry := by simp [hb.stopLoss.orderKind]
  refine .get_bind trivial ?_
  simp only [hb.get_stopLoss]
  split_ifs with hfinal hlocal
  · rw [Order.withdrawn, if_pos hfinal]
    exact ⟨hb.stores, rfl⟩
  · refine ⟨trivial, ?_, rfl⟩
    show (cancelLocally (g + 2) f.stopLoss w.state).Stores e g _
    rw [cancelLocally_child hkind, Order.withdrawn, if_neg hfinal]
    exact setStatus_stopLoss hb .cancelled
  · exact absurd (Or.inr (Or.inr hkind)) hlocal

lemma OrderStatus.isOpen_eq (status : OrderStatus) : status.isOpen = !status.isFinal := by
  cases status <;> rfl

/-- A round of `cancel_all_open_orders` cancels its order. -/
lemma cancelIfOpen_ends {P : ExecWorld → Prop} {o : Order} (hget : w.state.orders.get? id = some o)
    (hcancel : Ends (fun _ => P) (cancelOrder cfg id) w) (hfinal : o.status.isFinal = true → P w) :
    Ends (fun _ => P) (cancelIfOpen cfg id) w := by
  refine .get_bind trivial ?_
  simp only [hget]
  split_ifs with hopen
  · refine hcancel.bind fun ok w' hw' => ?_
    split_ifs <;> exact hw'
  · exact hfinal (by simpa [OrderStatus.isOpen_eq] using hopen)

/-- A round of `cancel_expired_orders` for an order that is not armed cancels it for its age. -/
lemma cancelIfExpired_ends {P : ExecWorld → Prop} {o : Order}
    (hget : w.state.orders.get? id = some o) (harmed : o.status ≠ .armed)
    (hcancel : minutes cfg.orderExpiryMinutes < now - o.timestamp →
      Ends (fun _ => P) (cancelOrder cfg id) w)
    (hstays : ¬ minutes cfg.orderExpiryMinutes < now - o.timestamp ∨ o.status.isFinal = true → P w) :
    Ends (fun _ => P) (cancelIfExpired cfg now id) w := by
  refine .get_bind trivial ?_
  simp only [hget, if_neg harmed]
  split_ifs with hopen hage
  · refine (hcancel hage).bind fun ok w' hw' => ?_
    split_ifs <;> exact hw'
  · exact hstays (Or.inl hage)
  · exact hstays (Or.inr (by simpa [OrderStatus.isOpen_eq] using hopen))

/-- A round of `cancel_expired_orders` for a child lets it lapse. -/
lemma cancelIfExpired_child {P : ExecWorld → Prop} {o : Order}
    (hget : w.state.orders.get? id = some o) (hwhole : o.Whole)
    (hlapsed : o.status = .armed ∧ o.isPastExpiry now = true →
      P (w.update (·.setStatus id .expired)))
    (hstays : ¬ (o.status = .armed ∧ o.isPastExpiry now = true) → P w) :
    Ends (fun _ => P) (cancelIfExpired cfg now id) w := by
  refine .get_bind trivial ?_
  simp only [hget]
  by_cases harmed : o.status = .armed
  · have hopen : OrderStatus.armed.isOpen = true := rfl
    simp only [harmed, hopen, not_true_eq_false, if_false, if_true]
    split_ifs with hpast
    · exact ⟨trivial, hlapsed ⟨harmed, hpast⟩⟩
    · exact hstays fun h => hpast h.2
  · -- a child that is not armed is final
    have hclosed : ¬ o.status.isOpen = true := by
      obtain ⟨hplaced, hpartial⟩ := hwhole.status
      cases hstatus : o.status <;> simp_all [OrderStatus.isOpen]
    rw [if_pos hclosed]
    exact hstays fun h => harmed h.1

/-! The rounds of `cancel_all_open_orders`. -/

lemma cancelIfOpen_entry (h : w.state.FamilyAt e g f) (hfailed : cancelFailed e w.trace = false) :
    Ends (fun _ w' => w'.state.FamilyAt e g (f.cancelled cfg (cancelFailed e w'.trace)))
      (cancelIfOpen cfg e) w := by
  have hcancel : Ends (fun _ w' => w'.state.Stores e g
      (f.cancelled cfg (cancelFailed e w'.trace)) ∧ True) (cancelIfOpen cfg e) w := by
    refine cancelIfOpen_ends h.family.get ?_ fun hfinal => ⟨?_, trivial⟩
    · exact (cancelOrder_entry_stores h hfailed).imp fun _ _ hw' => ⟨hw', trivial⟩
    · rw [Family.cancelled, if_pos hfinal]
      exact h.family.stores
  exact (h.cancel_ends (cancelIfOpen_byCancels e) hcancel).imp fun _ _ hw' => hw'.1

lemma cancelIfOpen_takeProfit (h : w.state.FamilyAt e g f) :
    Ends (fun _ w' => w'.state.FamilyAt e g { f with takeProfit := f.takeProfit.withdrawn } ∧
      w'.trace = w.trace) (cancelIfOpen cfg (g + 1)) w := by
  refine h.cancel_ends (cancelIfOpen_byCancels _) (cancelIfOpen_ends h.family.get_takeProfit
    (cancelOrder_takeProfit_stores h) fun hfinal => ?_)
  rw [Order.withdrawn, if_pos hfinal]
  exact ⟨h.family.stores, rfl⟩

lemma cancelIfOpen_stopLoss (h : w.state.FamilyAt e g f) :
    Ends (fun _ w' => w'.state.FamilyAt e g { f with stopLoss := f.stopLoss.withdrawn } ∧
      w'.trace = w.trace) (cancelIfOpen cfg (g + 2)) w := by
  refine h.cancel_ends (cancelIfOpen_byCancels _) (cancelIfOpen_ends h.family.get_stopLoss
    (cancelOrder_stopLoss_stores h) fun hfinal => ?_)
  rw [Order.withdrawn, if_pos hfinal]
  exact ⟨h.family.stores, rfl⟩

/-- `cancel_all_open_orders` does to a family what `Family.allCancelled` says. -/
theorem cancelAllOpenOrders_family (cfg : Config) (h : s.FamilyAt e g f) (hs : s.Ordered)
    (ω : Oracle Request Reply) :
    ((cancelAllOpenOrders cfg).run ω s).state.FamilyAt e g
      (f.allCancelled cfg (cancelFailed e ((cancelAllOpenOrders cfg).run ω s).trace)) := by
  have hpass : Ends (fun _ w' => w'.state.FamilyAt e g
      (f.allCancelled cfg (cancelFailed e w'.trace))) (cancelAllOpenOrders cfg) ⟨s, []⟩ := by
    refine .get_bind trivial (Meets.bind (h.forEach hs (cancelFailed e)
      (fun failed => f.cancelled cfg failed)
      (fun f' => { f' with takeProfit := f'.takeProfit.withdrawn })
      (fun f' => { f' with stopLoss := f'.stopLoss.withdrawn }) ?_ ?_ ?_ ?_) fun _ _ hw' => hw')
    · exact fun hw' hid => cancel_others hw' hid (cancelIfOpen_byCancels _) (cancelIfOpen_asks _ _)
    · exact cancelIfOpen_entry
    · exact cancelIfOpen_takeProfit
    · exact cancelIfOpen_stopLoss
  have hend := hpass.run ω
  simp only [World.after_state, World.after_trace, List.nil_append] at hend
  exact hend

/-! The rounds of `cancel_expired_orders`. -/

lemma cancelIfExpired_entry (h : w.state.FamilyAt e g f)
    (hfailed : cancelFailed e w.trace = false) :
    Ends (fun _ w' => w'.state.FamilyAt e g (f.aged cfg now (cancelFailed e w'.trace)))
      (cancelIfExpired cfg now e) w := by
  have hb := h.family
  have harmed : f.entry.status ≠ .armed := by
    intro harmed
    have hbracket := (h.related.accounted e f.entry hb.get).bracket_of_armed harmed
    rw [hb.kind] at hbracket
    cases hbracket
  have hcancel : Ends (fun _ w' => w'.state.Stores e g
      (f.aged cfg now (cancelFailed e w'.trace)) ∧ True) (cancelIfExpired cfg now e) w := by
    refine cancelIfExpired_ends hb.get harmed (fun hage => ?_) fun hstays => ⟨?_, trivial⟩
    · refine (cancelOrder_entry_stores h hfailed).imp fun _ _ hw' => ⟨?_, trivial⟩
      rw [Family.aged, if_pos hage]
      exact hw'
    · have hsame : f.aged cfg now (cancelFailed e w.trace) = f := by
        rw [Family.aged]
        rcases hstays with hyoung | hfinal
        · exact if_neg hyoung
        · rw [Family.cancelled, if_pos hfinal, ite_self]
      rw [hsame]
      exact hb.stores
  exact (h.cancel_ends (cancelIfExpired_byCancels now e) hcancel).imp fun _ _ hw' => hw'.1

lemma cancelIfExpired_takeProfit (h : w.state.FamilyAt e g f) :
    Ends (fun _ w' => w'.state.FamilyAt e g { f with takeProfit := f.takeProfit.lapsed now } ∧
      w'.trace = w.trace) (cancelIfExpired cfg now (g + 1)) w := by
  have hb := h.family
  have hwhole : f.takeProfit.Whole :=
    h.whole _ _ hb.get_takeProfit (by rw [hb.takeProfit.orderKind]; rfl)
  refine h.cancel_ends (cancelIfExpired_byCancels now _) (cancelIfExpired_child hb.get_takeProfit
    hwhole (fun hpast => ⟨?_, rfl⟩) fun hstays => ⟨?_, rfl⟩)
  · rw [Order.lapsed, if_pos hpast]
    exact setStatus_takeProfit hb .expired
  · rw [Order.lapsed, if_neg hstays]
    exact hb.stores

lemma cancelIfExpired_stopLoss (h : w.state.FamilyAt e g f) :
    Ends (fun _ w' => w'.state.FamilyAt e g { f with stopLoss := f.stopLoss.lapsed now } ∧
      w'.trace = w.trace) (cancelIfExpired cfg now (g + 2)) w := by
  have hb := h.family
  have hwhole : f.stopLoss.Whole :=
    h.whole _ _ hb.get_stopLoss (by rw [hb.stopLoss.orderKind]; rfl)
  refine h.cancel_ends (cancelIfExpired_byCancels now _) (cancelIfExpired_child hb.get_stopLoss
    hwhole (fun hpast => ⟨?_, rfl⟩) fun hstays => ⟨?_, rfl⟩)
  · rw [Order.lapsed, if_pos hpast]
    exact setStatus_stopLoss hb .expired
  · rw [Order.lapsed, if_neg hstays]
    exact hb.stores

/-- `cancel_expired_orders` does to a family what `Family.expired` says. -/
theorem cancelExpiredOrders_family (cfg : Config) (now : Time) (h : s.FamilyAt e g f)
    (hs : s.Ordered) (ω : Oracle Request Reply) :
    ((cancelExpiredOrders cfg now).run ω s).state.FamilyAt e g
      (f.expired cfg now (cancelFailed e ((cancelExpiredOrders cfg now).run ω s).trace)) := by
  have hpass : Ends (fun _ w' => w'.state.FamilyAt e g
      (f.expired cfg now (cancelFailed e w'.trace))) (cancelExpiredOrders cfg now) ⟨s, []⟩ := by
    refine .get_bind trivial (h.forEach hs (cancelFailed e) (fun failed => f.aged cfg now failed)
      (fun f' => { f' with takeProfit := f'.takeProfit.lapsed now })
      (fun f' => { f' with stopLoss := f'.stopLoss.lapsed now }) ?_ ?_ ?_ ?_)
    · exact fun hw' hid =>
        cancel_others hw' hid (cancelIfExpired_byCancels now _) (cancelIfExpired_asks _ _)
    · exact cancelIfExpired_entry
    · exact cancelIfExpired_takeProfit
    · exact cancelIfExpired_stopLoss
  have hend := hpass.run ω
  simp only [World.after_state, World.after_trace, List.nil_append] at hend
  exact hend

/-! ### Placing, closing and cancelling one order -/

lemma fillOnPlace_keeps {env : Ambient} {req : PlaceRequest} {j : OrderId} {x : Order}
    (hnew : s.orders.get? id = some (buildEntryOrder cfg env req id)) (hne : j ≠ id)
    (hget : s.orders.get? j = some x) : (fillOnPlace cfg env req id s).orders.get? j = some x := by
  have hfilled : (s.modifyOrder id (·.applyFill req.sizeUsdc
      (limitPrice req.direction req.price) env.now)).orders.get? j = some x := by
    rwa [Executor.get?_modifyOrder_of_ne s hne]
  rw [fillOnPlace]
  split_ifs
  · dsimp only
    cases req.bracket cfg with
    | none => exact hfilled
    | some spec =>
      apply (armBracketOrders_armings spec env.now id _).frame hfilled hne
      intro parent hparent
      rw [Executor.get?_modifyOrder_self, hnew, Option.map_some, Option.some.injEq] at hparent
      rw [← hparent, Order.applyFill_bracketOrderIds, buildEntryOrder_eq]
      exact List.not_mem_nil
  · exact hget

lemma submitEntry_keeps {env : Ambient} {req : PlaceRequest} {j : OrderId} {x : Order}
    (hne : j ≠ id) (hget : w.state.orders.get? j = some x) :
    Ends (fun _ w' => w'.state.orders.get? j = some x) (submitEntry cfg env req id) w := by
  have hassign : ∀ {s' : Executor} (F : Order → Order), s'.orders.get? j = some x →
      (s'.modifyOrder id F).orders.get? j = some x := by
    intro s' F h
    rwa [Executor.get?_modifyOrder_of_ne s' hne]
  have hpersist : (persistOrderIntent env w.state.nextId req w.state.takeId).2.orders.get? j =
      some x := by rwa [orders_persistOrderIntent]
  apply Meets.modifyGet_bind trivial
  split_ifs
  · apply ((submitChunks_inquires cfg req id).meets (fun _ _ _ => trivial) _).bind
    rintro result w' ⟨hstate, _⟩
    have hget' : w'.state.orders.get? j = some x := by
      rw [hstate]
      exact hpersist
    cases result with
    | ok exchangeIds => exact ⟨trivial, hassign _ hget'⟩
    | error err => exact ⟨trivial, hassign _ hget'⟩
  · exact ⟨trivial, hassign _ hpersist⟩

/-- A placement leaves the orders alone that are there. -/
lemma placeOrder_keeps {env : Ambient} {req : PlaceRequest} {j : OrderId} {x : Order}
    (hget : w.state.orders.get? j = some x) :
    Ends (fun _ w' => w'.state.orders.get? j = some x) (placeOrder cfg env req) w := by
  have hget' : (preflight cfg env req w.state).2.orders.get? j = some x := by
    rwa [orders_preflight cfg env req w.state]
  have hne : j ≠ (preflight cfg env req w.state).2.nextId := (Executor.lt_nextId hget').ne
  have hnew := get?_openEntry cfg env req (preflight cfg env req w.state).2
  have hopened : (openEntry cfg env req (preflight cfg env req w.state).2).2.orders.get? j =
      some x := Executor.get?_insertOrder_of_some hget' _
  apply Meets.modifyGet_bind trivial
  split_ifs with haccepted hpaper
  · exact .modifyGet_bind trivial ⟨trivial, fillOnPlace_keeps hnew hne hopened⟩
  · exact .modifyGet_bind trivial (submitEntry_keeps hne hopened)
  · exact hget'

lemma closePosition_keeps {env : Ambient} {req : CloseRequest} {j : OrderId} {x : Order}
    (hget : w.state.orders.get? j = some x) :
    Ends (fun _ w' => w'.state.orders.get? j = some x) (closePosition cfg env req) w := by
  have hne : j ≠ w.state.nextId := (Executor.lt_nextId hget).ne
  have hassign : ∀ {s' : Executor} (F : Order → Order), s'.orders.get? j = some x →
      (s'.modifyOrder w.state.nextId F).orders.get? j = some x := by
    intro s' F h
    rwa [Executor.get?_modifyOrder_of_ne s' hne]
  have hopened := Executor.get?_insertOrder_of_some hget (buildExitOrder cfg env req)
  rw [closePosition]
  split_ifs
  · exact hget
  · exact .modifyGet_bind trivial ⟨trivial, hassign _ hopened⟩
  · apply Meets.modifyGet_bind trivial
    apply Meets.ask_bind
    rintro r w' rfl
    refine ⟨trivial, ?_⟩
    match r with
    | .ok response =>
      dsimp only
      cases response.exchangeId? with
      | none => exact hopened
      | some exchangeId => exact ⟨trivial, hassign _ hopened⟩
    | .error err => exact ⟨trivial, hassign _ hopened⟩

/-- `cancel_order`, as it concerns a family. -/
lemma cancelOrder_family (cfg : Config) (h : w.state.FamilyAt e g f)
    (hfailed : cancelFailed e w.trace = false) (id : OrderId) :
    Ends (fun _ w' => w'.state.FamilyAt e g
      (if id = e then f.cancelled cfg (cancelFailed e w'.trace)
        else if id = g + 1 then { f with takeProfit := f.takeProfit.withdrawn }
        else if id = g + 2 then { f with stopLoss := f.stopLoss.withdrawn }
        else f)) (cancelOrder cfg id) w := by
  by_cases he : id = e
  · subst he
    simp only [if_true]
    apply ((h.cancel_ends (cancelOrder_byCancels id) ((cancelOrder_entry_stores h hfailed).imp
      fun _ _ hw' => ⟨hw', trivial⟩)).imp)
    exact fun _ _ hw' => hw'.1
  simp only [if_neg he]
  by_cases htp : id = g + 1
  · subst htp
    simp only [if_true]
    apply (h.cancel_ends (cancelOrder_byCancels _) (cancelOrder_takeProfit_stores h)).imp
    exact fun _ _ hw' => hw'.1
  simp only [if_neg htp]
  by_cases hsl : id = g + 2
  · subst hsl
    simp only [if_true]
    apply (h.cancel_ends (cancelOrder_byCancels _) (cancelOrder_stopLoss_stores h)).imp
    exact fun _ _ hw' => hw'.1
  simp only [if_neg hsl]
  have hid : id ∉ [e, g + 1, g + 2] := by simp [he, htp, hsl]
  exact (cancel_others h hid (cancelOrder_byCancels id) (cancelOrder_asks id w)).imp
    fun _ _ hw' => hw'.1

/-! ### Calls -/

/-- The family `f` of `e`, in the group `g`, after a call that has left the answers of `trace`. -/
def Family.after (cfg : Config) (e : OrderId) (g : ℕ) (call : Call) (trace : Trace) (f : Family) :
    Family :=
  match call.op with
  | .placeOrder _ | .closePosition _ => f
  | .cancelOrder id =>
    if id = e then f.cancelled cfg (cancelFailed e trace)
    else if id = g + 1 then { f with takeProfit := f.takeProfit.withdrawn }
    else if id = g + 2 then { f with stopLoss := f.stopLoss.withdrawn }
    else f
  | .cancelAllOpenOrders => f.allCancelled cfg (cancelFailed e trace)
  | .cancelExpiredOrders => f.expired cfg call.env.now (cancelFailed e trace)
  | .reconcileOrders books => f.reconciled cfg books call.env.now (reportedRows e trace)

/-- A call leaves the state and the trace of the method it calls. -/
lemma Invocation.outcome_map {α : Type} {p : Program α} {F : α → OpResult} (cfg : Config)
    (i : Invocation) (s : Executor) (hp : i.call.program cfg = p.bind fun a => .pure (F a)) :
    (i.outcome cfg s).state = (p.run i.answers s).state ∧
      (i.outcome cfg s).trace = (p.run i.answers s).trace := by
  rw [outcome, hp, run_map]
  exact ⟨rfl, rfl⟩

/-- Every call does to every family what `Family.after` says. -/
theorem Invocation.perform_family (cfg : Config) (i : Invocation) (h : w.state.FamilyAt e g f)
    (hw : w.state.Ordered) :
    (i.perform cfg w).state.FamilyAt e g
      (f.after cfg e g i.call (i.outcome cfg w.state).trace) := by
  have hchanges := i.perform_changes cfg w
  obtain ⟨⟨op, env⟩, ω⟩ := i
  rw [Invocation.perform, World.after_state] at hchanges ⊢
  -- a call that leaves alone what is there
  have hkeeps : ∀ {α : Type} {p : Program α}, (∀ {j x}, w.state.orders.get? j = some x →
      Ends (fun _ w' => w'.state.orders.get? j = some x) p ⟨w.state, []⟩) →
      (p.run ω w.state).state.Stores e g f := by
    intro α p hp
    constructor
    · exact (hp h.family.get).run ω
    · exact (hp h.family.get_takeProfit).run ω
    · exact (hp h.family.get_stopLoss).run ω
  cases op with
  | placeOrder req =>
    apply h.step hchanges
    rw [(outcome_map cfg ⟨⟨.placeOrder req, env⟩, ω⟩ w.state rfl).1]
    exact hkeeps fun hget => placeOrder_keeps (w := ⟨w.state, []⟩) hget
  | closePosition req =>
    apply h.step hchanges
    rw [(outcome_map cfg ⟨⟨.closePosition req, env⟩, ω⟩ w.state rfl).1]
    exact hkeeps fun hget => closePosition_keeps (w := ⟨w.state, []⟩) hget
  | cancelOrder id =>
    obtain ⟨hstate, htrace⟩ := outcome_map cfg ⟨⟨.cancelOrder id, env⟩, ω⟩ w.state rfl
    rw [hstate, htrace]
    have hend := (cancelOrder_family cfg (w := ⟨w.state, []⟩) h rfl id).run ω
    simp only [World.after_state, World.after_trace, List.nil_append] at hend
    exact hend
  | cancelAllOpenOrders =>
    obtain ⟨hstate, htrace⟩ := outcome_map cfg ⟨⟨.cancelAllOpenOrders, env⟩, ω⟩ w.state rfl
    rw [hstate, htrace]
    exact cancelAllOpenOrders_family cfg h hw ω
  | cancelExpiredOrders =>
    obtain ⟨hstate, htrace⟩ := outcome_map cfg ⟨⟨.cancelExpiredOrders, env⟩, ω⟩ w.state rfl
    rw [hstate, htrace]
    exact cancelExpiredOrders_family cfg env.now h hw ω
  | reconcileOrders books =>
    obtain ⟨hstate, htrace⟩ :=
      outcome_map cfg ⟨⟨.reconcileOrders books, env⟩, ω⟩ w.state rfl
    rw [hstate, htrace]
    exact reconcileOrders_family cfg books env.now h hw ω

end PolyCortex
