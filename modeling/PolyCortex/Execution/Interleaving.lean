import PolyCortex.Coroutine.Pool
import PolyCortex.Execution.Cancellation

/-!
# Operations that interleave

The operations as tasks of one pool: at every await another task may run. `place_order` and
`reconcile_orders` hold `_order_lock` until they return; the cancel operations do not take it.

A reconciliation writes the status of an entry it has looked at before its awaits, and so does a
cancellation. A final status stays when every answer that is followed by such a write comes in time
(`interleave_final_absorbing`).
-/

namespace PolyCortex

open Coroutine Relation

abbrev ExecPool := Pool Call Executor Request Reply OpResult

abbrev ExecEvent := Event Call Request Reply

/-- The operations that hold `_order_lock`. -/
def Op.takesLock : Op → Bool
  | .placeOrder _ | .reconcileOrders _ => true
  | .cancelOrder _ | .cancelAllOpenOrders | .cancelExpiredOrders | .closePosition _ => false

/-- A call that needs the lock starts when no running call holds it. -/
def lockAdmits (running : List Call) (call : Call) : Bool :=
  !(call.op.takesLock && running.any (·.op.takesLock))

/-- No task is running. -/
def idle (w : ExecWorld) : ExecPool := ⟨w, [], []⟩

/-- The pool after a schedule. -/
def interleave (cfg : Config) (p : ExecPool) (schedule : List ExecEvent) : ExecPool :=
  p.run (Call.program cfg) lockAdmits schedule

/-- Every event of the schedule meets `C` in the pool it finds. -/
abbrev EventsMeet (cfg : Config) (C : ExecPool → ExecEvent → Prop) (p : ExecPool)
    (schedule : List ExecEvent) : Prop :=
  p.Along (Call.program cfg) lockAdmits C schedule

/-- The operations that look after the orders: reconciling and cancelling. -/
def Op.isUpkeep : Op → Bool
  | .reconcileOrders _ | .cancelOrder _ | .cancelAllOpenOrders | .cancelExpiredOrders => true
  | .placeOrder _ | .closePosition _ => false

/-- Nothing but reconciling and cancelling is started. -/
def StartsUpkeep : ExecEvent → Prop
  | .start call => call.op.isUpkeep = true
  | .answer _ _ => True

/-- The answer comes in time: a status while the entry is still open, a confirmed cancellation while
it is neither filled nor expired. -/
def inTime (s : Executor) : (q : Request) → Reply q → Bool
  | .status e _ _, _ => (s.orders.get? e).all fun o => !o.status.isFinal
  | .cancel e _, .ok () => (s.orders.get? e).all fun o => o.status ≠ .filled ∧ o.status ≠ .expired
  | .cancel _ _, .error _ => true
  | .balance _, _ | .gasPrice _, _ | .createAndPostOrder .., _ | .sleep _, _ => true

/-- Every answer of the schedule comes in time. -/
def AnswersInTime (p : ExecPool) : ExecEvent → Prop
  | .start _ => True
  | .answer n reply => ∀ t ∈ p.tasks[n]?, inTime p.world.state t.question (reply t.question) = true

instance (p : ExecPool) : (event : ExecEvent) → Decidable (AnswersInTime p event)
  | .start _ => isTrue trivial
  | .answer n reply =>
    inferInstanceAs (Decidable (∀ t ∈ p.tasks[n]?, inTime _ t.question (reply t.question) = true))

variable {cfg : Config} {w : ExecWorld}

/-! ### Contracts under interference -/

/-- Meanwhile there are effects, and the answer comes in time. -/
abbrev Meanwhile (cfg : Config) : Rely Executor Request Reply :=
  fun q r w w' => Effects cfg w.state w'.state ∧ inTime w'.state q r = true

/-- Under interference the program has effects only, and keeps the orders accounted for. -/
abbrev ByEffects {α : Type} (cfg : Config) (p : Program α) (w : ExecWorld) : Prop :=
  StepsUnder (Meanwhile cfg) (Effect cfg) (fun _ w' => w'.state.Accounted) p w

lemma Effects.accounted {s s' : Executor} (h : Effects cfg s s') (hs : s.Accounted) :
    s'.Accounted := (h.conserves hs).accounted

lemma byEffects_modify {α : Type} {u : Executor → Executor} {f : Unit → α}
    (hu : Effects cfg w.state (u w.state)) (hw : w.state.Accounted) :
    ByEffects cfg ((modify u).bind fun a => .pure (f a)) w :=
  bySteps_modify_bind hu (hu.accounted hw)

lemma byEffects_modifyGet {α : Type} {u : Update α} (hu : Effects cfg w.state (u w.state).2)
    (hw : w.state.Accounted) : ByEffects cfg (modifyGet u) w :=
  ⟨hu, hu.accounted hw⟩

lemma byEffects_forEach {α β : Type} {f : α → Program (List β)} {as : List α}
    (h : ∀ a w', w'.state.Accounted → ByEffects cfg (f a) w') (hw : w.state.Accounted) :
    ByEffects cfg (forEach f as) w :=
  Meets.forEach (I := fun w' => w'.state.Accounted) (fun a _ w' hw' => h a w' hw') hw

/-- What follows a part that only asks: the last answer has come in time, if there was one. -/
lemma byEffects_inquires_bind {α β : Type} {P : α → Trace → Prop} {p : Program α}
    {f : α → Program β} (hp : Inquires P p) (hw : w.state.Accounted)
    (hf : ∀ a t w', P a t → Effects cfg w.state w'.state → w'.state.Accounted →
      (t = [] ∧ w'.state = w.state ∨ ∃ x ∈ t, inTime w'.state x.1 x.2 = true) →
      ByEffects cfg (f a) w') : ByEffects cfg (p.bind f) w := by
  have hinquire := hp.meets_side (T := Effects cfg) (S := fun q r s => inTime s q r = true)
    (G := fun w w' => Effects cfg w.state w'.state) (fun _ => .refl) .trans (fun _ _ _ => .refl) w
  refine hinquire.bind fun a w' ⟨heffects, t, hP, hlast⟩ => ?_
  exact hf a t w' hP heffects (heffects.accounted hw) hlast

/-! ### The operations -/

/-- An entry that is cancelled, when it is neither filled nor expired. -/
lemma concludeCancel_effects {s : Executor} {id : OrderId}
    (hfree : (s.orders.get? id).all fun o => o.status ≠ .filled ∧ o.status ≠ .expired) :
    Effects cfg s ((s.setStatus id .cancelled).setBracketState id .cancelled) := by
  refine ReflTransGen.trans ?_ (setBracketState_effects id .cancelled)
  cases hget : s.orders.get? id with
  | none =>
    refine .single (.touch id _ fun o ho => ?_)
    rw [hget] at ho
    cases ho
  | some o =>
    rw [hget] at hfree
    simp at hfree
    by_cases hfinal : o.status.isFinal = true
    · have hcancelled : o.status = .cancelled := by
        cases hstatus : o.status <;> simp_all [OrderStatus.isFinal]
      refine .single (.touch id _ fun o' ho' => ?_)
      rw [hget] at ho'
      cases ho'
      rw [← hcancelled]
      exact .refl o
    · exact .single (.withdraw id o .cancelled hget (by simpa using hfinal) (Or.inl rfl))

lemma cancelOrder_byEffects (id : OrderId) (hw : w.state.Accounted) :
    ByEffects cfg (cancelOrder cfg id) w := by
  refine bySteps_get_bind ?_
  cases hget : w.state.orders.get? id with
  | none => exact hw
  | some o =>
    dsimp only
    split_ifs with hfinal hlocal
    · exact hw
    · exact byEffects_modify (cancelLocally_effects hget (by simpa using hfinal)) hw
    · refine byEffects_inquires_bind (cancelOnExchange_inquires id _) hw ?_
      rintro ok t w' ⟨hasks, hfailed, _⟩ _ hw' hlast
      unfold concludeCancel
      split_ifs with hok
      · refine byEffects_modify (concludeCancel_effects ?_) hw'
        rcases hlast with ⟨_, hstate⟩ | ⟨x, hx, htime⟩
        · rw [hstate, hget]
          simp at hfinal ⊢
          constructor <;> intro h <;> simp [h, OrderStatus.isFinal] at hfinal
        · obtain ⟨q, r⟩ := x
          obtain ⟨horder, hkind⟩ := hasks _ hx
          cases q with
          | cancel e exchangeId =>
            cases horder
            cases r with
            | ok done => exact htime
            | error err =>
              rw [hok, cancelFailed, Bool.not_true, List.any_eq_false] at hfailed
              exact absurd (by simp [isCancelFailure, Request.order]) (hfailed _ hx)
          | _ => cases hkind
      · exact hw'

lemma cancelIfOpen_byEffects (id : OrderId) (hw : w.state.Accounted) :
    ByEffects cfg (cancelIfOpen cfg id) w := by
  refine bySteps_get_bind ?_
  cases w.state.orders.get? id with
  | none => exact hw
  | some o =>
    dsimp only
    split_ifs
    · refine (cancelOrder_byEffects id hw).bind fun ok w' hw' => ?_
      split_ifs <;> exact hw'
    · exact hw

lemma cancelIfExpired_byEffects (now : Time) (id : OrderId) (hw : w.state.Accounted) :
    ByEffects cfg (cancelIfExpired cfg now id) w := by
  refine bySteps_get_bind ?_
  cases hget : w.state.orders.get? id with
  | none => exact hw
  | some o =>
    dsimp only
    split_ifs with hopen harmed hexpired hage
    · exact byEffects_modify
        (.single (.withdraw id o .expired hget (by rw [harmed]; rfl) (Or.inr rfl))) hw
    · exact hw
    · refine (cancelOrder_byEffects id hw).bind fun ok w' hw' => ?_
      split_ifs <;> exact hw'
    · exact hw
    · exact hw

/-- The rows of an entry, when their last answer has come in time. -/
lemma applyStatusRows_effects_inTime {s s' : Executor} {now : Time} {id : OrderId} {o : Order}
    {t : Trace} (hget : s.orders.get? id = some o) (hkind : o.orderKind = .entry)
    (heffects : Effects cfg s s') (hasks : AsksFor Request.isStatus id t)
    (hlast : t = [] ∨ ∃ x ∈ t, inTime s' x.1 x.2 = true) :
    Effects cfg s' (applyStatusRows cfg now id (reportedRows id t) s').2 := by
  obtain ⟨o', hget', hterms, _⟩ := heffects.follows id o hget
  rcases hlast with rfl | ⟨⟨q, r⟩, hx, htime⟩
  · simp only [applyStatusRows, hget', reportedRows_nil, if_true]
    exact .refl
  · obtain ⟨horder, hstatus⟩ := hasks _ hx
    cases q with
    | status e method exchangeId =>
      cases horder
      refine applyStatusRows_effects hget' (hterms.orderKind.trans hkind) ?_
      change (s'.orders.get? e).all (fun o => !o.status.isFinal) = true at htime
      have hopen : s'.orders.get? e = some o' := hget'
      simpa [hopen] using htime
    | _ => cases hstatus

lemma reconcileOrder_byEffects (books : MarketBooks) (now : Time) (id : OrderId)
    (hw : w.state.Accounted) : ByEffects cfg (reconcileOrder cfg books now id) w := by
  refine bySteps_get_bind ?_
  have hdeferred : ∀ w' : ExecWorld, w'.state.Accounted →
      ByEffects cfg (modifyGet (armDeferred cfg now id)) w' := fun w' hw' =>
    byEffects_modifyGet (armDeferred_effects now id) hw'
  cases hget : w.state.orders.get? id with
  | none => exact hw
  | some o =>
    dsimp only
    cases hkind : o.orderKind with
    | entry =>
      dsimp only
      split_ifs with hfinal
      · exact hw
      unfold reconcileEntry
      split_ifs with hlive hpaper
      · refine Meets.bind (Q := fun _ w' => w'.state.Accounted) ?_ fun _ w' hw' =>
          (hdeferred w' hw').bind fun _ _ h => h
        refine byEffects_inquires_bind (fetchStatusRows_inquires id _) hw ?_
        rintro rows t w' ⟨hasks, rfl, _⟩ heffects hw' hlast
        refine byEffects_modifyGet ?_ hw'
        exact applyStatusRows_effects_inTime hget hkind heffects hasks (hlast.imp_left And.left)
      · cases books o.marketId with
        | none => exact hw
        | some data =>
          have heffects : Effects cfg w.state (reconcilePaperEntry cfg data now id o w.state).2 :=
            reconcilePaperEntry_effects hw hget hkind hpaper.2
          refine bySteps_modifyGet_bind heffects ?_
          exact (hdeferred _ (heffects.accounted hw)).bind fun _ _ h => h
      · exact hdeferred w hw
    | exit => exact hw
    | takeProfit =>
      dsimp only
      cases books o.marketId with
      | none => exact hw
      | some data => exact byEffects_modifyGet (reconcileChild_effects hget (by rw [hkind]; rfl)) hw
    | stopLoss =>
      dsimp only
      cases books o.marketId with
      | none => exact hw
      | some data => exact byEffects_modifyGet (reconcileChild_effects hget (by rw [hkind]; rfl)) hw

/-- Reconciling and cancelling under interference. -/
lemma Call.byEffects (cfg : Config) (call : Call) (hop : call.op.isUpkeep = true)
    (hw : w.state.Accounted) : ByEffects cfg (call.program cfg) w := by
  obtain ⟨op, env⟩ := call
  cases op with
  | placeOrder req => cases hop
  | closePosition req => cases hop
  | cancelOrder id => exact (cancelOrder_byEffects id hw).bind fun _ _ h => h
  | cancelAllOpenOrders =>
    refine Meets.bind (Q := fun _ w' => w'.state.Accounted) ?_ fun _ _ h => h
    apply bySteps_get_bind
    exact (byEffects_forEach (fun id _ hw' => cancelIfOpen_byEffects id hw') hw).bind fun _ _ h => h
  | cancelExpiredOrders =>
    refine Meets.bind (Q := fun _ w' => w'.state.Accounted) ?_ fun _ _ h => h
    apply bySteps_get_bind
    exact byEffects_forEach (fun id _ hw' => cancelIfExpired_byEffects env.now id hw') hw
  | reconcileOrders books =>
    refine Meets.bind (Q := fun _ w' => w'.state.Accounted) ?_ fun _ _ h => h
    apply bySteps_get_bind
    exact byEffects_forEach (fun id _ hw' => reconcileOrder_byEffects books env.now id hw') hw

/-! ### Final statuses -/

/-- Every task has effects only, and no two tasks exclude each other. -/
def upkeepProtocol (cfg : Config) : Protocol Call Executor Request Reply OpResult where
  guarantee _ w w' := Effects cfg w.state w'.state
  apart _ _ := True
  side _ q r w := inTime w.state q r = true
  post _ _ _ := True
  inv _ w := w.state.Accounted
  apart_symm _ := trivial
  inv_guarantee hw _ h := h.accounted hw
  inv_finish hw _ := hw

lemma upkeepProtocol_steps {w' : ExecWorld} (h : (upkeepProtocol cfg).Steps w w') :
    Effects cfg w.state w'.state := by
  induction h with
  | refl => exact .refl
  | tail _ hstep ih =>
    obtain ⟨job, heffects⟩ := hstep
    exact ih.trans heffects

lemma upkeepProtocol_others {w' : ExecWorld} {job : Job Call Executor Request Reply}
    (h : (upkeepProtocol cfg).Others job w w') : Effects cfg w.state w'.state :=
  upkeepProtocol_steps (ReflTransGen.mono (fun _ _ ⟨job, _, h⟩ => ⟨job, h⟩) _ _ h)

/-- Every event whose answers come in time is as the protocol needs it. -/
lemma upkeep_eventMeets {p : ExecPool} (hp : p.Sound (upkeepProtocol cfg)) {event : ExecEvent}
    (hevent : AnswersInTime p event ∧ StartsUpkeep event) :
    Pool.EventMeets (upkeepProtocol cfg) (Call.program cfg) lockAdmits p event := by
  cases event with
  | start call =>
    intro _
    have hw : p.world.state.Accounted := hp.inv
    refine ⟨fun _ _ => trivial, hw, (call.byEffects cfg hevent.2 hw).mono ?_ ?_ ?_⟩
    · exact fun q r w w' ⟨hothers, htime⟩ => ⟨upkeepProtocol_others hothers, htime⟩
    · exact fun _ _ h => h
    · exact fun _ _ _ => trivial
  | answer n reply => exact hevent.1

lemma interleave_effects {p : ExecPool} (hp : p.Sound (upkeepProtocol cfg))
    {schedule : List ExecEvent} (h : EventsMeet cfg AnswersInTime p schedule)
    (hops : ∀ event ∈ schedule, StartsUpkeep event) :
    (interleave cfg p schedule).Sound (upkeepProtocol cfg) ∧
      Effects cfg p.world.state (interleave cfg p schedule).world.state := by
  obtain ⟨hsound, hsteps⟩ := Pool.run_sound
    (fun p hp event hevent => upkeep_eventMeets hp hevent) hp (h.and_mem hops)
  exact ⟨hsound, upkeepProtocol_steps hsteps⟩

/-- When the answers come in time, a final status is never left, whatever the interleaving of
reconciliations and cancellations and whatever the answers. -/
theorem interleave_final_absorbing (cfg : Config) (run : List Invocation)
    (schedule later : List ExecEvent)
    (hops : ∀ event ∈ schedule ++ later, StartsUpkeep event)
    (htime : EventsMeet cfg AnswersInTime (idle (runAll cfg run)) (schedule ++ later))
    (id : OrderId) (o : Order)
    (hget : (interleave cfg (idle (runAll cfg run)) schedule).world.state.orders.get? id = some o)
    (hfinal : o.status.isFinal = true) :
    ∃ o', (interleave cfg (idle (runAll cfg run)) (schedule ++ later)).world.state.orders.get? id =
        some o' ∧ o'.status = o.status := by
  have hidle : (idle (runAll cfg run)).Sound (upkeepProtocol cfg) := by
    refine ⟨by simp [idle], by simp [idle], ?_, by simp [idle]⟩
    exact runAll_accounted cfg run
  obtain ⟨hschedule, hlater⟩ := (Pool.along_append _ _ _ _).mp htime
  obtain ⟨hsound, _⟩ := interleave_effects hidle hschedule fun event hevent =>
    hops event (List.mem_append_left _ hevent)
  obtain ⟨_, heffects⟩ := interleave_effects hsound hlater fun event hevent =>
    hops event (List.mem_append_right _ hevent)
  obtain ⟨o', hget', _, hstatus⟩ := heffects.follows id o hget
  refine ⟨o', ?_, hstatus hfinal⟩
  rw [interleave, Pool.run_append]
  exact hget'

/-- An exchange that confirms cancellations and reports one status. -/
def replying (status : StatusReply) : (q : Request) → Reply q :=
  scripted (fun _ => .error .network) (fun _ => .ok ()) (fun _ => status) 0

/-- The exchange reports half of the entry filled. -/
def halfMatched : StatusReply :=
  .response (.dict [("status", .text "live"), ("size_matched", .num 5), ("avg_price", .num (1 / 2))])

def reconcileCall : Call := ⟨.reconcileOrders fun _ => none, { now := 1 }⟩

def cancelCall : Call := ⟨.cancelOrder 0, { now := 1 }⟩

/-- A cancellation while a pass waits for the status of the entry. -/
def cancelDuringPass : List ExecEvent :=
  [.start reconcileCall, .start cancelCall, .answer 1 (replying halfMatched)]

/-- The status of the order `id` in a pool. -/
def statusIn (p : ExecPool) (id : OrderId) : Option OrderStatus :=
  (p.world.state.orders.get? id).map (·.status)

/-- The theorem where the pass ends before the cancellation is confirmed. -/
theorem interleave_final_absorbing_confirmed :
    statusIn (interleave liveConfig (idle (runAll liveConfig acknowledgedEntry))
        [.start reconcileCall, .start cancelCall, .answer 0 (replying .failed),
          .answer 0 (replying .failed), .start reconcileCall]) 0 = some .cancelled := by
  have hsome : ((interleave liveConfig (idle (runAll liveConfig acknowledgedEntry))
      [.start reconcileCall, .start cancelCall, .answer 0 (replying .failed),
        .answer 0 (replying .failed)]).world.state.orders.get? 0).any
        (fun o => o.status = .cancelled) = true := by
    decide +kernel
  obtain ⟨o, hget, hstatus⟩ := (Option.any_eq_true _ _).mp hsome
  have hcancelled : o.status = .cancelled := of_decide_eq_true hstatus
  obtain ⟨o', hget', hstatus'⟩ := interleave_final_absorbing liveConfig acknowledgedEntry
    [.start reconcileCall, .start cancelCall, .answer 0 (replying .failed),
      .answer 0 (replying .failed)] [.start reconcileCall] (by simp [StartsUpkeep]; decide)
    (by decide +kernel) 0 o hget (by rw [hcancelled]; rfl)
  simp only [List.cons_append, List.nil_append] at hget'
  rw [statusIn, hget', Option.map_some, hstatus', hcancelled]

/-- The cancellation is confirmed, and then the pass writes the fill it has asked for before. -/
theorem interleave_final_overwritten :
    statusIn (interleave liveConfig (idle (runAll liveConfig acknowledgedEntry))
        cancelDuringPass) 0 = some .cancelled ∧
      statusIn (interleave liveConfig (idle (runAll liveConfig acknowledgedEntry))
        (cancelDuringPass ++ [.answer 0 (replying halfMatched)])) 0 = some .partiallyFilled :=
  ⟨by decide +kernel, by decide +kernel⟩

end PolyCortex
