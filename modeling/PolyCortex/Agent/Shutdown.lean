import PolyCortex.Agent.Emergency
import PolyCortex.Coroutine.Monitor
import PolyCortex.Execution.Cancellation

/-!
# Shutting down

At a signal `GracefulShutdown.execute` runs its hooks as a task next to the trading cycle; the first
hook cancels all open orders. The cycle is neither stopped nor awaited, and as `install` replaces the
handler that clears `_running`, further cycles may begin while the hooks run.

Once the hook is done nothing is open and nothing is placed any more, as long as no cycle opens an
order from the signal on, none waits for the exchange to take a chunk when the hook is done, and the
exchange confirms what the hook cancels (`shutdown_quiet`).
-/

namespace PolyCortex

open Coroutine (World Pool Task Job Event Meets)

variable {st : Settings}

/-! ### The tasks -/

inductive ShutdownTask where
  | cycle (input : CycleInput)
  /-- The `cancel_orders` hook. -/
  | cancelOrders

def ShutdownTask.isHook : ShutdownTask → Bool
  | .cycle _ => false
  | .cancelOrders => true

/-- `_shutdown_cancel_orders`. -/
def shutdownCancelOrders (st : Settings) : AgentProgram Unit := do
  let _ ← onExecutor (cancelAllOpenOrders st.cfg)
  pure ()

def ShutdownTask.program (st : Settings) : ShutdownTask → AgentProgram Unit
  | .cycle input => do
    let _ ← runCycle st input
    pure ()
  | .cancelOrders => shutdownCancelOrders st

/-- `run_forever` runs one cycle at a time. -/
def shutdownAdmits (running : List ShutdownTask) (task : ShutdownTask) : Bool :=
  task.isHook || running.all (·.isHook)

abbrev ShutdownPool := Pool ShutdownTask AgentState AgentRequest AgentReply Unit

abbrev ShutdownEvent := Event ShutdownTask AgentRequest AgentReply

abbrev AgentWorld := World AgentState AgentRequest AgentReply

/-- The request posts an order. -/
def AgentRequest.posts : AgentRequest → Bool
  | .exec (.createAndPostOrder ..) => true
  | .exec (.balance _) | .exec (.gasPrice _) | .exec (.sleep _) | .exec (.cancel _ _)
  | .exec (.status _ _ _) | .scan | .analyze => false

/-- A cancellation that is asked for is confirmed. -/
def confirmsRequest : (q : AgentRequest) → AgentReply q → Bool
  | .exec q, r => confirmsCancel q r
  | .scan, _ | .analyze, _ => true

namespace ShutdownPool

/-- The agent, before anything runs. -/
def atRest (a : AgentState) : ShutdownPool := ⟨⟨a, []⟩, [], []⟩

def step (st : Settings) (p : ShutdownPool) (event : ShutdownEvent) : ShutdownPool :=
  Pool.step (ShutdownTask.program st) shutdownAdmits p event

def run (st : Settings) (p : ShutdownPool) (schedule : List ShutdownEvent) : ShutdownPool :=
  Pool.run (ShutdownTask.program st) shutdownAdmits p schedule

/-- Every event of the schedule meets `C` in the pool it finds. -/
abbrev Along (st : Settings) (C : ShutdownPool → ShutdownEvent → Prop) (p : ShutdownPool)
    (schedule : List ShutdownEvent) : Prop :=
  Pool.Along (ShutdownTask.program st) shutdownAdmits C p schedule

/-- The orders, as they are now. -/
def executor (p : ShutdownPool) : Executor := p.world.state.executor

/-- The hook has completed. -/
def HookDone (p : ShutdownPool) : Prop := ∃ x ∈ p.finished, x.1.tag.isHook = true

/-- The signal has come. -/
def Signalled (p : ShutdownPool) : Prop :=
  (∃ t ∈ p.tasks, t.job.tag.isHook = true) ∨ p.HookDone

/-- A chunk is on its way to the exchange. -/
def Posting (p : ShutdownPool) : Prop := ∃ t ∈ p.tasks, t.question.posts = true

/-- From `p` on no order was placed, and there is none open. -/
structure Quiet (p p' : ShutdownPool) : Prop where
  closed : ∀ id o, p'.executor.orders.get? id = some o → o.status.isOpen = false
  placed : ∀ id, (p'.executor.orders.get? id).isSome = true → (p.executor.orders.get? id).isSome = true
  posted : p'.asked AgentRequest.posts = p.asked AgentRequest.posts

/-- A cycle runs on at the event. -/
def RunsCycle (p : ShutdownPool) : ShutdownEvent → Prop
  | .start task => task.isHook = false
  | .answer n _ => ∀ t ∈ p.tasks[n]?, t.job.tag.isHook = false

/-- The exchange confirms what a hook cancels. -/
def Confirms (p : ShutdownPool) : ShutdownEvent → Prop
  | .start _ => True
  | .answer n reply => ∀ t ∈ p.tasks[n]?, t.job.tag.isHook = true →
    confirmsRequest t.question (reply t.question) = true

/-- After the signal a cycle opens nothing, and the exchange confirms what the hook cancels; once the
hook is done no chunk is on its way. -/
def Undisturbed (st : Settings) (p : ShutdownPool) (event : ShutdownEvent) : Prop :=
  (p.Signalled → p.RunsCycle event → p.executor.Subsides (p.step st event).executor) ∧
    p.Confirms event ∧
      ((p.step st event).HookDone → ¬ (p.step st event).Posting)

/-! ### The hook -/

/-- What the hook relies on, guarantees and comes to. -/
abbrev HookRuns (body : AgentProgram Unit) (w : AgentWorld) : Prop :=
  Meets (fun q r w w' => w.state.executor.Subsides w'.state.executor ∧ confirmsRequest q r = true)
    (fun w w' => w.state.executor.Subsides w'.state.executor)
    (fun _ w' => ∀ id, w'.state.executor.Closes id) body w

lemma shutdownCancelOrders_runs (w : AgentWorld) : HookRuns (shutdownCancelOrders st) w := by
  have hcancels := Meets.zoom (R := fun q r w w' => w.state.executor.Subsides w'.state.executor ∧
      confirmsRequest q r = true) executorPart (S := fun q r s s' => s.Subsides s' ∧
      confirmsCancel q r = true) (T := Executor.Subsides) (Q := fun _ s => ∀ id, s.Closes id)
    (fun _ _ _ _ h => h) (w := w)
    (p := cancelAllOpenOrders st.cfg) (cancelAllOpenOrders_closes ⟨w.state.executor, []⟩)
  exact hcancels.bind fun _ w' h => h

/-- A hook that waits since some earlier moment. -/
def HookWaits (t : Task ShutdownTask AgentState AgentRequest AgentReply Unit) (now : AgentWorld) :
    Prop :=
  ∃ w : AgentWorld, w.state.executor.Subsides now.state.executor ∧
    HookRuns (.await t.question t.resume) w

/-- To its next question, the hook only closes orders. -/
lemma HookRuns.advance {body : AgentProgram Unit} {w : AgentWorld} (h : HookRuns body w) :
    let w' : AgentWorld := ⟨(body.advance w.state).2, w.trace⟩
    w.state.executor.Subsides w'.state.executor ∧
      (∀ a, (body.advance w.state).1 = .done a → ∀ id, w'.state.executor.Closes id) ∧
      ∀ q k, (body.advance w.state).1 = .waiting q k → HookRuns (.await q k) w' := by
  obtain ⟨hsteps, hpaused⟩ := Meets.advance h
  refine ⟨?_, fun a ha => ?_, fun q k hwaiting => ?_⟩
  · clear hpaused
    generalize (⟨(body.advance w.state).2, w.trace⟩ : AgentWorld) = w' at hsteps
    induction hsteps with
    | refl => exact .refl _
    | tail _ hstep ih => exact ih.trans hstep
  · rw [ha] at hpaused
    exact hpaused
  · rw [hwaiting] at hpaused
    exact hpaused

/-- The hooks that run fulfil their contract, and the one that is done has closed what was open. -/
structure Orderly (p : ShutdownPool) : Prop where
  waits : ∀ t ∈ p.tasks, t.job.tag.isHook = true → HookWaits t p.world
  closed : p.HookDone → ∀ id, p.executor.Closes id

/-- A task runs on next to others. -/
lemma settle_orderly {w : AgentWorld}
    {before after : List (Task ShutdownTask AgentState AgentRequest AgentReply Unit)}
    {finished : List (Job ShutdownTask AgentState AgentRequest AgentReply × Unit)}
    {job : Job ShutdownTask AgentState AgentRequest AgentReply} {body : AgentProgram Unit}
    (hothers : Orderly ⟨w, before ++ after, finished⟩)
    (hhook : job.tag.isHook = true → HookRuns body w)
    (hcycle : job.tag.isHook = false → Signalled ⟨w, before ++ after, finished⟩ →
      w.state.executor.Subsides (body.advance w.state).2.executor) :
    Orderly (Pool.settle w before after finished job body) ∧
      (job.tag.isHook = true ∨ Signalled ⟨w, before ++ after, finished⟩ →
        w.state.executor.Subsides
          (executor (Pool.settle w before after finished job body))) := by
  have hsubsides : job.tag.isHook = true ∨
      Signalled ⟨w, before ++ after, finished⟩ →
      w.state.executor.Subsides (body.advance w.state).2.executor := by
    cases htag : job.tag.isHook with
    | true => exact fun _ => (hhook htag).advance.1
    | false => exact fun h => hcycle htag (h.resolve_left (by simp))
  have hwaits : ∀ t ∈ before ++ after, t.job.tag.isHook = true →
      HookWaits t ⟨(body.advance w.state).2, w.trace⟩ := by
    intro t ht htag
    obtain ⟨v, hv, hruns⟩ := hothers.waits t ht htag
    exact ⟨v, hv.trans (hsubsides (Or.inr (Or.inl ⟨t, ht, htag⟩))), hruns⟩
  have hclosed : ∀ x ∈ finished, x.1.tag.isHook = true →
      ∀ id, (body.advance w.state).2.executor.Closes id := by
    intro x hx htag id
    have hdone : HookDone ⟨w, before ++ after, finished⟩ := ⟨x, hx, htag⟩
    exact (hothers.closed hdone id).subsides (hsubsides (Or.inr (Or.inr hdone)))
  rcases Pool.settle_cases w before after finished job body with
    ⟨a, hpaused, hsettle⟩ | ⟨q, k, hpaused, hsettle⟩
  · rw [hsettle]
    refine ⟨⟨hwaits, ?_⟩, hsubsides⟩
    rintro ⟨x, hx, htag⟩
    rcases List.mem_append.mp hx with hx | hx
    · exact hclosed x hx htag
    · rw [List.mem_singleton] at hx
      subst hx
      exact (hhook htag).advance.2.1 a hpaused
  · rw [hsettle]
    refine ⟨⟨?_, fun ⟨x, hx, htag⟩ => hclosed x hx htag⟩, hsubsides⟩
    intro t ht htag
    simp only [List.mem_append, List.mem_cons] at ht
    rcases ht with ht | rfl | ht
    · exact hwaits t (List.mem_append_left _ ht) htag
    · exact ⟨_, .refl _, (hhook htag).advance.2.2 q k hpaused⟩
    · exact hwaits t (List.mem_append_right _ ht) htag

/-! ### Steps -/

variable {p p' p'' : ShutdownPool} {event : ShutdownEvent}

lemma settle_executor (w : AgentWorld)
    (before after : List (Task ShutdownTask AgentState AgentRequest AgentReply Unit))
    (finished : List (Job ShutdownTask AgentState AgentRequest AgentReply × Unit))
    (job : Job ShutdownTask AgentState AgentRequest AgentReply) (body : AgentProgram Unit) :
    executor (Pool.settle w before after finished job body) =
      (body.advance w.state).2.executor := by
  rcases Pool.settle_cases w before after finished job body with
    ⟨a, -, hsettle⟩ | ⟨q, k, -, hsettle⟩ <;> rw [hsettle] <;> rfl

/-- At an event that disturbs nothing, what runs after the signal only closes orders. -/
lemma step_orderly (hp : p.Orderly) (hevent : p.Undisturbed st event) :
    (p.step st event).Orderly ∧
      (p.Signalled → p.executor.Subsides (p.step st event).executor) := by
  obtain ⟨hcycle, hconfirms, -⟩ := hevent
  cases event with
  | start task =>
    rw [step, Pool.step] at hcycle ⊢
    split_ifs at hcycle ⊢
    · rw [settle_executor] at hcycle
      have hrest : Orderly ⟨p.world, p.tasks ++ [], p.finished⟩ := by
        rwa [List.append_nil]
      refine And.imp_right (fun h hsignal => h (Or.inr ?signal)) (settle_orderly hrest ?hook ?cycle)
      case signal => rwa [List.append_nil]
      case hook =>
        intro htag
        cases task with
        | cycle input => contradiction
        | cancelOrders => exact shutdownCancelOrders_runs p.world
      case cycle =>
        rw [List.append_nil]
        exact fun htag hsignal => hcycle hsignal htag
    · exact ⟨hp, fun _ => .refl _⟩
  | answer n reply =>
    rw [step, Pool.step] at hcycle ⊢
    cases ht : p.tasks[n]? with
    | none => exact ⟨hp, fun _ => .refl _⟩
    | some t =>
      rw [ht] at hcycle
      dsimp only at hcycle ⊢
      rw [settle_executor] at hcycle
      have hmem : t ∈ p.tasks := List.mem_of_getElem? ht
      have hrest : Orderly ⟨p.world.answer t.question (reply t.question),
          p.tasks.take n ++ p.tasks.drop (n + 1), p.finished⟩ :=
        ⟨fun t' ht' htag => hp.waits t' (Pool.mem_tasks_of_others ht') htag, hp.closed⟩
      have hbegun : Signalled ⟨p.world.answer t.question (reply t.question),
          p.tasks.take n ++ p.tasks.drop (n + 1), p.finished⟩ → p.Signalled := by
        rintro (⟨t', ht', htag⟩ | hdone)
        · exact Or.inl ⟨t', Pool.mem_tasks_of_others ht', htag⟩
        · exact Or.inr hdone
      refine And.imp_right (fun h hsignal => h ?signal) (settle_orderly hrest ?hook ?cycle)
      case signal =>
        rcases hsignal with ⟨t', ht', htag⟩ | hdone
        · rw [Pool.tasks_split ht] at ht'
          simp only [List.mem_append, List.mem_cons] at ht'
          rcases ht' with ht' | rfl | ht'
          · exact Or.inr (Or.inl ⟨t', List.mem_append_left _ ht', htag⟩)
          · exact Or.inl htag
          · exact Or.inr (Or.inl ⟨t', List.mem_append_right _ ht', htag⟩)
        · exact Or.inr (Or.inr hdone)
      case hook =>
        intro htag
        obtain ⟨w, hw, hruns⟩ := hp.waits t hmem htag
        exact (hruns _ p.world ⟨hw, hconfirms t ht htag⟩).2
      case cycle =>
        intro htag hsignal
        refine hcycle (hbegun hsignal) fun t' ht' => ?_
        rw [ht, Option.mem_def, Option.some.injEq] at ht'
        exact ht' ▸ htag

/-- Once the hook is done, an event that disturbs nothing is quiet. -/
lemma step_quiet (hp : p.Orderly) (hevent : p.Undisturbed st event) (hdone : p.HookDone)
    (hposting : ¬ p.Posting) : p.Quiet (p.step st event) := by
  obtain ⟨horderly, hsubsides⟩ := step_orderly hp hevent
  obtain ⟨x, hx, htag⟩ := hdone
  have hdone' : (p.step st event).HookDone := ⟨x, p.finished_step event hx, htag⟩
  have hnone : ∀ {q : ShutdownPool}, ¬ q.Posting → ∀ t ∈ q.tasks, t.question.posts = false := by
    intro q hq t ht
    by_contra hposts
    exact hq ⟨t, ht, by simpa using hposts⟩
  constructor
  · exact fun id o hget => horderly.closed hdone' id o hget
  · intro id hid
    obtain ⟨o, hget⟩ := Option.isSome_iff_exists.mp hid
    obtain ⟨o', hget', -⟩ := hsubsides (Or.inr ⟨x, hx, htag⟩) id o hget
    rw [hget']
    rfl
  · exact Pool.asked_step event (hnone hposting) (hnone (hevent.2.2 hdone'))

lemma Quiet.trans (h : p.Quiet p') (h' : p'.Quiet p'') : p.Quiet p'' where
  closed := h'.closed
  placed id hid := h.placed id (h'.placed id hid)
  posted := h'.posted.trans h.posted

/-! ### Runs -/

lemma run_orderly (hp : p.Orderly) (hposting : p.HookDone → ¬ p.Posting)
    {schedule : List ShutdownEvent}
    (h : p.Along st (Undisturbed st) schedule) :
    (p.run st schedule).Orderly ∧ ((p.run st schedule).HookDone → ¬ (p.run st schedule).Posting) := by
  induction schedule generalizing p with
  | nil => exact ⟨hp, hposting⟩
  | cons event schedule ih => exact ih (step_orderly hp h.1).1 h.1.2.2 h.2

lemma run_quiet (hp : p.Orderly) (hdone : p.HookDone) (hposting : ¬ p.Posting)
    {schedule : List ShutdownEvent}
    (h : p.Along st (Undisturbed st) schedule) :
    p.Quiet (p.run st schedule) := by
  induction schedule generalizing p with
  | nil => exact ⟨hp.closed hdone, fun _ h => h, rfl⟩
  | cons event schedule ih =>
    obtain ⟨x, hx, htag⟩ := hdone
    have hdone' : (p.step st event).HookDone := ⟨x, p.finished_step event hx, htag⟩
    have hstep := step_quiet hp h.1 ⟨x, hx, htag⟩ hposting
    exact hstep.trans (ih (step_orderly hp h.1).1 hdone' (h.1.2.2 hdone') h.2)

lemma atRest_orderly (a : AgentState) : (atRest a).Orderly := by
  constructor
  · exact fun t ht => absurd ht List.not_mem_nil
  · exact fun ⟨x, hx, _⟩ => absurd hx List.not_mem_nil

instance : DecidablePred HookDone := fun p =>
  inferInstanceAs (Decidable (∃ x ∈ p.finished, x.1.tag.isHook = true))

instance : DecidablePred Signalled := fun p =>
  inferInstanceAs (Decidable ((∃ t ∈ p.tasks, t.job.tag.isHook = true) ∨ p.HookDone))

instance : DecidablePred Posting := fun p =>
  inferInstanceAs (Decidable (∃ t ∈ p.tasks, t.question.posts = true))

instance (p : ShutdownPool) : DecidablePred p.RunsCycle
  | .start task => inferInstanceAs (Decidable (task.isHook = false))
  | .answer n _ => inferInstanceAs (Decidable (∀ t ∈ p.tasks[n]?, t.job.tag.isHook = false))

instance (p : ShutdownPool) : DecidablePred p.Confirms
  | .start _ => isTrue trivial
  | .answer n reply => inferInstanceAs (Decidable (∀ t ∈ p.tasks[n]?, t.job.tag.isHook = true →
      confirmsRequest t.question (reply t.question) = true))

instance (st : Settings) (p : ShutdownPool) : DecidablePred (p.Undisturbed st) := fun _ =>
  inferInstanceAs (Decidable (_ ∧ _ ∧ _))

/-- An agent that trades on the exchange. -/
def boldLive : Settings := { bold with deployment := { bold.deployment with cfg := liveConfig } }

/-- The scan and the models fail, the exchange confirms a cancellation. -/
def confirming : (q : AgentRequest) → AgentReply q
  | .scan => none
  | .analyze => none
  | .exec (.cancel _ _) => .ok ()
  | .exec q => unreachable 0 q

/-- The signal comes while a cycle waits for the scan, with one order open. -/
def signalAtScan : List ShutdownEvent :=
  [.start (.cycle (cycleAt 0)), .start .cancelOrders, .answer 1 confirming]

/-- The signal comes while a placement waits for the balance. -/
def signalAtBalance : List ShutdownEvent :=
  [.start (.cycle (cycleAt 0)), .answer 0 (delivering [coinMarket] [headsEdge] 0),
    .answer 0 (delivering [coinMarket] [headsEdge] 0), .start .cancelOrders]

end ShutdownPool

end PolyCortex
