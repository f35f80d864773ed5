import Mathlib.Logic.Relation
import PolyCortex.Execution.Inquiries

/-!
# Runs of the executor

A run is a sequence of complete operations, each with the ambient readings and the answers it
gets. `Change` lists what one synchronous part of an operation does to the state, with what the
operation has checked before; every operation is a chain of changes (`Call.byChanges`), so an
invariant of the runs is proved once for each change (`runAll_induction`).
-/

namespace PolyCortex

open Coroutine Relation

abbrev ExecWorld := World Executor Request Reply

inductive Op where
  | placeOrder (req : PlaceRequest)
  | cancelOrder (orderId : OrderId)
  | cancelAllOpenOrders
  | cancelExpiredOrders
  | closePosition (req : CloseRequest)
  | reconcileOrders (books : MarketBooks)

/-- An operation called at some moment. -/
structure Call where
  op : Op
  env : Ambient

inductive OpResult where
  | order (orderId : Option OrderId)
  | flag (b : Bool)
  | count (n : ℕ)
  | ids (orderIds : List OrderId)
  | events (events : List OrderLifecycleEvent)

/-- The lifecycle events an operation reports: those of a reconciliation. -/
def OpResult.lifecycleEvents : OpResult → List OrderLifecycleEvent
  | .events reported => reported
  | .order _ | .flag _ | .count _ | .ids _ => []

def Call.program (cfg : Config) (call : Call) : Program OpResult :=
  match call.op with
  | .placeOrder req => .order <$> placeOrder cfg call.env req
  | .cancelOrder orderId => .flag <$> cancelOrder cfg orderId
  | .cancelAllOpenOrders => .count <$> cancelAllOpenOrders cfg
  | .cancelExpiredOrders => .ids <$> cancelExpiredOrders cfg call.env.now
  | .closePosition req => .order <$> closePosition cfg call.env req
  | .reconcileOrders books => .events <$> reconcileOrders cfg books call.env.now

/-- A call with the answers to everything it asks. -/
structure Invocation where
  call : Call
  answers : Oracle Request Reply

def Invocation.outcome (cfg : Config) (i : Invocation) (s : Executor) :
    Outcome Executor Request Reply OpResult :=
  (i.call.program cfg).run i.answers s

/-- The world after a complete operation. -/
def Invocation.perform (cfg : Config) (w : ExecWorld) (i : Invocation) : ExecWorld :=
  w.after (i.outcome cfg w.state)

def runFrom (cfg : Config) (w : ExecWorld) (run : List Invocation) : ExecWorld :=
  run.foldl (Invocation.perform cfg) w

/-- A run from the empty executor. -/
def runAll (cfg : Config) (run : List Invocation) : ExecWorld :=
  runFrom cfg ⟨.init, []⟩ run

/-- What a synchronous part of placing, cancelling or closing does to the state. -/
inductive Command (cfg : Config) (s : Executor) : Executor → Prop where
  | cleanup (now : Time) : Command cfg s (cleanupRecentPlacements cfg now s)
  | openEntry (env : Ambient) (req : PlaceRequest) (hvalid : validateOrder cfg env req = none) :
    Command cfg s (openEntry cfg env req s).2
  | fillOnPlace (env : Ambient) (req : PlaceRequest) (id : OrderId)
    (hvalid : validateOrder cfg env req = none)
    (hget : s.orders.get? id = some (buildEntryOrder cfg env req id))
    (hpaper : cfg.isPaper = true) : Command cfg s (fillOnPlace cfg env req id s)
  | persist (env : Ambient) (req : PlaceRequest) :
    Command cfg s (persistOrderIntent env s.nextId req s.takeId).2
  | abandon (id : OrderId) (o : Order) (hget : s.orders.get? id = some o)
    (hkind : o.orderKind = .entry ∨ o.orderKind = .exit) (hstatus : o.status = .placed) :
    Command cfg s (s.setStatus id .cancelled)
  | acknowledgeEntry (req : PlaceRequest) (exchangeIds : List ExchangeId) (id : OrderId)
    (o : Order) (hget : s.orders.get? id = some o) (hkind : o.orderKind = .entry) :
    Command cfg s (acknowledgeEntry cfg req id exchangeIds s)
  | cancelLocally (id : OrderId) (o : Order) (hget : s.orders.get? id = some o)
    (hopen : o.status.isFinal = false) : Command cfg s (cancelLocally id o s)
  | cancelConfirmed (id : OrderId) (o : Order) (hget : s.orders.get? id = some o)
    (hkind : o.orderKind = .entry) (hopen : o.status.isFinal = false) :
    Command cfg s ((s.setStatus id .cancelled).setBracketState id .cancelled)
  | expire (id : OrderId) (o : Order) (hget : s.orders.get? id = some o)
    (harmed : o.status = .armed) : Command cfg s (s.setStatus id .expired)
  | openExit (env : Ambient) (req : CloseRequest) (hsize : 0 < req.sizeUsdc) :
    Command cfg s (s.insertOrder (buildExitOrder cfg env req))
  | fillExit (env : Ambient) (req : CloseRequest) (id : OrderId) (hsize : 0 < req.sizeUsdc)
    (hget : s.orders.get? id = some (buildExitOrder cfg env req id)) (hpaper : cfg.isPaper = true) :
    Command cfg s (s.modifyOrder id (·.applyFill req.sizeUsdc (clampPrice req.price) env.now))
  | acknowledgeExit (id : OrderId) (exchangeId : ExchangeId) (o : Order)
    (hget : s.orders.get? id = some o) (hkind : o.orderKind = .exit) :
    Command cfg s (s.modifyOrder id fun o => { o with exchangeOrderIds := [exchangeId] })

/-- The commands that neither clean the deduplication cache nor open an entry. -/
inductive Routine (cfg : Config) (s : Executor) : Executor → Prop where
  | fillOnPlace (env : Ambient) (req : PlaceRequest) (id : OrderId)
    (hvalid : validateOrder cfg env req = none)
    (hget : s.orders.get? id = some (buildEntryOrder cfg env req id))
    (hpaper : cfg.isPaper = true) : Routine cfg s (fillOnPlace cfg env req id s)
  | persist (env : Ambient) (req : PlaceRequest) :
    Routine cfg s (persistOrderIntent env s.nextId req s.takeId).2
  | abandon (id : OrderId) (o : Order) (hget : s.orders.get? id = some o)
    (hkind : o.orderKind = .entry ∨ o.orderKind = .exit) (hstatus : o.status = .placed) :
    Routine cfg s (s.setStatus id .cancelled)
  | acknowledgeEntry (req : PlaceRequest) (exchangeIds : List ExchangeId) (id : OrderId)
    (o : Order) (hget : s.orders.get? id = some o) (hkind : o.orderKind = .entry) :
    Routine cfg s (acknowledgeEntry cfg req id exchangeIds s)
  | cancelLocally (id : OrderId) (o : Order) (hget : s.orders.get? id = some o)
    (hopen : o.status.isFinal = false) : Routine cfg s (cancelLocally id o s)
  | cancelConfirmed (id : OrderId) (o : Order) (hget : s.orders.get? id = some o)
    (hkind : o.orderKind = .entry) (hopen : o.status.isFinal = false) :
    Routine cfg s ((s.setStatus id .cancelled).setBracketState id .cancelled)
  | expire (id : OrderId) (o : Order) (hget : s.orders.get? id = some o)
    (harmed : o.status = .armed) : Routine cfg s (s.setStatus id .expired)
  | openExit (env : Ambient) (req : CloseRequest) (hsize : 0 < req.sizeUsdc) :
    Routine cfg s (s.insertOrder (buildExitOrder cfg env req))
  | fillExit (env : Ambient) (req : CloseRequest) (id : OrderId) (hsize : 0 < req.sizeUsdc)
    (hget : s.orders.get? id = some (buildExitOrder cfg env req id)) (hpaper : cfg.isPaper = true) :
    Routine cfg s (s.modifyOrder id (·.applyFill req.sizeUsdc (clampPrice req.price) env.now))
  | acknowledgeExit (id : OrderId) (exchangeId : ExchangeId) (o : Order)
    (hget : s.orders.get? id = some o) (hkind : o.orderKind = .exit) :
    Routine cfg s (s.modifyOrder id fun o => { o with exchangeOrderIds := [exchangeId] })

lemma Routine.command {cfg : Config} {s s' : Executor} (h : Routine cfg s s') :
    Command cfg s s' := by
  cases h with
  | fillOnPlace env req id hvalid hget hpaper => exact .fillOnPlace env req id hvalid hget hpaper
  | persist env req => exact .persist env req
  | abandon id o hget hkind hstatus => exact .abandon id o hget hkind hstatus
  | acknowledgeEntry req exchangeIds id o hget hkind =>
    exact .acknowledgeEntry req exchangeIds id o hget hkind
  | cancelLocally id o hget hopen => exact .cancelLocally id o hget hopen
  | cancelConfirmed id o hget hkind hopen => exact .cancelConfirmed id o hget hkind hopen
  | expire id o hget harmed => exact .expire id o hget harmed
  | openExit env req hsize => exact .openExit env req hsize
  | fillExit env req id hsize hget hpaper => exact .fillExit env req id hsize hget hpaper
  | acknowledgeExit id exchangeId o hget hkind => exact .acknowledgeExit id exchangeId o hget hkind

/-- What a synchronous part of an operation does to the state: a reconciliation fills, triggers,
expires and arms as well. -/
inductive Change (cfg : Config) (s : Executor) : Executor → Prop where
  | command {s' : Executor} (h : Command cfg s s') : Change cfg s s'
  | paperEntry (data : MarketData) (now : Time) (id : OrderId) (o : Order)
    (hget : s.orders.get? id = some o) (hkind : o.orderKind = .entry)
    (hstatus : o.status = .placed ∨ o.status = .partiallyFilled) (hpaper : o.isPaper = true) :
    Change cfg s (reconcilePaperEntry cfg data now id o s).2
  | deferred (now : Time) (id : OrderId) : Change cfg s (armDeferred cfg now id s).2
  | child (data : MarketData) (now : Time) (id : OrderId) (o : Order)
    (hget : s.orders.get? id = some o) (hkind : o.orderKind.isBracket = true) :
    Change cfg s (reconcileChild data now id o s).2
  | statusRows (now : Time) (id : OrderId) (rows : List StatusRow) (o : Order)
    (hget : s.orders.get? id = some o) (hkind : o.orderKind = .entry)
    (hopen : o.status.isFinal = false) (hlive : o.isPaper = false) :
    Change cfg s (applyStatusRows cfg now id rows s).2

/-- What a synchronous part of a pass over `books` does to the state. -/
inductive Round (cfg : Config) (books : MarketBooks) (now : Time) (s : Executor) :
    Executor → Prop where
  | paperEntry (data : MarketData) (id : OrderId) (o : Order)
    (hget : s.orders.get? id = some o) (hkind : o.orderKind = .entry)
    (hstatus : o.status = .placed ∨ o.status = .partiallyFilled) (hpaper : o.isPaper = true)
    (hdata : books o.marketId = some data) :
    Round cfg books now s (reconcilePaperEntry cfg data now id o s).2
  | deferred (id : OrderId) : Round cfg books now s (armDeferred cfg now id s).2
  | child (data : MarketData) (id : OrderId) (o : Order)
    (hget : s.orders.get? id = some o) (hkind : o.orderKind.isBracket = true)
    (hdata : books o.marketId = some data) :
    Round cfg books now s (reconcileChild data now id o s).2
  | statusRows (id : OrderId) (rows : List StatusRow) (o : Order)
    (hget : s.orders.get? id = some o) (hkind : o.orderKind = .entry)
    (hopen : o.status.isFinal = false) (hlive : o.isPaper = false) :
    Round cfg books now s (applyStatusRows cfg now id rows s).2

/-- A synchronous part of the round of the order `id`. -/
inductive RoundOf (cfg : Config) (books : MarketBooks) (now : Time) (id : OrderId) (s : Executor) :
    Executor → Prop where
  | paperEntry (data : MarketData) (o : Order)
    (hget : s.orders.get? id = some o) (hkind : o.orderKind = .entry)
    (hstatus : o.status = .placed ∨ o.status = .partiallyFilled) (hpaper : o.isPaper = true)
    (hdata : books o.marketId = some data) :
    RoundOf cfg books now id s (reconcilePaperEntry cfg data now id o s).2
  | deferred : RoundOf cfg books now id s (armDeferred cfg now id s).2
  | child (data : MarketData) (o : Order)
    (hget : s.orders.get? id = some o) (hkind : o.orderKind.isBracket = true)
    (hdata : books o.marketId = some data) :
    RoundOf cfg books now id s (reconcileChild data now id o s).2
  | statusRows (rows : List StatusRow) (o : Order)
    (hget : s.orders.get? id = some o) (hkind : o.orderKind = .entry)
    (hopen : o.status.isFinal = false) (hlive : o.isPaper = false) :
    RoundOf cfg books now id s (applyStatusRows cfg now id rows s).2

lemma RoundOf.round {cfg : Config} {books : MarketBooks} {now : Time} {id : OrderId}
    {s s' : Executor} (h : RoundOf cfg books now id s s') : Round cfg books now s s' := by
  cases h with
  | paperEntry data o hget hkind hstatus hpaper hdata =>
    exact .paperEntry data id o hget hkind hstatus hpaper hdata
  | deferred => exact .deferred id
  | child data o hget hkind hdata => exact .child data id o hget hkind hdata
  | statusRows rows o hget hkind hopen hlive => exact .statusRows id rows o hget hkind hopen hlive

lemma Round.change {cfg : Config} {books : MarketBooks} {now : Time} {s s' : Executor}
    (h : Round cfg books now s s') : Change cfg s s' := by
  cases h with
  | paperEntry data id o hget hkind hstatus hpaper hdata =>
    exact .paperEntry data now id o hget hkind hstatus hpaper
  | deferred id => exact .deferred now id
  | child data id o hget hkind hdata => exact .child data now id o hget hkind
  | statusRows id rows o hget hkind hopen hlive =>
    exact .statusRows now id rows o hget hkind hopen hlive

/-- A synchronous part of a cancellation of the order `id`. -/
inductive CancelOf (id : OrderId) (s : Executor) : Executor → Prop where
  | locally (o : Order) (hget : s.orders.get? id = some o) (hopen : o.status.isFinal = false) :
    CancelOf id s (cancelLocally id o s)
  | confirmed (o : Order) (hget : s.orders.get? id = some o) (hkind : o.orderKind = .entry)
    (hopen : o.status.isFinal = false) :
    CancelOf id s ((s.setStatus id .cancelled).setBracketState id .cancelled)
  | expire (o : Order) (hget : s.orders.get? id = some o) (harmed : o.status = .armed) :
    CancelOf id s (s.setStatus id .expired)

lemma CancelOf.routine {cfg : Config} {id : OrderId} {s s' : Executor} (h : CancelOf id s s') :
    Routine cfg s s' := by
  cases h with
  | locally o hget hopen => exact .cancelLocally id o hget hopen
  | confirmed o hget hkind hopen => exact .cancelConfirmed id o hget hkind hopen
  | expire o hget harmed => exact .expire id o hget harmed

/-- Chains of commands, of routine commands, of rounds and of changes. -/
abbrev Routines (cfg : Config) : Executor → Executor → Prop := ReflTransGen (Routine cfg)

abbrev Commands (cfg : Config) : Executor → Executor → Prop := ReflTransGen (Command cfg)

abbrev Rounds (cfg : Config) (books : MarketBooks) (now : Time) : Executor → Executor → Prop :=
  ReflTransGen (Round cfg books now)

abbrev Changes (cfg : Config) : Executor → Executor → Prop := ReflTransGen (Change cfg)

lemma Commands.changes {cfg : Config} {s s' : Executor} (h : Commands cfg s s') :
    Changes cfg s s' :=
  ReflTransGen.mono (fun _ _ => .command) _ _ h

lemma Rounds.changes {cfg : Config} {books : MarketBooks} {now : Time} {s s' : Executor}
    (h : Rounds cfg books now s s') : Changes cfg s s' :=
  ReflTransGen.mono (fun _ _ => Round.change) _ _ h

/-! ### Every operation is a chain of changes -/

section Contracts

variable {cfg : Config} {rely : Rely Executor Request Reply} {R : Executor → Executor → Prop}
  {α β : Type} {Q : β → ExecWorld → Prop} {w : ExecWorld}

/-- Every update of the program is a chain of steps of `R`. -/
abbrev StepsUnder (rely : Rely Executor Request Reply) (R : Executor → Executor → Prop)
    (Q : α → ExecWorld → Prop) (p : Program α) (w : ExecWorld) : Prop :=
  Meets rely (fun w w' => ReflTransGen R w.state w'.state) Q p w

/-- Alone, every update of the program is a chain of steps of `R`. -/
abbrev BySteps (R : Executor → Executor → Prop) (Q : α → ExecWorld → Prop) (p : Program α)
    (w : ExecWorld) : Prop :=
  StepsUnder Alone R Q p w

abbrev ByCommands (cfg : Config) (Q : α → ExecWorld → Prop) (p : Program α) (w : ExecWorld) : Prop :=
  BySteps (Command cfg) Q p w

abbrev ByRoutines (cfg : Config) (Q : α → ExecWorld → Prop) (p : Program α) (w : ExecWorld) : Prop :=
  BySteps (Routine cfg) Q p w

abbrev ByChanges (cfg : Config) (Q : α → ExecWorld → Prop) (p : Program α) (w : ExecWorld) : Prop :=
  BySteps (Change cfg) Q p w

lemma ByCommands.byChanges {Q : α → ExecWorld → Prop} {p : Program α}
    (h : ByCommands cfg Q p w) : ByChanges cfg Q p w :=
  h.mono (fun _ _ _ _ h => h) (fun _ _ h => Commands.changes h) fun _ _ h => h

lemma ByRoutines.byCommands {Q : α → ExecWorld → Prop} {p : Program α}
    (h : ByRoutines cfg Q p w) : ByCommands cfg Q p w :=
  h.mono (fun _ _ _ _ h => h) (fun _ _ => ReflTransGen.mono (fun _ _ => Routine.command) _ _)
    fun _ _ h => h

lemma bySteps_get_bind {f : Executor → Program β} (h : StepsUnder rely R Q (f w.state) w) :
    StepsUnder rely R Q (get.bind f) w :=
  .get_bind .refl h

lemma bySteps_modify_bind {u : Executor → Executor} {f : Unit → Program β}
    (hu : ReflTransGen R w.state (u w.state)) (h : StepsUnder rely R Q (f ()) (w.update u)) :
    StepsUnder rely R Q ((modify u).bind f) w :=
  .modify_bind hu h

lemma bySteps_modifyGet_bind {u : Update α} {f : α → Program β}
    (hu : ReflTransGen R w.state (u w.state).2)
    (h : StepsUnder rely R Q (f (u w.state).1) (w.update fun s => (u s).2)) :
    StepsUnder rely R Q ((modifyGet u).bind f) w :=
  .modifyGet_bind hu h

/-- Asking changes nothing, whatever the answer. -/
lemma bySteps_request_bind {q : Request} {f : Reply q → Program β}
    (h : ∀ r, BySteps R Q (f r) (w.answer q r)) : BySteps R Q ((request q).bind f) w := by
  apply Meets.ask_bind
  rintro r _ rfl
  exact ⟨.refl, h r⟩

/-- A part that only asks leaves the state as it was. -/
lemma bySteps_of_inquires {P : α → Trace → Prop} {p : Program α} (h : Inquires P p) :
    BySteps R (fun _ w' => w'.state = w.state) p w :=
  (h.meets (fun _ _ _ => .refl) w).imp fun _ _ h => h.1

lemma bySteps_forEach {f : α → Program (List β)} {as : List α}
    (h : ∀ a w', BySteps R (fun _ _ => True) (f a) w') :
    BySteps R (fun _ _ => True) (forEach f as) w :=
  Meets.forEach (I := fun _ => True) (fun a _ w' _ => h a w') trivial

/-! #### The operations -/

lemma preflight_commands (cfg : Config) (env : Ambient) (req : PlaceRequest) (s : Executor) :
    Commands cfg s (preflight cfg env req s).2 ∧
      ((preflight cfg env req s).1 = true → validateOrder cfg env req = none) := by
  unfold preflight
  by_cases hvalid : (validateOrder cfg env req).isSome = true
  · rw [if_pos hvalid]
    exact ⟨.refl, fun h => by simp at h⟩
  rw [if_neg hvalid]
  by_cases hslip : ¬ passesSlippage cfg req = true
  · rw [if_pos hslip]
    exact ⟨.refl, fun h => by simp at h⟩
  rw [if_neg hslip]
  exact ⟨.single (.cleanup env.now), fun _ => by simpa using hvalid⟩

lemma orders_persistOrderIntent (env : Ambient) (clientId : ℕ) (req : PlaceRequest)
    (s : Executor) : (persistOrderIntent env clientId req s).2.orders = s.orders := by
  unfold persistOrderIntent
  split_ifs <;> rfl

lemma get?_openEntry (cfg : Config) (env : Ambient) (req : PlaceRequest) (s : Executor) :
    (openEntry cfg env req s).2.orders.get? s.nextId =
      some (buildEntryOrder cfg env req s.nextId) :=
  s.get?_insertOrder_self (buildEntryOrder cfg env req)

lemma submitEntry_byRoutines {env : Ambient} {req : PlaceRequest} {id : OrderId}
    (hget : w.state.orders.get? id = some (buildEntryOrder cfg env req id)) :
    ByRoutines cfg (fun _ _ => True) (submitEntry cfg env req id) w := by
  have hkind : (buildEntryOrder cfg env req id).orderKind = .entry := by rw [buildEntryOrder_eq]
  have hstatus : (buildEntryOrder cfg env req id).status = .placed := by rw [buildEntryOrder_eq]
  have habandon : ∀ w' : ExecWorld, w'.state.orders.get? id = some (buildEntryOrder cfg env req id) →
      Routines cfg w'.state (w'.state.setStatus id .cancelled) := fun w' hw' =>
    .single (.abandon id _ hw' (Or.inl hkind) hstatus)
  refine bySteps_modifyGet_bind (.single (.persist env req)) ?_
  have hpersist : ∀ w' : ExecWorld,
      w'.state = (persistOrderIntent env w.state.nextId req w.state.takeId).2 →
      w'.state.orders.get? id = some (buildEntryOrder cfg env req id) := by
    intro w' hw'
    rw [hw', orders_persistOrderIntent, Executor.orders_takeId, hget]
  split_ifs with hok
  · refine (bySteps_of_inquires (submitChunks_inquires cfg req id)).bind fun r w' hw' => ?_
    match r with
    | .ok exchangeIds =>
      exact bySteps_modify_bind
        (.single (.acknowledgeEntry req exchangeIds id _ (hpersist _ hw') hkind)) trivial
    | .error e => exact bySteps_modify_bind (habandon _ (hpersist _ hw')) trivial
  · exact bySteps_modify_bind (habandon _ (hpersist _ rfl)) trivial

lemma placeOrder_byCommands (env : Ambient) (req : PlaceRequest) :
    ByCommands cfg (fun _ _ => True) (placeOrder cfg env req) w := by
  obtain ⟨hcommands, hvalid⟩ := preflight_commands cfg env req w.state
  refine bySteps_modifyGet_bind hcommands ?_
  have hget := get?_openEntry cfg env req (preflight cfg env req w.state).2
  split_ifs with haccepted hpaper
  · refine bySteps_modifyGet_bind (.single (.openEntry env req (hvalid haccepted))) ?_
    exact bySteps_modify_bind
      (.single (.fillOnPlace env req _ (hvalid haccepted) hget hpaper)) trivial
  · refine bySteps_modifyGet_bind (.single (.openEntry env req (hvalid haccepted))) ?_
    exact (submitEntry_byRoutines hget).byCommands
  · trivial

lemma cancelOrder_byCancels (id : OrderId) :
    BySteps (CancelOf id) (fun _ _ => True) (cancelOrder cfg id) w := by
  refine bySteps_get_bind ?_
  cases hget : w.state.orders.get? id with
  | none => trivial
  | some o =>
    dsimp only
    split_ifs with hfinal hlocal
    · trivial
    · exact bySteps_modify_bind (.single (.locally o hget (by simpa using hfinal))) trivial
    · have hkind : o.orderKind = .entry := by
        by_contra hkind
        exact hlocal (Or.inr (Or.inr hkind))
      refine (bySteps_of_inquires (cancelOnExchange_inquires id _)).bind fun ok w' hw' => ?_
      unfold concludeCancel
      split_ifs
      · refine bySteps_modify_bind (.single ?_) trivial
        exact .confirmed o (hw' ▸ hget) hkind (by simpa using hfinal)
      · trivial

lemma cancelIfOpen_byCancels (id : OrderId) :
    BySteps (CancelOf id) (fun _ _ => True) (cancelIfOpen cfg id) w := by
  refine bySteps_get_bind ?_
  cases w.state.orders.get? id with
  | none => trivial
  | some o =>
    dsimp only
    split_ifs
    · refine (cancelOrder_byCancels id).bind fun ok w' _ => ?_
      split_ifs <;> trivial
    · trivial

lemma cancelIfExpired_byCancels (now : Time) (id : OrderId) :
    BySteps (CancelOf id) (fun _ _ => True) (cancelIfExpired cfg now id) w := by
  refine bySteps_get_bind ?_
  cases hget : w.state.orders.get? id with
  | none => trivial
  | some o =>
    dsimp only
    split_ifs with hopen harmed hexpired hage
    · exact bySteps_modify_bind (.single (.expire o hget harmed)) trivial
    · trivial
    · refine (cancelOrder_byCancels id).bind fun ok w' _ => ?_
      split_ifs <;> trivial
    · trivial
    · trivial

/-- Cancellations are chains of routine commands. -/
lemma byRoutines_of_byCancels {id : OrderId} {Q : α → ExecWorld → Prop} {p : Program α}
    (h : BySteps (CancelOf id) Q p w) : ByRoutines cfg Q p w :=
  h.mono (fun _ _ _ _ h => h) (fun _ _ => ReflTransGen.mono (fun _ _ => CancelOf.routine) _ _)
    fun _ _ h => h

lemma closePosition_byRoutines (env : Ambient) (req : CloseRequest) :
    ByRoutines cfg (fun _ _ => True) (closePosition cfg env req) w := by
  unfold closePosition
  split_ifs with hinvalid hpaper
  · trivial
  · have hsize : 0 < req.sizeUsdc := by
      rw [not_or, not_le] at hinvalid
      exact hinvalid.2
    have hget := w.state.get?_insertOrder_self (buildExitOrder cfg env req)
    refine bySteps_modifyGet_bind (.single (.openExit env req hsize)) ?_
    exact bySteps_modify_bind (.single (.fillExit env req _ hsize hget hpaper)) trivial
  · have hsize : 0 < req.sizeUsdc := by
      rw [not_or, not_le] at hinvalid
      exact hinvalid.2
    have hget := w.state.get?_insertOrder_self (buildExitOrder cfg env req)
    have hkind : ∀ id, (buildExitOrder cfg env req id).orderKind = .exit := fun id => by
      rw [buildExitOrder_eq]
    have hstatus : ∀ id, (buildExitOrder cfg env req id).status = .placed := fun id => by
      rw [buildExitOrder_eq]
    refine bySteps_modifyGet_bind (.single (.openExit env req hsize)) ?_
    refine bySteps_request_bind fun r => ?_
    match r with
    | .ok response =>
      dsimp only
      cases response.exchangeId? with
      | none => trivial
      | some exchangeId =>
        exact bySteps_modify_bind
          (.single (.acknowledgeExit _ exchangeId _ hget (hkind _))) trivial
    | .error e =>
      exact bySteps_modify_bind
        (.single (.abandon _ _ hget (Or.inr (hkind _)) (hstatus _))) trivial

lemma reconcileOrder_byRoundsOf (books : MarketBooks) (now : Time) (id : OrderId) :
    BySteps (RoundOf cfg books now id) (fun _ _ => True) (reconcileOrder cfg books now id) w := by
  refine bySteps_get_bind ?_
  have hdeferred : ∀ w' : ExecWorld, BySteps (RoundOf cfg books now id) (fun _ _ => True)
      (modifyGet (armDeferred cfg now id)) w' := fun w' => ⟨.single .deferred, trivial⟩
  cases hget : w.state.orders.get? id with
  | none => trivial
  | some o =>
    dsimp only
    cases hkind : o.orderKind with
    | entry =>
      dsimp only
      split_ifs with hfinal
      · trivial
      unfold reconcileEntry
      split_ifs with hlive hpaper
      · refine Meets.bind (Q := fun _ _ => True) ?_ fun _ w' _ =>
          (hdeferred w').bind fun _ _ _ => trivial
        refine (bySteps_of_inquires (fetchStatusRows_inquires id _)).bind fun rows w' hw' => ?_
        refine ⟨.single ?_, trivial⟩
        exact .statusRows rows o (hw' ▸ hget) hkind (by simpa using hfinal)
          (by simpa using hlive.1)
      · cases hdata : books o.marketId with
        | none => trivial
        | some data =>
          refine bySteps_modifyGet_bind
            (.single (.paperEntry data o hget hkind hpaper.2 hpaper.1 hdata)) ?_
          exact (hdeferred _).bind fun _ _ _ => trivial
      · exact hdeferred w
    | exit => trivial
    | takeProfit =>
      dsimp only
      cases hdata : books o.marketId with
      | none => trivial
      | some data => exact ⟨.single (.child data o hget (by rw [hkind]; rfl) hdata), trivial⟩
    | stopLoss =>
      dsimp only
      cases hdata : books o.marketId with
      | none => trivial
      | some data => exact ⟨.single (.child data o hget (by rw [hkind]; rfl) hdata), trivial⟩

lemma reconcileOrder_byRounds (books : MarketBooks) (now : Time) (id : OrderId) :
    BySteps (Round cfg books now) (fun _ _ => True) (reconcileOrder cfg books now id) w :=
  (reconcileOrder_byRoundsOf books now id).mono (fun _ _ _ _ h => h)
    (fun _ _ => ReflTransGen.mono (fun _ _ => RoundOf.round) _ _) fun _ _ h => h

lemma reconcileOrder_byChanges (books : MarketBooks) (now : Time) (id : OrderId) :
    ByChanges cfg (fun _ _ => True) (reconcileOrder cfg books now id) w :=
  (reconcileOrder_byRounds books now id).mono (fun _ _ _ _ h => h) (fun _ _ => Rounds.changes)
    fun _ _ h => h

/-- A pass, run alone, is a chain of rounds. -/
lemma reconcileOrders_byRounds (books : MarketBooks) (now : Time) :
    BySteps (Round cfg books now) (fun _ _ => True) (reconcileOrders cfg books now) w := by
  apply bySteps_get_bind
  exact bySteps_forEach fun id w' => reconcileOrder_byRounds books now id

/-- Cancelling and closing, run alone, are chains of routine commands. -/
theorem Call.byRoutines (cfg : Config) (call : Call) (w : ExecWorld)
    (hplace : ∀ req, call.op ≠ .placeOrder req) (hpass : ∀ books, call.op ≠ .reconcileOrders books) :
    ByRoutines cfg (fun _ _ => True) (call.program cfg) w := by
  obtain ⟨op, env⟩ := call
  cases op with
  | placeOrder req => exact absurd rfl (hplace req)
  | cancelOrder id =>
    exact (byRoutines_of_byCancels (cancelOrder_byCancels id)).bind fun _ _ _ => trivial
  | cancelAllOpenOrders =>
    refine Meets.bind (Q := fun _ _ => True) ?_ fun _ _ _ => trivial
    apply bySteps_get_bind
    exact (bySteps_forEach fun id w' => byRoutines_of_byCancels (cancelIfOpen_byCancels id)).bind
      fun _ _ _ => trivial
  | cancelExpiredOrders =>
    refine Meets.bind (Q := fun _ _ => True) ?_ fun _ _ _ => trivial
    apply bySteps_get_bind
    exact bySteps_forEach fun id w' =>
      byRoutines_of_byCancels (cancelIfExpired_byCancels env.now id)
  | closePosition req => exact (closePosition_byRoutines env req).bind fun _ _ _ => trivial
  | reconcileOrders books => exact absurd rfl (hpass books)

/-- Placing, cancelling and closing, run alone, are chains of commands. -/
theorem Call.byCommands (cfg : Config) (call : Call) (w : ExecWorld)
    (hop : ∀ books, call.op ≠ .reconcileOrders books) :
    ByCommands cfg (fun _ _ => True) (call.program cfg) w := by
  by_cases hplace : ∃ req, call.op = .placeOrder req
  · obtain ⟨op, env⟩ := call
    obtain ⟨req, rfl⟩ := hplace
    exact (placeOrder_byCommands env req).bind fun _ _ _ => trivial
  · exact (call.byRoutines cfg w (not_exists.mp hplace) hop).byCommands

/-- Every operation, run alone, is a chain of changes. -/
theorem Call.byChanges (cfg : Config) (call : Call) (w : ExecWorld) :
    ByChanges cfg (fun _ _ => True) (call.program cfg) w := by
  by_cases hop : ∃ books, call.op = .reconcileOrders books
  · obtain ⟨op, env⟩ := call
    obtain ⟨books, rfl⟩ := hop
    refine Meets.bind (Q := fun _ _ => True) ?_ fun _ _ _ => trivial
    exact (reconcileOrders_byRounds books env.now).mono (fun _ _ _ _ h => h)
      (fun _ _ => Rounds.changes) fun _ _ h => h
  · exact (call.byCommands cfg w (not_exists.mp hop)).byChanges

end Contracts

/-! ### Induction over runs -/

lemma Invocation.perform_changes (cfg : Config) (w : ExecWorld) (i : Invocation) :
    Changes cfg w.state (i.perform cfg w).state :=
  ((Call.byChanges cfg i.call w).run alone_refl (fun _ => .refl) .trans i.answers).1

/-- A call of `reconcile_orders` is a chain of rounds. -/
lemma Invocation.perform_rounds (cfg : Config) (w : ExecWorld) (books : MarketBooks)
    (env : Ambient) (answers : Oracle Request Reply) :
    Rounds cfg books env.now w.state
      (Invocation.perform cfg w ⟨⟨.reconcileOrders books, env⟩, answers⟩).state := by
  have hprogram : BySteps (Round cfg books env.now) (fun _ _ => True)
      (Call.program cfg ⟨.reconcileOrders books, env⟩) w :=
    (reconcileOrders_byRounds books env.now).bind fun _ _ _ => trivial
  exact (hprogram.run alone_refl (fun _ => .refl) .trans answers).1

/-- The world after a call of `reconcile_orders`. -/
lemma Invocation.perform_reconcileOrders (cfg : Config) (w : ExecWorld) (books : MarketBooks)
    (env : Ambient) (answers : Oracle Request Reply) :
    Invocation.perform cfg w ⟨⟨.reconcileOrders books, env⟩, answers⟩ =
      w.after ((reconcileOrders cfg books env.now).run answers w.state) :=
  congrArg (fun o : Outcome Executor Request Reply OpResult => w.after o)
    (run_map (reconcileOrders cfg books env.now) OpResult.events answers w.state)

lemma runFrom_changes (cfg : Config) (w : ExecWorld) (run : List Invocation) :
    Changes cfg w.state (runFrom cfg w run).state := by
  induction run generalizing w with
  | nil => exact .refl
  | cons i run ih => exact (i.perform_changes cfg w).trans (ih (i.perform cfg w))

lemma runAll_append (cfg : Config) (run rest : List Invocation) :
    runAll cfg (run ++ rest) = runFrom cfg (runAll cfg run) rest := by
  simp only [runAll, runFrom, List.foldl_append]

lemma runAll_concat (cfg : Config) (run : List Invocation) (i : Invocation) :
    runAll cfg (run ++ [i]) = i.perform cfg (runAll cfg run) := by
  rw [runAll_append, runFrom, List.foldl_cons, List.foldl_nil]

/-- Every call of the run meets `P`, which may look at the world the calls before it have left. -/
def StepsMeet (cfg : Config) (P : ExecWorld → Call → Prop) (run : List Invocation) : Prop :=
  ∀ n < run.length, ∀ i ∈ run[n]?, P (runAll cfg (run.take n)) i.call

instance (cfg : Config) (P : ExecWorld → Call → Prop) [∀ w call, Decidable (P w call)]
    (run : List Invocation) : Decidable (StepsMeet cfg P run) :=
  inferInstanceAs (Decidable (∀ n < run.length, ∀ i ∈ run[n]?, P (runAll cfg (run.take n)) i.call))

lemma stepsMeet_concat {cfg : Config} {P : ExecWorld → Call → Prop} {run : List Invocation}
    {i : Invocation} (h : StepsMeet cfg P (run ++ [i])) :
    StepsMeet cfg P run ∧ P (runAll cfg run) i.call := by
  constructor
  · intro n hn j hj
    have hstep := h n (by simp; omega) j (by rwa [List.getElem?_append_left hn])
    rwa [List.take_append_of_le_length hn.le] at hstep
  · simpa using h run.length (by simp) i (by simp)

/-- What the empty executor has and every call that meets `P` keeps holds at the end of a run whose
calls meet `P`. -/
theorem StepsMeet.induction {cfg : Config} {P : ExecWorld → Call → Prop} {I : ExecWorld → Prop}
    {run : List Invocation} (h : StepsMeet cfg P run) (hinit : I ⟨.init, []⟩)
    (hstep : ∀ pre (i : Invocation), I (runAll cfg pre) → P (runAll cfg pre) i.call →
      I (i.perform cfg (runAll cfg pre))) : I (runAll cfg run) := by
  induction run using List.reverseRecOn with
  | nil => exact hinit
  | append_singleton run i ih =>
    obtain ⟨hrun, hi⟩ := stepsMeet_concat h
    rw [runAll_concat]
    exact hstep run i (ih hrun) hi

/-- Every call of a continuation of a run meets `P`. -/
def StepsMeetFrom (cfg : Config) (P : ExecWorld → Call → Prop) : ExecWorld → List Invocation → Prop
  | _, [] => True
  | w, i :: run => P w i.call ∧ StepsMeetFrom cfg P (i.perform cfg w) run

/-- Every call of a continuation of a run, with its answers, meets `P`. -/
def InvocationsMeet (cfg : Config) (P : ExecWorld → Invocation → Prop) :
    ExecWorld → List Invocation → Prop
  | _, [] => True
  | w, i :: run => P w i ∧ InvocationsMeet cfg P (i.perform cfg w) run

/-- What the calls that meet `P` keep holds at the end of a continuation whose calls meet `P`. -/
lemma InvocationsMeet.induction {cfg : Config} {P : ExecWorld → Invocation → Prop}
    {I : ExecWorld → Prop} {w : ExecWorld} {run : List Invocation}
    (h : InvocationsMeet cfg P w run) (hw : I w)
    (hstep : ∀ w i, I w → P w i → I (i.perform cfg w)) : I (runFrom cfg w run) := by
  induction run generalizing w with
  | nil => exact hw
  | cons i run ih => exact ih h.2 (hstep w i hw h.1)

/-! ### Concrete runs -/

/-- Scripted answers, by their number: no balance or gas price can be read. -/
def scripted (post : ℕ → Except CallError Response) (cancel : ℕ → Except CallError Unit)
    (status : ℕ → StatusReply) : Oracle Request Reply := fun n q =>
  match q with
  | .balance _ => none
  | .gasPrice _ => none
  | .createAndPostOrder .. => post n
  | .sleep _ => ()
  | .cancel .. => cancel n
  | .status .. => status n

/-- An exchange that cannot be reached. -/
def unreachable : Oracle Request Reply :=
  scripted (fun _ => .error .network) (fun _ => .error .network) fun _ => .failed

/-- A call during which nothing can be reached; paper operations ask nothing. -/
def offline (op : Op) (now : Time) : Invocation := ⟨⟨op, { now }⟩, unreachable⟩

end PolyCortex
