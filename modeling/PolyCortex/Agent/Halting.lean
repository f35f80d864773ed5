import PolyCortex.Agent.Deployment
import PolyCortex.Execution.Contention
import PolyCortex.Execution.Posting

/-!
# The kill switch of the agent

`TradingAgent` and its `OrderExecutor` have a kill switch each. The agent's is a file of the project,
and it is read where a cycle begins; the executor's path is relative to the working directory unless
the settings say otherwise, and it is read where an order is checked. Once the checks are passed,
neither is read again.

What happens while the agent's switch is active opens no entry and posts no BUY, as long as no
placement passes its checks then and no answer lets a further chunk go out (`run_silent`).
-/

namespace PolyCortex

open Coroutine Relation

/-! ### The agent -/

/-- The agent, with the operations of its executor and the files around it. -/
structure TradingAgent where
  files : Files
  pool : ExecPool
  /-- A cycle has passed its check of the kill switch. -/
  inCycle : Bool := false
  consecutiveFailures : ℕ := 0

/-- A cycle comes to its end, or stops at an emergency drawdown, or fails. -/
inductive CycleEnd where
  | finished
  | emergency
  | failed
  deriving DecidableEq, Repr

inductive AgentEvent where
  | beginCycle (timestamp : String)
  | endCycle (ending : CycleEnd) (timestamp : String)
  /-- `run_forever` has paused after too many failures. -/
  | pause
  | call (op : Op) (now : Time) (ledgerWritable : Bool)
  | answer (n : ℕ) (reply : (q : Request) → Reply q)
  /-- The operator, or another process, writes or removes a file. -/
  | changeFile (location : Location) (file : Option File)

namespace TradingAgent

variable {d : Deployment} {a a' a'' : TradingAgent}

/-- The agent's own kill switch is active. -/
abbrev Halted (d : Deployment) (a : TradingAgent) : Prop := d.Halted a.files

/-- A cycle ends. -/
def concludeCycle (d : Deployment) (timestamp : String) (a : TradingAgent) : TradingAgent :=
  { a with
    inCycle := false
    files := d.concludeCycle timestamp a.consecutiveFailures a.files }

/-- Placements are calls of a cycle; orders are reconciled and cancelled outside of cycles too. -/
def allows (a : TradingAgent) : Op → Bool
  | .placeOrder _ => a.inCycle
  | .cancelOrder _ | .cancelAllOpenOrders | .cancelExpiredOrders | .closePosition _
  | .reconcileOrders _ => true

def step (d : Deployment) (a : TradingAgent) : AgentEvent → TradingAgent
  | .beginCycle timestamp =>
    if a.Halted d then a.concludeCycle d timestamp else { a with inCycle := true }
  | .endCycle .finished timestamp => { a with consecutiveFailures := 0 }.concludeCycle d timestamp
  | .endCycle .failed timestamp =>
    { a with consecutiveFailures := a.consecutiveFailures + 1 }.concludeCycle d timestamp
  | .endCycle .emergency timestamp =>
    { a with
      files := d.halt timestamp "Emergency drawdown threshold breached" a.files }.concludeCycle d
        timestamp
  | .pause => { a with consecutiveFailures := 0 }
  | .call op now ledgerWritable =>
    if a.allows op then
      { a with
        pool := a.pool.step (Call.program d.cfg) lockAdmits
          (.start ⟨op, d.ambient a.files now ledgerWritable⟩) }
    else a
  | .answer n reply =>
    { a with pool := a.pool.step (Call.program d.cfg) lockAdmits (.answer n reply) }
  | .changeFile location file => { a with files := a.files.set location file }

def run (d : Deployment) (a : TradingAgent) (events : List AgentEvent) : TradingAgent :=
  events.foldl (step d) a

/-- Every event meets `C` in the state it finds. -/
def Along (d : Deployment) (C : TradingAgent → AgentEvent → Prop) :
    TradingAgent → List AgentEvent → Prop
  | _, [] => True
  | a, event :: events => C a event ∧ Along d C (a.step d event) events

instance decidableAlong (d : Deployment) (C : TradingAgent → AgentEvent → Prop)
    [∀ a event, Decidable (C a event)] :
    (a : TradingAgent) → (events : List AgentEvent) → Decidable (a.Along d C events)
  | _, [] => isTrue trivial
  | a, event :: events =>
    @instDecidableAnd _ _ _ (decidableAlong d C (a.step d event) events)

/-! ### What the kill switch is for -/

/-- The BUYs that were posted. -/
def buysPosted (a : TradingAgent) : ℕ := a.pool.asked Request.isBuy

/-- From `a` to `a'` no entry was accepted and no BUY was posted. -/
structure Silent (a a' : TradingAgent) : Prop where
  entries : ∀ id o', a'.pool.world.state.orders.get? id = some o' → o'.orderKind = .entry →
    ∃ o, a.pool.world.state.orders.get? id = some o ∧ o.orderKind = .entry
  buys : a'.buysPosted = a.buysPosted

lemma Silent.refl (a : TradingAgent) : a.Silent a := ⟨fun _ o h hkind => ⟨o, h, hkind⟩, rfl⟩

lemma Silent.trans (h : a.Silent a') (h' : a'.Silent a'') : a.Silent a'' := by
  refine ⟨fun id o'' hget hkind => ?_, h'.buys.trans h.buys⟩
  obtain ⟨o', hget', hkind'⟩ := h'.entries id o'' hget hkind
  exact h.entries id o' hget' hkind'

lemma Silent.of_pool_eq (h : a'.pool = a.pool) : a.Silent a' := by
  refine ⟨fun id o' hget hkind => ⟨o', ?_, hkind⟩, ?_⟩
  · rwa [h] at hget
  · rw [buysPosted, buysPosted, h]

/-- A placement does not pass the checks of the executor, its own kill switch among them. -/
def Refused (d : Deployment) (a : TradingAgent) (env : Ambient) (req : PlaceRequest) : Prop :=
  ReachesCache d.cfg env req →
    ((cleanupRecentPlacements d.cfg env.now a.pool.world.state).recentPlacements.get?
      req.key).isSome = true

instance (d : Deployment) (a : TradingAgent) (env : Ambient) (req : PlaceRequest) :
    Decidable (a.Refused d env req) :=
  inferInstanceAs (Decidable (_ → _))

/-- While the agent's switch is active, placements are refused and no chunk is released. -/
def Heeds (d : Deployment) (a : TradingAgent) : AgentEvent → Prop
  | .call (.placeOrder req) now ledgerWritable =>
    a.Halted d → a.inCycle = true → a.Refused d (d.ambient a.files now ledgerWritable) req
  | .answer n reply =>
    a.Halted d → ∀ t ∈ a.pool.tasks[n]?, releasesChunk d.cfg t.question (reply t.question) = false
  | _ => True

instance (d : Deployment) (a : TradingAgent) : (event : AgentEvent) → Decidable (a.Heeds d event)
  | .call (.placeOrder _) _ _ => inferInstanceAs (Decidable (_ → _))
  | .answer _ _ => inferInstanceAs (Decidable (_ → _))
  | .call (.cancelOrder _) _ _ | .call .cancelAllOpenOrders _ _ | .call .cancelExpiredOrders _ _
  | .call (.closePosition _) _ _ | .call (.reconcileOrders _) _ _ | .beginCycle _ | .endCycle _ _
  | .pause | .changeFile _ _ => isTrue trivial

/-- Where both switches are the same file, every placement is refused. -/
lemma refused_of_sameFile (hsame : d.executorSwitch.location d.cwd = d.agentSwitch.location d.cwd)
    (h : a.Halted d) (now : Time) (ledgerWritable : Bool) (req : PlaceRequest) :
    a.Refused d (d.ambient a.files now ledgerWritable) req := by
  rintro ⟨hvalid, -⟩
  have hactive : (d.executorSwitch.isActive d.cwd a.files).1 = true := by
    rw [KillSwitch.isActive_of_location_eq hsame]
    exact h
  simp [validateOrder, Deployment.ambient, hactive] at hvalid

/-- Started in the directory of the project, with the default path, both switches are the same. -/
lemma executorSwitch_location_of_cwd (hcwd : d.cwd = d.projectRoot)
    (hpath : d.killSwitchPath = defaultKillSwitchPath)
    (hroot : ∀ part ∈ d.projectRoot, part ≠ "." ∧ part ≠ "..") :
    d.executorSwitch.location d.cwd = d.agentSwitch.location d.cwd := by
  have hfollow : ∀ (parts : List String) (directory : Location),
      (∀ part ∈ parts, part ≠ "." ∧ part ≠ "..") →
      parts.foldl Location.enter directory = directory ++ parts := by
    intro parts
    induction parts with
    | nil => simp
    | cons part parts ih =>
      intro directory hparts
      simp only [List.mem_cons, forall_eq_or_imp] at hparts
      rw [List.foldl_cons, ih _ hparts.2, Location.enter, if_neg hparts.1.1, if_neg hparts.1.2,
        List.append_assoc, List.singleton_append]
  simp only [Deployment.executorSwitch, Deployment.agentSwitch, KillSwitch.location, Path.resolve,
    hpath, defaultKillSwitchPath, hcwd]
  rw [hfollow, hfollow]
  · simp
  · intro part hpart
    simp only [List.mem_append, List.mem_cons, List.not_mem_nil, or_false] at hpart
    rcases hpart with hpart | rfl | rfl
    · exact hroot part hpart
    all_goals decide
  · decide

/-! ### Steps -/

/-- The tasks of the executor go on as they should. -/
abbrev Monitored (d : Deployment) (a : TradingAgent) : Prop := Pool.Monitored (posting d.cfg) a.pool

/-- A stretch after an answer that releases nothing, or of another call, is silent. -/
lemma Silent.of_stretch {p' : ExecPool}
    (h : a.pool.Stretch (posting d.cfg) (.resumed false) p') : a.Silent { a with pool := p' } := by
  constructor
  · have hplaces : Executor.NoPlacement a.pool.world.state p'.world.state := by
      have hupdates := h.updates
      generalize p'.world.state = s' at hupdates
      induction hupdates with
      | refl => exact .refl _
      | tail _ hstep ih => exact ih.trans hstep
    intro id o' hget hkind
    obtain ⟨o, hget', hterms⟩ := hplaces.entries id o' hget hkind
    exact ⟨o, hget', hterms.orderKind.symm.trans hkind⟩
  · apply h.asked
    intro q hq
    by_contra hbuy
    simpa using hq (by simpa using hbuy)

/-- A placement that is refused only cleans up. -/
lemma silent_of_refused {env : Ambient} {req : PlaceRequest} (h : a.Refused d env req) :
    a.Silent { a with
      pool := a.pool.step (Call.program d.cfg) lockAdmits (.start ⟨.placeOrder req, env⟩) } := by
  rw [Pool.step]
  split_ifs
  · have hrejected : (preflight d.cfg env req a.pool.world.state).1 = false ∧
        (preflight d.cfg env req a.pool.world.state).2.orders = a.pool.world.state.orders := by
      rcases preflight_cases d.cfg env req a.pool.world.state with ⟨_, hpre⟩ | ⟨hreaches, hpre⟩
      · rw [hpre]
        exact ⟨rfl, rfl⟩
      · rw [hpre]
        exact ⟨by simpa using h hreaches, orders_cleanupRecentPlacements ..⟩
    have hadvance : ((Call.program d.cfg ⟨.placeOrder req, env⟩).advance a.pool.world.state) =
        (.done (.order none), (preflight d.cfg env req a.pool.world.state).2) := by
      change Coroutine.advance ((ite _ _ _ : Program (Option OrderId)).bind _) _ = _
      rw [if_pos (by simp [hrejected.1])]
      rfl
    rw [Pool.settle, hadvance]
    constructor
    · intro id o' hget hkind
      exact ⟨o', hrejected.2 ▸ hget, hkind⟩
    · simp [buysPosted, Pool.asked]
  · exact .refl a

@[simp] lemma pool_concludeCycle (timestamp : String) :
    (a.concludeCycle d timestamp).pool = a.pool := rfl

lemma step_monitored (h : a.Monitored d) (event : AgentEvent) : (a.step d event).Monitored d := by
  have hpool : ∀ event, (a.pool.step (Call.program d.cfg) lockAdmits event).Monitored
      (posting d.cfg) := fun event => (Pool.step_monitored _ _ _ h program_behaves event).1
  cases event with
  | beginCycle timestamp =>
    rw [step]
    split_ifs
    · rwa [Monitored, pool_concludeCycle]
    · exact h
  | endCycle ending timestamp =>
    cases ending <;> rw [step, Monitored, pool_concludeCycle] <;> exact h
  | pause => exact h
  | call op now ledgerWritable =>
    rw [step]
    split_ifs
    · exact hpool _
    · exact h
  | answer n reply => exact hpool _
  | changeFile location file => exact h

/-- An event that heeds the switch while it is active is silent. -/
lemma step_silent (hm : a.Monitored d) (hhalted : a.Halted d) {event : AgentEvent}
    (h : a.Heeds d event) : a.Silent (a.step d event) := by
  have hpool := fun event : ExecEvent => (Pool.step_monitored (Call.program d.cfg) lockAdmits a.pool hm
    program_behaves event).2
  cases event with
  | beginCycle timestamp =>
    rw [step, if_pos hhalted]
    exact .of_pool_eq (pool_concludeCycle timestamp)
  | endCycle ending timestamp =>
    cases ending <;> exact .of_pool_eq (pool_concludeCycle timestamp)
  | pause => exact .of_pool_eq rfl
  | call op now ledgerWritable =>
    rw [step]
    split_ifs with hallows
    · have hcall := hpool (.start ⟨op, d.ambient a.files now ledgerWritable⟩)
      cases op with
      | placeOrder req => exact silent_of_refused (h hhalted hallows)
      | _ =>
        rcases hcall with hsame | hstretch
        · rw [hsame]
          exact .refl a
        · exact .of_stretch hstretch
    · exact .refl a
  | answer n reply =>
    rw [step]
    rcases hpool (.answer n reply) with hsame | ⟨t, ht, hstretch⟩
    · rw [hsame]
      exact .refl a
    · have hkept := h hhalted t ht
      change Pool.Stretch (posting d.cfg) (.resumed (releasesChunk d.cfg t.question (reply t.question))) _ _
        at hstretch
      rw [hkept] at hstretch
      exact .of_stretch hstretch
  | changeFile location file => exact .of_pool_eq rfl

/-! ### Runs -/

lemma run_append (events later : List AgentEvent) :
    a.run d (events ++ later) = (a.run d events).run d later := by
  simp only [run, List.foldl_append]

lemma along_append (C : TradingAgent → AgentEvent → Prop) (events later : List AgentEvent) :
    a.Along d C (events ++ later) ↔ a.Along d C events ∧ (a.run d events).Along d C later := by
  induction events generalizing a with
  | nil => simp [Along, run]
  | cons event events ih => simp [Along, ih, run, and_assoc]

lemma run_monitored (h : a.Monitored d) (events : List AgentEvent) :
    (a.run d events).Monitored d := by
  induction events generalizing a with
  | nil => exact h
  | cons event events ih => exact ih (step_monitored h event)

/-- The agent's switch is active, until after the events. -/
def StaysHalted (d : Deployment) (a : TradingAgent) (events : List AgentEvent) : Prop :=
  a.Along d (fun a _ => a.Halted d) events

instance (d : Deployment) (a : TradingAgent) (events : List AgentEvent) :
    Decidable (a.StaysHalted d events) :=
  inferInstanceAs (Decidable (Along ..))

/-- While the agent's switch is active, nothing is accepted and nothing is posted, as long as the
events heed it. -/
theorem run_silent (h : a.pool.tasks = []) {events later : List AgentEvent}
    (hhalted : (a.run d events).StaysHalted d later)
    (hheeds : a.Along d (Heeds d) (events ++ later)) :
    (a.run d events).Silent (a.run d (events ++ later)) := by
  have hstart : a.Monitored d := by
    rw [Monitored, Pool.Monitored, h]
    simp
  have hm := run_monitored hstart events
  have hlater := ((along_append _ _ _).mp hheeds).2
  rw [run_append]
  clear hheeds
  generalize a.run d events = a' at hhalted hlater hm
  induction later generalizing a' with
  | nil => exact .refl a'
  | cons event later ih =>
    have hrest := ih (a'.step d event) hhalted.2 hlater.2 (step_monitored hm event)
    exact (step_silent hm hhalted.1 hlater.1).trans hrest

/-- An agent of the project in `/app`, started in `cwd`. -/
def startedIn (cwd : Location) (cfg : Config) : Deployment := { cfg, projectRoot := ["app"], cwd }

/-- The agent after its start, with no kill switch and no orders. -/
def fresh : TradingAgent := { files := fun _ => none, pool := noOrders }

/-- The operator engages the agent's kill switch, in the form the agent writes it. -/
def engage : AgentEvent :=
  .changeFile ["app", "data", "KILL_SWITCH"] (some (.text "2026-01-01T00:00:00 | manual\n"))

def placeThreeChunks : AgentEvent := .call (.placeOrder threeChunks) 0 true

/-- The theorem where the agent was started in the directory of its project. -/
theorem run_silent_projectDirectory :
    (fresh.run (startedIn ["app"] liveConfig) [.beginCycle "", engage]).Silent
      (fresh.run (startedIn ["app"] liveConfig) ([.beginCycle "", engage] ++ [placeThreeChunks])) :=
  run_silent rfl (by decide +kernel) (by decide +kernel)

/-- The switch is engaged after the first chunk of an entry. -/
def engageAfterFirstChunk : List AgentEvent :=
  [.beginCycle "", placeThreeChunks, .answer 0 (accepting "x"), .answer 0 (accepting "x"), engage]

/-- Started in another directory, the agent accepts an entry although its switch is active; and in any
directory it posts the remaining chunks of an entry. -/
theorem run_not_silent :
    let elsewhere := startedIn ["home"] {}
    let atHome := startedIn ["app"] liveConfig
    let later := [.answer 0 (accepting "x"), .answer 0 (accepting "x")]
    ((fresh.run elsewhere [.beginCycle "", engage]).StaysHalted elsewhere [placeThreeChunks] ∧
      ¬ (fresh.run elsewhere [.beginCycle "", engage]).Silent
        (fresh.run elsewhere ([.beginCycle "", engage] ++ [placeThreeChunks]))) ∧
    (fresh.run atHome engageAfterFirstChunk).StaysHalted atHome later ∧
      ¬ (fresh.run atHome engageAfterFirstChunk).Silent
        (fresh.run atHome (engageAfterFirstChunk ++ later)) := by
  refine ⟨⟨by decide +kernel, fun h => ?_⟩, by decide +kernel, fun h => ?_⟩
  · have hentry : (((fresh.run (startedIn ["home"] {})
        ([.beginCycle "", engage] ++ [placeThreeChunks])).pool.world.state.orders.get? 0).any
        fun o => o.orderKind = .entry) = true := by decide +kernel
    obtain ⟨o, hget, hkind⟩ := (Option.any_eq_true _ _).mp hentry
    obtain ⟨x, hx, -⟩ := h.entries 0 o hget (of_decide_eq_true hkind)
    cases hx
  · have hmore : (fresh.run (startedIn ["app"] liveConfig) engageAfterFirstChunk).buysPosted <
        (fresh.run (startedIn ["app"] liveConfig) (engageAfterFirstChunk ++
          [.answer 0 (accepting "x"), .answer 0 (accepting "x")])).buysPosted := by decide +kernel
    exact hmore.ne' h.buys

end TradingAgent
end PolyCortex
