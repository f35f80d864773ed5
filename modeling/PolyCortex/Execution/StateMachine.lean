import PolyCortex.Data.DateTime

/-!
# The order state machine

`OrderStateMachine` keeps the state of an order and how it got there. A transition is checked against
`VALID_TRANSITIONS`, a forced one is not. Whatever is called, the history is a path from the initial
state to the current one (`runCalls_isPath`), whose entries are legal unless they are marked as forced
(`runCalls_legal`), and a machine that is written as a dict is read from it as it was
(`fromDict_toDict`).
-/

namespace PolyCortex

/-! ### Paths -/

section Paths

variable {σ ε : Type*} {src dst : ε → σ}

/-- The edges lead from one vertex to another. -/
def IsPath (src dst : ε → σ) : σ → List ε → σ → Prop
  | s, [], t => s = t
  | s, e :: es, t => src e = s ∧ IsPath src dst (dst e) es t

lemma isPath_concat {s t : σ} {es : List ε} {e : ε} :
    IsPath src dst s (es ++ [e]) t ↔ IsPath src dst s es (src e) ∧ dst e = t := by
  induction es generalizing s with
  | nil => simp [IsPath, eq_comm]
  | cons d es ih =>
    rw [List.cons_append, IsPath, IsPath, ih]
    tauto

end Paths

/-! ### The machine -/

inductive OrderState where
  | created
  | validated
  | signed
  | submitted
  | acknowledged
  | partialFill
  | filled
  | settled
  | redeemed
  | rejected
  | cancelled
  | expired
  deriving DecidableEq, Repr

namespace OrderState

def value : OrderState → String
  | .created => "created"
  | .validated => "validated"
  | .signed => "signed"
  | .submitted => "submitted"
  | .acknowledged => "acknowledged"
  | .partialFill => "partial_fill"
  | .filled => "filled"
  | .settled => "settled"
  | .redeemed => "redeemed"
  | .rejected => "rejected"
  | .cancelled => "cancelled"
  | .expired => "expired"

/-- The members of the enumeration. -/
def members : List OrderState :=
  [.created, .validated, .signed, .submitted, .acknowledged, .partialFill, .filled, .settled,
    .redeemed, .rejected, .cancelled, .expired]

/-- `OrderState(value)`. -/
def ofValue : PersistedValue → Except PyError OrderState
  | .str s =>
    match members.find? (·.value = s) with
    | some state => .ok state
    | none => .error .valueError
  | _ => .error .valueError

/-- `VALID_TRANSITIONS`. -/
def validTransitions : OrderState → List OrderState
  | .created => [.validated, .cancelled]
  | .validated => [.signed, .rejected]
  | .signed => [.submitted, .cancelled]
  | .submitted => [.acknowledged, .rejected, .cancelled]
  | .acknowledged => [.partialFill, .filled, .cancelled, .expired]
  | .partialFill => [.partialFill, .filled, .cancelled]
  | .filled => [.settled]
  | .settled => [.redeemed]
  | .redeemed | .rejected | .cancelled | .expired => []

/-- `TERMINAL_STATES`. -/
def terminalStates : List OrderState := [.redeemed, .rejected, .cancelled, .expired]

@[simp] lemma ofValue_value (s : OrderState) : ofValue (.str s.value) = .ok s := by
  cases s <;> rfl

/-- The terminal states are those that the table gives no way out of. -/
lemma mem_terminalStates_iff (s : OrderState) :
    s ∈ terminalStates ↔ s.validTransitions = [] := by
  cases s <;> decide

end OrderState

structure StateTransition where
  fromState : OrderState
  toState : OrderState
  timestamp : DateTime
  reason : String := ""
  deriving DecidableEq

structure InvalidTransitionError where
  current : OrderState
  target : OrderState
  deriving DecidableEq, Repr

structure OrderStateMachine where
  orderId : String
  state : OrderState
  history : List StateTransition
  createdAt : DateTime
  deriving DecidableEq

/-- What `force_state` puts before the reason. -/
def forcedMark : String := "FORCED: "

/-- The reason is marked as forced. -/
def StateTransition.IsForced (entry : StateTransition) : Prop :=
  forcedMark.toList <+: entry.reason.toList

namespace OrderStateMachine

/-- `__init__`. -/
def new (orderId : String) (initialState : OrderState) (now : DateTime) : OrderStateMachine :=
  ⟨orderId, initialState, [], now⟩

def isTerminal (m : OrderStateMachine) : Bool := m.state ∈ OrderState.terminalStates

def canTransition (target : OrderState) (m : OrderStateMachine) : Bool :=
  target ∈ m.state.validTransitions

/-- Append an entry and go to its target. -/
def record (target : OrderState) (reason : String) (now : DateTime) (m : OrderStateMachine) :
    OrderStateMachine :=
  { m with
    history := m.history ++ [⟨m.state, target, now, reason⟩]
    state := target }

/-- `transition`, with the machine it leaves also when it raises. -/
def transition (target : OrderState) (reason : String) (now : DateTime) (m : OrderStateMachine) :
    Except InvalidTransitionError Unit × OrderStateMachine :=
  if m.isTerminal then (.error ⟨m.state, target⟩, m)
  else if !m.canTransition target then (.error ⟨m.state, target⟩, m)
  else (.ok (), m.record target reason now)

/-- `force_state`. -/
def forceState (target : OrderState) (reason : String) (now : DateTime) (m : OrderStateMachine) :
    OrderStateMachine :=
  m.record target (forcedMark ++ reason) now

end OrderStateMachine

/-! ### Dicts -/

/-- A value that is a text by its annotation. -/
def PersistedValue.text : PersistedValue → Except PyError String
  | .str s => .ok s
  | _ => .error .typeError

def StateTransition.toDict (entry : StateTransition) : PersistedValue :=
  .obj
    [("from", .str entry.fromState.value), ("to", .str entry.toState.value),
      ("timestamp", .str entry.timestamp.isoformat), ("reason", .str entry.reason)]

def StateTransition.fromDict (others : String → Except PyError DateTime) (t : PersistedValue) :
    Except PyError StateTransition := do
  let fromState ← OrderState.ofValue (← t.getItem "from")
  let toState ← OrderState.ofValue (← t.getItem "to")
  let timestamp ← DateTime.fromIsoformat others (← t.getItem "timestamp")
  let reason ← (t.getD "reason" (.str "")).text
  return ⟨fromState, toState, timestamp, reason⟩

namespace OrderStateMachine

def toDict (m : OrderStateMachine) : PersistedValue :=
  .obj
    [("order_id", .str m.orderId), ("state", .str m.state.value),
      ("created_at", .str m.createdAt.isoformat), ("history", .arr (m.history.map (·.toDict)))]

def fromDict (others : String → Except PyError DateTime) (data : PersistedValue) :
    Except PyError OrderStateMachine := do
  let orderId ← (← data.getItem "order_id").text
  let state ← OrderState.ofValue (data.getD "state" (.str "created"))
  let createdAt ← DateTime.fromIsoformat others (← data.getItem "created_at")
  let history ← (← (data.getD "history" (.arr [])).iterate).mapM (StateTransition.fromDict others)
  return ⟨orderId, state, history, createdAt⟩

end OrderStateMachine

/-! ### Calls -/

/-- A call that may move the machine, at its time. -/
inductive StateCall where
  | transition (target : OrderState) (reason : String) (now : DateTime)
  | forceState (target : OrderState) (reason : String) (now : DateTime)

namespace OrderStateMachine

variable {m m' : OrderStateMachine} {initial : OrderState}

/-- What a call returns or raises, and the machine after it. -/
def perform (m : OrderStateMachine) :
    StateCall → Except InvalidTransitionError Unit × OrderStateMachine
  | .transition target reason now => m.transition target reason now
  | .forceState target reason now => (.ok (), m.forceState target reason now)

/-- The machine after some calls; the caller goes on after a rejection. -/
def runCalls (calls : List StateCall) (m : OrderStateMachine) : OrderStateMachine :=
  calls.foldl (fun m call => (m.perform call).2) m

/-- What the calls of a run return or raise. -/
def outcomes : List StateCall → OrderStateMachine → List (Except InvalidTransitionError Unit)
  | [], _ => []
  | call :: calls, m => (m.perform call).1 :: outcomes calls (m.perform call).2

/-- The history is a path from the initial state to the current one. -/
def HasPath (initial : OrderState) (m : OrderStateMachine) : Prop :=
  IsPath StateTransition.fromState StateTransition.toState initial m.history m.state

/-- The entry is in the table and does not leave a terminal state. -/
def Legal (entry : StateTransition) : Prop :=
  entry.toState ∈ entry.fromState.validTransitions ∧
    entry.fromState ∉ OrderState.terminalStates

/-- Every entry that is not marked as forced is legal. -/
def LegalUnlessForced (m : OrderStateMachine) : Prop :=
  ∀ entry ∈ m.history, ¬entry.IsForced → Legal entry

/-- A call leaves the machine as it is, or records an entry that is legal or marked as forced. -/
lemma perform_cases (m : OrderStateMachine) (call : StateCall) :
    (∃ e, m.perform call = (.error e, m)) ∨
      ∃ target reason now, m.perform call = (.ok (), m.record target reason now) ∧
        (Legal ⟨m.state, target, now, reason⟩ ∨
          StateTransition.IsForced ⟨m.state, target, now, reason⟩) := by
  cases call with
  | transition target reason now =>
    rw [perform, transition]
    split_ifs with hterminal hvalid
    · exact .inl ⟨_, rfl⟩
    · exact .inl ⟨_, rfl⟩
    · refine .inr ⟨target, reason, now, rfl, .inl ⟨?_, ?_⟩⟩
      · simpa [canTransition] using hvalid
      · simpa [isTerminal] using hterminal
  | forceState target reason now =>
    refine .inr ⟨target, forcedMark ++ reason, now, rfl, .inr ?_⟩
    rw [StateTransition.IsForced, String.toList_append]
    exact List.prefix_append _ _

lemma perform_error {call : StateCall} {e : InvalidTransitionError}
    (h : (m.perform call).1 = .error e) : (m.perform call).2 = m := by
  obtain ⟨e', hperform⟩ | ⟨_, _, _, hperform, -⟩ := perform_cases m call
  · rw [hperform]
  · rw [hperform] at h
    cases h

lemma HasPath.perform (h : m.HasPath initial) (call : StateCall) :
    (m.perform call).2.HasPath initial := by
  obtain ⟨e, hperform⟩ | ⟨target, reason, now, hperform, -⟩ := perform_cases m call
  · rwa [hperform]
  · rw [hperform]
    exact isPath_concat.mpr ⟨h, rfl⟩

lemma LegalUnlessForced.perform (h : m.LegalUnlessForced) (call : StateCall) :
    (m.perform call).2.LegalUnlessForced := by
  obtain ⟨e, hperform⟩ | ⟨target, reason, now, hperform, hentry⟩ := perform_cases m call
  · rwa [hperform]
  · rw [hperform]
    intro entry hmem hforced
    rw [record, List.mem_append, List.mem_singleton] at hmem
    obtain hmem | rfl := hmem
    · exact h entry hmem hforced
    · exact hentry.resolve_right hforced

lemma runCalls_isPath (calls : List StateCall) (h : m.HasPath initial) :
    (m.runCalls calls).HasPath initial := by
  induction calls generalizing m with
  | nil => exact h
  | cons call calls ih => exact ih (h.perform call)

lemma runCalls_legal (calls : List StateCall) (h : m.LegalUnlessForced) :
    (m.runCalls calls).LegalUnlessForced := by
  induction calls generalizing m with
  | nil => exact h
  | cons call calls ih => exact ih (h.perform call)

/-! ### A machine that is read again -/

lemma fromDict_toDict_entry (others : String → Except PyError DateTime) (entry : StateTransition) :
    StateTransition.fromDict others entry.toDict = .ok entry := by
  simp only [StateTransition.fromDict, StateTransition.toDict, PersistedValue.getItem,
    PersistedValue.getD, List.lookup_cons, PersistedValue.text]
  simp [bind, Except.bind, pure, Except.pure]

lemma mapM_fromDict_toDict (others : String → Except PyError DateTime)
    (history : List StateTransition) :
    (history.map (·.toDict)).mapM (StateTransition.fromDict others) = .ok history := by
  induction history with
  | nil => rfl
  | cons entry history ih =>
    rw [List.map_cons, List.mapM_cons, fromDict_toDict_entry, ih]
    rfl

/-- A machine is read from its dict as it was written. -/
lemma fromDict_toDict (others : String → Except PyError DateTime) (m : OrderStateMachine) :
    fromDict others m.toDict = .ok m := by
  simp only [fromDict, toDict, PersistedValue.getItem, PersistedValue.getD, List.lookup_cons,
    PersistedValue.text]
  simp [bind, Except.bind, pure, Except.pure, PersistedValue.iterate, mapM_fromDict_toDict,
    -List.mapM_map]

/-- For every run of calls: the history is a path from the initial state to the current one, its
entries are legal unless they are marked as forced, a rejected call changes nothing, and the machine
that is read from the dict has the same state and history and the same outcomes of all further calls. -/
theorem lifecycle (others : String → Except PyError DateTime) (orderId : String)
    (initial : OrderState) (createdAt : DateTime) (calls : List StateCall) :
    ((new orderId initial createdAt).runCalls calls).HasPath initial ∧
      ((new orderId initial createdAt).runCalls calls).LegalUnlessForced ∧
      (∀ call e, (((new orderId initial createdAt).runCalls calls).perform call).1 = .error e →
        (((new orderId initial createdAt).runCalls calls).perform call).2 =
          (new orderId initial createdAt).runCalls calls) ∧
      ∃ read, fromDict others ((new orderId initial createdAt).runCalls calls).toDict = .ok read ∧
        read.state = ((new orderId initial createdAt).runCalls calls).state ∧
        read.history = ((new orderId initial createdAt).runCalls calls).history ∧
        ∀ further, outcomes further read =
          outcomes further ((new orderId initial createdAt).runCalls calls) := by
  refine ⟨runCalls_isPath calls rfl, runCalls_legal calls ?_, fun call e => perform_error, _,
    fromDict_toDict others _, rfl, rfl, fun _ => rfl⟩
  intro entry hmem
  cases hmem

end OrderStateMachine
end PolyCortex
