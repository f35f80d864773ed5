import Mathlib.Tactic

/-!
# The event bus

`EventBus`: events are queued by `publish` and dispatched one after the other to the handlers of their
type and to the wildcard handlers, each in a task of its own that begins and ends some time later. A
dispatch waits for all of its calls; the errors that these raise are counted when it goes on.

Besides the queue and the counters the state has a log: what was published, and how long the queue was
then, the dispatches with the status of each call, the calls in the order in which they have begun, and what
the calls of `process` have returned.
-/

namespace PolyCortex.Events

inductive EventType where
  | marketScanned
  | orderbookUpdated
  | edgeDetected
  | tradeSignal
  | orderPlaced
  | orderFilled
  | orderCancelled
  | tradeClosed
  | positionUpdated
  | drawdownAlert
  | killSwitchActivated
  | anomalyDetected
  | sentimentUpdated
  | regimeChanged
  | cycleStarted
  | cycleCompleted
  | heartbeat
  | alertTriggered
  deriving DecidableEq, Repr

/-- An event; the payload stands for all of its fields but the type. -/
structure Event (π : Type) where
  eventType : EventType
  payload : π
  deriving DecidableEq, Repr

/-- A bus: its subscriptions, by type and of all types, and the size of its queue. -/
structure EventBus (η : Type) where
  subscribers : EventType → List η := fun _ => []
  wildcardSubscribers : List η := []
  maxQueueSize : ℤ := 10000

namespace EventBus

variable {η : Type}

def subscribe (eventType : EventType) (handler : η) (bus : EventBus η) : EventBus η :=
  { bus with
    subscribers := Function.update bus.subscribers eventType (bus.subscribers eventType ++ [handler]) }

def subscribeAll (handler : η) (bus : EventBus η) : EventBus η :=
  { bus with wildcardSubscribers := bus.wildcardSubscribers ++ [handler] }

/-- The handlers of an event, one for each subscription. -/
def handlersOf {π : Type} (bus : EventBus η) (event : Event π) : List η :=
  bus.subscribers event.eventType ++ bus.wildcardSubscribers

/-- `Queue.full`: a size that is not positive is no limit. -/
def Full (bus : EventBus η) (queued : ℕ) : Prop := 0 < bus.maxQueueSize ∧ bus.maxQueueSize ≤ queued

instance (bus : EventBus η) (queued : ℕ) : Decidable (bus.Full queued) :=
  inferInstanceAs (Decidable (_ ∧ _))

end EventBus

/-- How a handler ends: it returns, raises an `Exception`, or raises `CancelledError`, which is none. -/
inductive HandlerEnd where
  | returned
  | failed
  | cancelled
  deriving DecidableEq, Repr

/-- A call: its task has not begun, runs, runs although it has been cancelled, or is done; a task that
is cancelled is skipped when it has not begun, and otherwise it may end by that. -/
inductive CallStatus where
  | waiting
  | running
  | interrupted
  | done (ended : HandlerEnd)
  | skipped
  | aborted
  deriving DecidableEq, Repr

/-- The handler has been called. -/
def CallStatus.Begun : CallStatus → Prop
  | .waiting | .skipped => False
  | .running | .interrupted | .done _ | .aborted => True

/-- The task is done. -/
def CallStatus.Ended : CallStatus → Prop
  | .waiting | .running | .interrupted => False
  | .done _ | .skipped | .aborted => True

instance (status : CallStatus) : Decidable status.Ended := by
  cases status <;> unfold CallStatus.Ended <;> infer_instance

/-- A task of a dispatch. -/
structure HandlerCall (η : Type) where
  handler : η
  status : CallStatus := .waiting

/-- Whether `_dispatch` waits for its calls, has gone on with their results, or was cancelled. -/
inductive DispatchState where
  | awaiting
  | finished
  | cancelled
  deriving DecidableEq, Repr

/-- A dispatch, with what `process` had processed before. -/
structure Dispatch (η π : Type) where
  event : Event π
  calls : List (HandlerCall η)
  state : DispatchState
  processed : ℕ := 0

/-- What was published, with the length of the queue at the time. -/
structure Publication (π : Type) where
  event : Event π
  queued : ℕ
  accepted : Bool

structure BusState (η π : Type) where
  queue : List (Event π) := []
  eventCount : ℕ := 0
  errorCount : ℕ := 0
  published : List (Publication π) := []
  dispatches : List (Dispatch η π) := []
  passed : List (ℕ × ℕ) := []
  returned : List ℕ := []

namespace BusState

variable {η π : Type} (bus : EventBus η)

/-- `publish`. -/
def publish (event : Event π) (s : BusState η π) : BusState η π :=
  if bus.Full s.queue.length then
    { s with
      errorCount := s.errorCount + 1
      published := s.published ++ [⟨event, s.queue.length, false⟩] }
  else
    { s with
      queue := s.queue ++ [event]
      published := s.published ++ [⟨event, s.queue.length, true⟩] }

@[simp] lemma publish_dispatches (event : Event π) (s : BusState η π) :
    (s.publish bus event).dispatches = s.dispatches := by
  unfold publish
  split <;> rfl

@[simp] lemma publish_returned (event : Event π) (s : BusState η π) :
    (s.publish bus event).returned = s.returned := by
  unfold publish
  split <;> rfl

/-- The first event of the queue, whose other ones are given, is taken and its calls are made; without
handlers there is nothing to wait for. -/
def dispatch (event : Event π) (queue : List (Event π)) (processed : ℕ) (s : BusState η π) :
    BusState η π :=
  { s with
    queue
    eventCount := s.eventCount + 1
    dispatches := s.dispatches ++
      [{ event
         calls := (bus.handlersOf event).map fun handler => { handler }
         state := if (bus.handlersOf event).isEmpty then .finished else .awaiting
         processed }] }

/-- A call of a dispatch. -/
def callAt (s : BusState η π) (k i : ℕ) : Option (HandlerCall η) :=
  (s.dispatches[k]?).bind fun d => d.calls[i]?

/-- Change a dispatch. -/
def modifyDispatch (k : ℕ) (f : Dispatch η π → Dispatch η π) (s : BusState η π) : BusState η π :=
  { s with dispatches := s.dispatches.modify k f }

/-- Set the status of a call of a dispatch. -/
def setStatus (i : ℕ) (status : CallStatus) (d : Dispatch η π) : Dispatch η π :=
  { d with calls := d.calls.modify i fun call => { call with status } }

/-- A task begins, and calls its handler with the event. -/
def beginCall (k i : ℕ) (s : BusState η π) : BusState η π :=
  { s.modifyDispatch k (setStatus i .running) with passed := s.passed ++ [(k, i)] }

/-- A task ends as its handler does. -/
def endCall (k i : ℕ) (ended : HandlerEnd) (s : BusState η π) : BusState η π :=
  s.modifyDispatch k (setStatus i (.done ended))

/-- The calls that have raised an `Exception`. -/
def failures (d : Dispatch η π) : ℕ := d.calls.countP fun call => call.status = .done .failed

/-- `_dispatch` goes on with the results of its calls. -/
def finish (k : ℕ) (s : BusState η π) : BusState η π :=
  { s.modifyDispatch k (fun d => { d with state := .finished }) with
    errorCount := s.errorCount + ((s.dispatches[k]?).map failures).getD 0 }

/-- `process`, from the queue and what it has processed: the dispatch that it comes to wait for. -/
def drain : List (Event π) → ℕ → BusState η π → Option ℕ × BusState η π
  | [], processed, s => (none, { s with returned := s.returned ++ [processed] })
  | event :: queue, processed, s =>
    if (bus.handlersOf event).isEmpty then
      drain queue (processed + 1) (s.dispatch bus event queue processed)
    else (some s.dispatches.length, s.dispatch bus event queue processed)

/-- The events that were accepted. -/
def accepted (s : BusState η π) : List (Event π) :=
  (s.published.filter fun publication => publication.accepted).map fun publication => publication.event

/-- The number of events that were dropped. -/
def dropped (s : BusState η π) : ℕ := s.published.countP fun publication => !publication.accepted

end BusState
end PolyCortex.Events
