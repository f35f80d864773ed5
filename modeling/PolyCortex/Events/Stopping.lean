import PolyCortex.Events.Delivery

/-!
# Stopping the bus

`start` makes a task of `_run_loop`, which dispatches one event after the other; `stop` cancels it
wherever it is, waits for its end and drains the queue. The cancellation goes on to the calls that the
loop waits for: those whose tasks have not begun are skipped, and it is raised in the handlers that run,
which may go on all the same. An event that the loop has got from the queue while `wait_for` has not
returned it yet is still dispatched, for `wait_for` then drops the cancellation.

`stop` is called by a task of its own, and neither it nor `start` is called while `stop` is under way.
-/

namespace PolyCortex.Events

variable {η π : Type} (bus : EventBus η)

/-- The task of `_run_loop`: it has not begun or waits for an event, has got one, waits for a dispatch,
perhaps cancelled, or has ended. -/
inductive LoopState (π : Type) where
  | absent
  | waiting
  | holding (event : Event π)
  | dispatching (k : ℕ) (cancelled : Bool)
  | ended

/-- Whether `stop` was called, and what it waits for. -/
inductive StopState where
  | notCalled
  | awaitingLoop
  | draining (k : ℕ)
  | returned
  deriving DecidableEq

/-- A bus with its background task; the number of events that were accepted when `stop` was called. -/
structure Background (η π : Type) where
  state : BusState η π := {}
  running : Bool := false
  loop : LoopState π := .absent
  stopping : StopState := .notCalled
  acceptedBefore : ℕ := 0

/-- What happens: an event is published, `start` or `stop` is called, the loop takes an event, dispatches
it, goes on after a dispatch, or ends; `stop` goes on when the loop has ended, or after a dispatch; the
task of a call begins or ends, also by the cancellation. -/
inductive BackgroundStep (π : Type) where
  | publish (event : Event π)
  | start
  | stop
  | take
  | dispatch
  | resumeLoop
  | endLoop
  | drain
  | resumeStop
  | beginCall (k i : ℕ)
  | endCall (k i : ℕ) (ended : HandlerEnd)
  | abortCall (k i : ℕ)

/-- The status of a call whose task is cancelled. -/
def CallStatus.interrupt : CallStatus → CallStatus
  | .waiting => .skipped
  | .running => .interrupted
  | status => status

/-- Whether a handler may end like that: one that runs may, and one that has been cancelled if it does not
let that out. -/
def CallStatus.mayEnd (ended : HandlerEnd) : CallStatus → Bool
  | .running => true
  | .interrupted => ended ≠ .cancelled
  | _ => false

/-- The handler was not called, or was ended, because of a cancellation. -/
def CallStatus.Cut : CallStatus → Prop
  | .skipped | .aborted => True
  | _ => False

/-- A call that was cancelled before it was done. -/
def CallStatus.Cancelled : CallStatus → Prop
  | .interrupted | .skipped | .aborted => True
  | _ => False

namespace BusState

/-- The calls of a dispatch are cancelled. -/
def interrupt (k : ℕ) (s : BusState η π) : BusState η π :=
  s.modifyDispatch k fun d =>
    { d with calls := d.calls.map fun call => { call with status := call.status.interrupt } }

/-- `_dispatch` goes on with the cancellation. -/
def cancel (k : ℕ) (s : BusState η π) : BusState η π :=
  s.modifyDispatch k fun d => { d with state := .cancelled }

/-- A dispatch whose calls have ended. -/
def overAt (s : BusState η π) (k : ℕ) : Option (Dispatch η π) := (s.dispatches[k]?).filter fun d => Over d

end BusState

namespace Background

open BusState

/-- The events that the loop has taken and not dispatched. -/
def held (s : Background η π) : List (Event π) :=
  match s.loop with
  | .holding event => [event]
  | _ => []

/-- The dispatch that the loop waits for. -/
def waitsFor (s : Background η π) : Option ℕ :=
  match s.loop with
  | .dispatching k _ => some k
  | _ => none

/-- `stop` is not under way. -/
def Free (s : Background η π) : Prop := s.stopping = .notCalled ∨ s.stopping = .returned

instance (s : Background η π) : Decidable s.Free := inferInstanceAs (Decidable (_ ∨ _))

/-- `while self._running`. -/
def next (s : Background η π) : LoopState π := if s.running then .waiting else .ended

/-- `start`. -/
def start (s : Background η π) : Background η π :=
  if s.running then s else { s with running := true, loop := .waiting, stopping := .notCalled }

/-- `stop`, as far as the end of the loop; the loop is cancelled. -/
def stop (s : Background η π) : Background η π :=
  let s := { s with
    running := false
    stopping := .awaitingLoop
    acceptedBefore := s.state.accepted.length }
  match s.loop with
  | .dispatching k _ => { s with state := s.state.interrupt k, loop := .dispatching k true }
  | _ => s

/-- The loop gets the first event of the queue. After `stop` was called it still may, for `wait_for` gets
it in a task of its own, which the cancellation reaches later. -/
def take (s : Background η π) : Background η π :=
  match s.loop, s.state.queue with
  | .waiting, event :: queue => { s with state := { s.state with queue }, loop := .holding event }
  | _, _ => s

/-- The loop dispatches the event that it has got. -/
def dispatch (s : Background η π) : Background η π :=
  match s.loop with
  | .holding event =>
    { s with
      state := s.state.dispatch bus event s.state.queue 0
      loop :=
        if (bus.handlersOf event).isEmpty then s.next else .dispatching s.state.dispatches.length false }
  | _ => s

/-- The calls that the loop waits for have ended; it goes on, or it ends when it has been cancelled. -/
def resumeLoop (s : Background η π) : Background η π :=
  match s.loop with
  | .dispatching k cancelled =>
    match s.state.overAt k with
    | some _ =>
      if cancelled then { s with state := s.state.cancel k, loop := .ended }
      else { s with state := s.state.finish k, loop := s.next }
    | none => s
  | _ => s

/-- The cancelled loop ends. -/
def endLoop (s : Background η π) : Background η π :=
  match s.loop, s.running with
  | .waiting, false => { s with loop := .ended }
  | _, _ => s

/-- `process`, as `stop` calls it and goes on with it. -/
def process (processed : ℕ) (state : BusState η π) (s : Background η π) : Background η π :=
  { s with
    state := (state.drain bus state.queue processed).2
    stopping := match (state.drain bus state.queue processed).1 with
      | some k => .draining k
      | none => .returned }

/-- `stop` goes on when the loop has ended. -/
def drain (s : Background η π) : Background η π :=
  match s.stopping, s.loop with
  | .awaitingLoop, .absent | .awaitingLoop, .ended => s.process bus 0 s.state
  | _, _ => s

/-- `stop` goes on when the calls of a dispatch have ended. -/
def resumeStop (s : Background η π) : Background η π :=
  match s.stopping with
  | .draining k =>
    match s.state.overAt k with
    | some d => s.process bus (d.processed + 1) (s.state.finish k)
    | none => s
  | _ => s

/-- A step; what cannot happen changes nothing. -/
def step (s : Background η π) : BackgroundStep π → Background η π
  | .publish event => { s with state := s.state.publish bus event }
  | .start => if s.Free then s.start else s
  | .stop => if s.Free then s.stop else s
  | .take => s.take
  | .dispatch => s.dispatch bus
  | .resumeLoop => s.resumeLoop
  | .endLoop => s.endLoop
  | .drain => s.drain bus
  | .resumeStop => s.resumeStop bus
  | .beginCall k i =>
    if s.state.statusAt k i = some .waiting then { s with state := s.state.beginCall k i } else s
  | .endCall k i ended =>
    if (s.state.statusAt k i).any (CallStatus.mayEnd ended) then
      { s with state := s.state.endCall k i ended }
    else s
  | .abortCall k i =>
    if s.state.statusAt k i = some .interrupted then
      { s with state := s.state.modifyDispatch k (setStatus i .aborted) }
    else s

/-! ### Delivery -/

/-- The first events, as they were accepted, have been passed to their handlers, and these have returned
or raised by themselves. -/
def Completed (bus : EventBus η) (n : ℕ) (s : BusState η π) : Prop :=
  ∀ k < n, ∃ d, s.dispatches[k]? = some d ∧ s.accepted[k]? = some d.event ∧
    (d.calls.map fun call => call.handler) = bus.handlersOf d.event ∧
    ∀ i < (bus.handlersOf d.event).length, (k, i) ∈ s.passed ∧ ∃ ended, s.statusAt k i = some (.done ended)

/-- When `stop` is called, no task of the dispatch that the loop waits for has not begun; and a handler
that is cancelled does not end by that. -/
def Spares (s : Background η π) : BackgroundStep π → Prop
  | .stop => s.Free → ∀ k i, s.waitsFor = some k → s.state.statusAt k i ≠ some .waiting
  | .abortCall k i => s.state.statusAt k i ≠ some .interrupted
  | _ => True

end Background
end PolyCortex.Events
