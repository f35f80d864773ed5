import PolyCortex.Events.Ledger
import PolyCortex.Machine.History

/-!
# Event delivery

A bus that is used through `publish` and `process`: events are published at any time, also by handlers,
and every call of `process` drains the queue, waiting for each dispatch. Tasks begin and end in any order,
and their handlers may raise. Whatever they do, no event is lost but those which `publish` drops
(`events_delivered`).
-/

namespace PolyCortex.Events

variable {η π : Type} (bus : EventBus η)

namespace EventBus

variable {bus}

lemma handlersOf_subscribe_perm (eventType : EventType) (handler : η) (event : Event π) :
    ((bus.subscribe eventType handler).handlersOf event).Perm
      (if event.eventType = eventType then handler :: bus.handlersOf event else bus.handlersOf event) := by
  by_cases htype : event.eventType = eventType
  · subst htype
    rw [if_pos rfl]
    simp [handlersOf, subscribe]
  · simp [handlersOf, subscribe, htype]

lemma handlersOf_subscribeAll (handler : η) (event : Event π) :
    (bus.subscribeAll handler).handlersOf event = bus.handlersOf event ++ [handler] := by
  simp [handlersOf, subscribeAll]

end EventBus

/-- What happens: an event is published, `process` is called, the task of a call begins or ends, or a
dispatch goes on when all of its calls have ended. -/
inductive BusStep (π : Type) where
  | publish (event : Event π)
  | process
  | beginCall (k i : ℕ)
  | endCall (k i : ℕ) (ended : HandlerEnd)
  | resume (k : ℕ)

namespace BusState

/-- The status of a call. -/
def statusAt (s : BusState η π) (k i : ℕ) : Option CallStatus := (s.callAt k i).map fun call => call.status

/-- A dispatch can go on: all calls that it waits for have ended. -/
def Over (d : Dispatch η π) : Prop := d.state = .awaiting ∧ ∀ call ∈ d.calls, call.status.Ended

instance (d : Dispatch η π) : Decidable (Over d) := inferInstanceAs (Decidable (_ ∧ _))

/-- A step; what cannot happen changes nothing. -/
def step (s : BusState η π) : BusStep π → BusState η π
  | .publish event => s.publish bus event
  | .process => (s.drain bus s.queue 0).2
  | .beginCall k i => if s.statusAt k i = some .waiting then s.beginCall k i else s
  | .endCall k i ended => if s.statusAt k i = some .running then s.endCall k i ended else s
  | .resume k =>
    match s.dispatches[k]? with
    | some d => if Over d then ((s.finish k).drain bus (s.finish k).queue (d.processed + 1)).2 else s
    | none => s

variable {bus} {s : BusState η π} {k i : ℕ}

lemma statusAt_eq_some {status : CallStatus} :
    s.statusAt k i = some status ↔ ∃ call, s.callAt k i = some call ∧ call.status = status :=
  Option.map_eq_some_iff

/-- What `process` will have processed with a dispatch that it waits for. -/
def processing (d : Dispatch η π) : ℕ := if d.state = .awaiting then d.processed + 1 else 0

/-- No call is skipped, and what was dispatched is what the calls of `process` have processed. -/
structure Delivering (bus : EventBus η) (s : BusState η π) : Prop where
  ledger : s.Ledger bus []
  unskipped : ∀ d ∈ s.dispatches, ∀ call ∈ d.calls, call.status ≠ .skipped
  processed : s.returned.sum + (s.dispatches.map processing).sum = s.dispatches.length

/-- While the queue is drained, what it has processed is counted as well. -/
structure Draining (bus : EventBus η) (n : ℕ) (s : BusState η π) : Prop where
  ledger : s.Ledger bus []
  unskipped : ∀ d ∈ s.dispatches, ∀ call ∈ d.calls, call.status ≠ .skipped
  processed : s.returned.sum + (s.dispatches.map processing).sum + n = s.dispatches.length

lemma unskipped_dispatch (bus : EventBus η) (event : Event π) (queue : List (Event π)) (n : ℕ)
    (h : ∀ d ∈ s.dispatches, ∀ call ∈ d.calls, call.status ≠ .skipped) :
    ∀ d ∈ (s.dispatch bus event queue n).dispatches, ∀ call ∈ d.calls, call.status ≠ .skipped := by
  intro d hd call hcall
  rcases List.mem_append.mp hd with hd | hd
  · exact h d hd call hcall
  · rw [List.mem_singleton.mp hd] at hcall
    obtain ⟨handler, -, rfl⟩ := List.mem_map.mp hcall
    simp

/-- A new dispatch waits for its calls, or it is one more that is processed. -/
lemma Draining.dispatch {n : ℕ} {event : Event π} {queue : List (Event π)} (h : Draining bus n s)
    (hqueue : s.queue = event :: queue) :
    (bus.handlersOf event = [] → Draining bus (n + 1) (s.dispatch bus event queue n)) ∧
      (bus.handlersOf event ≠ [] → Delivering bus (s.dispatch bus event queue n)) := by
  have hledger := h.ledger.dispatch (n := n) hqueue
  have hunskipped := unskipped_dispatch bus event queue n h.unskipped
  have hprocessed := h.processed
  constructor
  · intro hhandlers
    refine ⟨hledger, hunskipped, ?_⟩
    simp [BusState.dispatch, hhandlers, processing] at hprocessed ⊢
    omega
  · intro hhandlers
    refine ⟨hledger, hunskipped, ?_⟩
    simp [BusState.dispatch, hhandlers, processing] at hprocessed ⊢
    omega

lemma Draining.drain {n : ℕ} (h : Draining bus n s) : Delivering bus (s.drain bus s.queue n).2 := by
  apply drain_keeps (P := Draining bus) (Q := fun _ => Delivering bus) ?_ ?_ ?_ h
  · intro n s h hqueue
    refine ⟨h.ledger.return n, h.unskipped, ?_⟩
    have hprocessed := h.processed
    simp only [List.sum_append, List.sum_singleton]
    omega
  · exact fun h hqueue hhandlers => (h.dispatch hqueue).1 hhandlers
  · exact fun h hqueue hhandlers => (h.dispatch hqueue).2 hhandlers

lemma mem_setStatus {status : CallStatus} {d : Dispatch η π} {call : HandlerCall η}
    (h : call ∈ (setStatus i status d).calls) : call ∈ d.calls ∨ call.status = status := by
  obtain ⟨j, hj⟩ := List.mem_iff_getElem?.mp h
  rw [getElem?_setStatus] at hj
  obtain ⟨call', hcall', rfl⟩ := Option.map_eq_some_iff.mp hj
  split
  case isTrue => exact Or.inr rfl
  case isFalse => exact Or.inl (List.mem_of_getElem? hcall')

/-- A call gets a status with which it is not skipped. -/
lemma Delivering.setStatus {status : CallStatus} {s' : BusState η π} (h : Delivering bus s)
    (hledger : s'.Ledger bus []) (hdispatches : s'.dispatches = s.dispatches.modify k (setStatus i status))
    (hreturned : s'.returned = s.returned) (hstatus : status ≠ .skipped) : Delivering bus s' := by
  refine ⟨hledger, ?_, ?_⟩
  · rw [hdispatches]
    refine List.forall_mem_modify h.unskipped fun d hk call hcall => ?_
    rcases mem_setStatus hcall with hcall | hcall
    · exact h.unskipped d (List.mem_of_getElem? hk) call hcall
    · exact hcall ▸ hstatus
  · have hmap : (s.dispatches.modify k (BusState.setStatus i status)).map processing =
        s.dispatches.map processing := List.map_modify_of_eq fun _ _ => rfl
    rw [hdispatches, hmap, hreturned, List.length_modify]
    exact h.processed

/-- A dispatch goes on: `process` has one event more. -/
lemma Delivering.finish {d : Dispatch η π} (h : Delivering bus s) (hk : s.dispatches[k]? = some d)
    (hover : Over d) : Draining bus (d.processed + 1) (s.finish k) := by
  refine ⟨h.ledger.finish hk hover.1 hover.2, ?_, ?_⟩
  · refine List.forall_mem_modify h.unskipped fun d hk => ?_
    exact h.unskipped d (List.mem_of_getElem? hk)
  · have hsum := List.sum_map_modify (g := processing) (f := fun d => { d with state := .finished }) hk
    have hprocessed := h.processed
    have hawaiting : processing d = d.processed + 1 := if_pos hover.1
    have hfinished : processing { d with state := .finished } = 0 := if_neg (by simp)
    simp only [BusState.finish, modifyDispatch, List.length_modify]
    omega

theorem Delivering.step (h : Delivering bus s) (event : BusStep π) : Delivering bus (s.step bus event) := by
  cases event with
  | publish event =>
    refine ⟨h.ledger.publish event, ?_, ?_⟩
    · simpa [BusState.step] using h.unskipped
    · simpa [BusState.step] using h.processed
  | process =>
    have hdraining : Draining bus 0 s := ⟨h.ledger, h.unskipped, h.processed⟩
    exact hdraining.drain
  | beginCall k i =>
    rw [BusState.step]
    split
    case isTrue hstatus =>
      obtain ⟨call, hcall, hwaiting⟩ := statusAt_eq_some.mp hstatus
      exact h.setStatus (h.ledger.beginCall hcall hwaiting) rfl rfl (by simp)
    case isFalse => exact h
  | endCall k i ended =>
    rw [BusState.step]
    split
    case isTrue hstatus =>
      obtain ⟨call, hcall, hrunning⟩ := statusAt_eq_some.mp hstatus
      have hbegun : call.status.Begun := by simp [hrunning, CallStatus.Begun]
      have hended : ¬ call.status.Ended := by simp [hrunning, CallStatus.Ended]
      exact h.setStatus (h.ledger.endCall hcall hended hbegun ended) rfl rfl (by simp)
    case isFalse => exact h
  | resume k =>
    rw [BusState.step]
    split
    next d hk =>
      split
      case isTrue hover => exact (h.finish hk hover).drain
      case isFalse => exact h
    next => exact h

theorem delivering (bus : EventBus η) (steps : List (BusStep π)) :
    Delivering bus (Machine.run (step bus) {} steps) := by
  apply Machine.run_invariant ?_ fun _ event h => h.step event
  refine ⟨⟨rfl, by simp, rfl, rfl, by simp, ?_, List.nodup_nil⟩, by simp, rfl⟩
  simp [Begins, callAt]

/-! ### Delivery -/

/-- No published event is unaccounted for, and those which are not dropped are dispatched in order; a
dispatched event is passed to no handler twice, and to every one of them before its dispatch has
finished. A handler which has not been passed its event can be called, whatever the other ones do. -/
structure Delivers (bus : EventBus η) (s : BusState η π) : Prop where
  conserved : s.published.length = s.eventCount + s.dropped + s.queue.length
  counted : s.eventCount = s.dispatches.length
  ordered : (s.dispatches.map fun d => d.event) ++ s.queue = s.accepted
  passedTo : ∀ k i, (k, i) ∈ s.passed → ∃ d call, s.dispatches[k]? = some d ∧ d.calls[i]? = some call ∧
    (bus.handlersOf d.event)[i]? = some call.handler
  atMostOnce : ∀ k i, s.passed.count (k, i) ≤ 1
  exactlyOnce : ∀ k d, s.dispatches[k]? = some d → d.state ≠ .awaiting →
    ∀ i < (bus.handlersOf d.event).length, s.passed.count (k, i) = 1
  pending : ∀ k d, s.dispatches[k]? = some d → ∀ i < (bus.handlersOf d.event).length,
    (k, i) ∉ s.passed → (s.step bus (.beginCall k i)).passed = s.passed ++ [(k, i)]
  full : ∀ publication ∈ s.published, publication.accepted = false → bus.Full publication.queued
  errors : s.errorCount = s.dropped + (s.dispatches.map reported).sum
  processed : s.returned.sum + (s.dispatches.map processing).sum = s.dispatches.length

lemma accepted_length_add_dropped (s : BusState η π) :
    s.accepted.length + s.dropped = s.published.length := by
  rw [accepted, dropped, List.length_map, ← List.countP_eq_length_filter,
    List.length_eq_countP_add_countP (fun publication => publication.accepted) (l := s.published)]
  simp

/-- Every handler of a dispatched event has a call. -/
lemma Ledger.exists_call {held : List (Event π)} {d : Dispatch η π} (h : s.Ledger bus held)
    (hk : s.dispatches[k]? = some d) (hi : i < (bus.handlersOf d.event).length) :
    ∃ call, d.calls[i]? = some call ∧ call ∈ d.calls := by
  have hvalid := h.valid d (List.mem_of_getElem? hk)
  rw [← hvalid.handlers, List.length_map] at hi
  exact ⟨_, List.getElem?_eq_getElem hi, List.getElem_mem hi⟩

lemma Delivering.begun_or_waiting {d : Dispatch η π} {call : HandlerCall η} (h : Delivering bus s)
    (hk : s.dispatches[k]? = some d) (hcall : call ∈ d.calls) :
    call.status.Begun ∨ call.status = .waiting := by
  have hskipped := h.unskipped d (List.mem_of_getElem? hk) call hcall
  cases hstatus : call.status with
  | waiting => exact Or.inr rfl
  | skipped => exact absurd hstatus hskipped
  | running | interrupted | done | aborted => exact Or.inl trivial

lemma Delivering.toDelivers (h : Delivering bus s) : Delivers bus s := by
  have hordered : (s.dispatches.map fun d => d.event) ++ s.queue = s.accepted := by
    simpa using h.ledger.ordered
  have honce : ∀ k i, s.passed.count (k, i) ≤ 1 := fun k i => List.nodup_iff_count_le_one.mp h.ledger.once _
  refine ⟨?_, h.ledger.counted, hordered, ?_, honce, ?_, ?_, ?_, h.ledger.errors, h.processed⟩
  · have hlength := congrArg List.length hordered
    simp only [List.length_append, List.length_map] at hlength
    have haccepted := accepted_length_add_dropped s
    have hcounted := h.ledger.counted
    omega
  · intro k i hpassed
    obtain ⟨call, hcall, -⟩ := (h.ledger.begun k i).mp hpassed
    obtain ⟨d, hk, hi⟩ := exists_of_callAt hcall
    refine ⟨d, call, hk, hi, ?_⟩
    rw [← (h.ledger.valid d (List.mem_of_getElem? hk)).handlers, List.getElem?_map, hi, Option.map_some]
  · intro k d hk hstate i hi
    obtain ⟨call, hcall, hmem⟩ := h.ledger.exists_call hk hi
    have hended := (h.ledger.valid d (List.mem_of_getElem? hk)).settled hstate call hmem
    have hbegun : call.status.Begun := by
      rcases h.begun_or_waiting hk hmem with hbegun | hwaiting
      · exact hbegun
      · simp [hwaiting, CallStatus.Ended] at hended
    have hpassed : (k, i) ∈ s.passed := (h.ledger.begun k i).mpr ⟨call, callAt_eq hk i ▸ hcall, hbegun⟩
    exact le_antisymm (honce k i) (List.count_pos_iff.mpr hpassed)
  · intro k d hk i hi hpassed
    obtain ⟨call, hcall, hmem⟩ := h.ledger.exists_call hk hi
    rw [← callAt_eq hk] at hcall
    rcases h.begun_or_waiting hk hmem with hbegun | hwaiting
    · exact absurd ((h.ledger.begun k i).mpr ⟨call, hcall, hbegun⟩) hpassed
    · rw [BusState.step, if_pos (statusAt_eq_some.mpr ⟨call, hcall, hwaiting⟩)]
      rfl
  · exact fun publication hp haccepted => (h.ledger.full publication hp).mp haccepted

/-- Whatever is published and processed, and whatever the handlers do, the events are delivered. -/
theorem events_delivered (bus : EventBus η) (steps : List (BusStep π)) :
    Delivers bus (Machine.run (step bus) {} steps) := (delivering bus steps).toDelivers

end BusState
end PolyCortex.Events
