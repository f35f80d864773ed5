import PolyCortex.Data.ListRuns
import PolyCortex.Events.Bus

/-!
# The log of the bus

The counters and the log agree: what was accepted has been dispatched or is in the queue, in the order
of publication, and the calls that have begun are those which have been passed their event, once. Every
operation of the bus keeps this (`Ledger`). An event that has left the queue and is not dispatched yet
is held.
-/

namespace PolyCortex.Events

variable {η π : Type} {bus : EventBus η}

/-- A dispatch has a call for every handler, and when it is over its calls have ended. -/
structure Dispatch.Valid (bus : EventBus η) (d : Dispatch η π) : Prop where
  handlers : (d.calls.map fun call => call.handler) = bus.handlersOf d.event
  settled : d.state ≠ .awaiting → ∀ call ∈ d.calls, call.status.Ended

/-- A call of the dispatch has begun. -/
def Dispatch.Begins (d : Dispatch η π) (i : ℕ) : Prop := ∃ call, d.calls[i]? = some call ∧ call.status.Begun

namespace BusState

/-- The errors that a dispatch has reported. -/
def reported (d : Dispatch η π) : ℕ := if d.state = .finished then failures d else 0

/-- A call has begun. -/
def Begins (s : BusState η π) (k i : ℕ) : Prop := ∃ call, s.callAt k i = some call ∧ call.status.Begun

/-- A dispatch waits for its calls. -/
def Awaits (s : BusState η π) (k : ℕ) : Prop := ∃ d, s.dispatches[k]? = some d ∧ d.state = .awaiting

/-- The log agrees with the counters, the queue and the calls, when some events are held. -/
structure Ledger (bus : EventBus η) (held : List (Event π)) (s : BusState η π) : Prop where
  ordered : (s.dispatches.map fun d => d.event) ++ held ++ s.queue = s.accepted
  full : ∀ publication ∈ s.published, publication.accepted = false ↔ bus.Full publication.queued
  counted : s.eventCount = s.dispatches.length
  errors : s.errorCount = s.dropped + (s.dispatches.map reported).sum
  valid : ∀ d ∈ s.dispatches, d.Valid bus
  begun : ∀ k i, (k, i) ∈ s.passed ↔ s.Begins k i
  once : s.passed.Nodup

variable {s : BusState η π} {held queue : List (Event π)} {event : Event π} {k i n : ℕ}
  {d : Dispatch η π} {f : Dispatch η π → Dispatch η π}

/-! ### Calls -/

lemma callAt_eq (h : s.dispatches[k]? = some d) (i : ℕ) : s.callAt k i = d.calls[i]? := by
  simp [callAt, h]

lemma exists_of_callAt {call : HandlerCall η} (h : s.callAt k i = some call) :
    ∃ d, s.dispatches[k]? = some d ∧ d.calls[i]? = some call := Option.bind_eq_some_iff.mp h

@[simp] lemma callAt_modifyDispatch_ne {k' : ℕ} (h : k' ≠ k) (i : ℕ) :
    (s.modifyDispatch k f).callAt k' i = s.callAt k' i := by
  simp [callAt, modifyDispatch, List.getElem?_modify_ne f s.dispatches h.symm]

lemma callAt_modifyDispatch_self (h : s.dispatches[k]? = some d) (i : ℕ) :
    (s.modifyDispatch k f).callAt k i = (f d).calls[i]? := by
  simp [callAt, modifyDispatch, h]

lemma getElem?_setStatus (status : CallStatus) (d : Dispatch η π) (i j : ℕ) :
    (setStatus i status d).calls[j]? =
      (d.calls[j]?).map fun call => if i = j then { call with status } else call := by
  simp only [setStatus, List.getElem?_modify]
  rfl

/-- A call that has not ended belongs to a dispatch that waits for it. -/
lemma Ledger.awaiting (h : Ledger bus held s) {call : HandlerCall η} (hcall : s.callAt k i = some call)
    (hended : ¬ call.status.Ended) :
    ∃ d, s.dispatches[k]? = some d ∧ d.calls[i]? = some call ∧ d.state = .awaiting := by
  obtain ⟨d, hk, hi⟩ := exists_of_callAt hcall
  refine ⟨d, hk, hi, ?_⟩
  by_contra hstate
  exact hended ((h.valid d (List.mem_of_getElem? hk)).settled hstate call (List.mem_of_getElem? hi))

/-! ### Events -/

lemma Ledger.publish (h : Ledger bus held s) (event : Event π) : Ledger bus held (s.publish bus event) := by
  unfold BusState.publish
  split
  case isTrue hfull =>
    refine ⟨?_, ?_, h.counted, ?_, h.valid, h.begun, h.once⟩
    · simpa [accepted] using h.ordered
    · intro publication hp
      rcases List.mem_append.mp hp with hp | hp
      · exact h.full publication hp
      · simp [List.mem_singleton.mp hp, hfull]
    · have herrors := h.errors
      simp only [dropped, List.countP_append] at herrors ⊢
      simp
      omega
  case isFalse hfull =>
    refine ⟨?_, ?_, h.counted, ?_, h.valid, h.begun, h.once⟩
    · have hordered := h.ordered
      rw [accepted] at hordered
      simp [accepted, ← hordered]
    · intro publication hp
      rcases List.mem_append.mp hp with hp | hp
      · exact h.full publication hp
      · simp [List.mem_singleton.mp hp, hfull]
    · simpa [dropped] using h.errors

/-- An event is taken from the queue. -/
lemma Ledger.take (h : Ledger bus [] s) (hqueue : s.queue = event :: queue) :
    Ledger bus [event] { s with queue } := by
  refine ⟨?_, h.full, h.counted, h.errors, h.valid, h.begun, h.once⟩
  have hordered := h.ordered
  rw [hqueue] at hordered
  simpa [accepted] using hordered

lemma callAt_dispatch_of_lt (hk : k < s.dispatches.length) :
    (s.dispatch bus event queue n).callAt k i = s.callAt k i := by
  simp [callAt, BusState.dispatch, List.getElem?_append_left hk]

lemma begins_dispatch : (s.dispatch bus event queue n).Begins k i ↔ s.Begins k i := by
  rcases lt_trichotomy k s.dispatches.length with hk | hk | hk
  · rw [Begins, callAt_dispatch_of_lt hk, Begins]
  · subst hk
    constructor
    · rintro ⟨call, hcall, hbegun⟩
      simp only [callAt, BusState.dispatch, List.getElem?_concat_length, Option.bind_some,
        List.getElem?_map, Option.map_eq_some_iff] at hcall
      obtain ⟨handler, -, rfl⟩ := hcall
      exact absurd hbegun id
    · rintro ⟨call, hcall, -⟩
      simp [callAt] at hcall
  · constructor <;> rintro ⟨call, hcall, -⟩
    · have hlength : (s.dispatch bus event queue n).dispatches.length ≤ k := by
        simp [BusState.dispatch]
        omega
      simp [callAt, List.getElem?_eq_none hlength] at hcall
    · simp [callAt, List.getElem?_eq_none hk.le] at hcall

lemma Ledger.dispatch (h : Ledger bus held s) (hqueue : held ++ s.queue = event :: queue) :
    Ledger bus [] (s.dispatch bus event queue n) := by
  refine ⟨?_, h.full, ?_, ?_, ?_, ?_, h.once⟩
  · have hordered := h.ordered
    rw [List.append_assoc, hqueue] at hordered
    simpa [BusState.dispatch, accepted] using hordered
  · simp [BusState.dispatch, h.counted]
  · have herrors := h.errors
    simp only [dropped] at herrors
    simp [BusState.dispatch, dropped, herrors, reported, failures, Function.comp_def]
  · intro d hd
    rcases List.mem_append.mp hd with hd | hd
    · exact h.valid d hd
    · rw [List.mem_singleton.mp hd]
      refine ⟨by simp [Function.comp_def], fun hstate call hcall => ?_⟩
      have hempty : bus.handlersOf event = [] := by
        by_contra hempty
        simp [hempty] at hstate
      simp [hempty] at hcall
  · intro k i
    rw [begins_dispatch]
    exact h.begun k i

lemma Ledger.return (h : Ledger bus held s) (n : ℕ) :
    Ledger bus held { s with returned := s.returned ++ [n] } :=
  ⟨h.ordered, h.full, h.counted, h.errors, h.valid, h.begun, h.once⟩

/-! ### Changes of a dispatch -/

/-- A dispatch is changed, with the errors it reports and the calls that have begun. -/
lemma Ledger.modify (h : Ledger bus held s) (hk : s.dispatches[k]? = some d)
    (hevent : (f d).event = d.event) (hvalid : (f d).Valid bus) (errorCount : ℕ)
    (herrors : errorCount + reported d = s.errorCount + reported (f d)) (passed : List (ℕ × ℕ))
    (hbegun : ∀ k' i, (k', i) ∈ passed ↔ (s.modifyDispatch k f).Begins k' i) (honce : passed.Nodup) :
    Ledger bus held { s.modifyDispatch k f with errorCount, passed } := by
  refine ⟨?_, h.full, ?_, ?_, ?_, hbegun, honce⟩
  · have hevents := List.map_modify_of_eq (l := s.dispatches) (k := k) (f := f)
      (g := fun d => d.event) (by rw [hk]; rintro _ ⟨⟩; exact hevent)
    simpa [modifyDispatch, hevents, accepted] using h.ordered
  · simp [modifyDispatch, h.counted]
  · have hsum := List.sum_map_modify (g := reported) (f := f) hk
    have hbefore := h.errors
    simp only [modifyDispatch, dropped] at hbefore ⊢
    omega
  · refine List.forall_mem_modify h.valid fun d' hd' => ?_
    rw [hk] at hd'
    obtain rfl := Option.some.inj hd'
    exact hvalid

lemma begins_modifyDispatch (hk : s.dispatches[k]? = some d)
    (hcalls : ∀ i, (f d).Begins i ↔ d.Begins i) (k' i : ℕ) :
    (s.modifyDispatch k f).Begins k' i ↔ s.Begins k' i := by
  by_cases hk' : k' = k
  · subst hk'
    rw [Begins, callAt_modifyDispatch_self hk, Begins, callAt_eq hk]
    exact hcalls i
  · rw [Begins, callAt_modifyDispatch_ne hk', Begins]

/-- A dispatch that waits is changed and has not finished then; the same calls have begun. -/
lemma Ledger.modifyDispatch (h : Ledger bus held s) (hk : s.dispatches[k]? = some d)
    (hstate : d.state = .awaiting) (hevent : (f d).event = d.event) (hvalid : (f d).Valid bus)
    (hfinished : (f d).state ≠ .finished)
    (hcalls : ∀ i, (f d).Begins i ↔ d.Begins i) :
    Ledger bus held (s.modifyDispatch k f) := by
  refine h.modify hk hevent hvalid s.errorCount ?_ s.passed ?_ h.once
  · simp [reported, hstate, hfinished]
  · intro k' i
    rw [begins_modifyDispatch hk hcalls]
    exact h.begun k' i

/-- A call of a dispatch that waits gets a status. -/
lemma valid_setStatus (h : d.Valid bus) (hstate : d.state = .awaiting) (i : ℕ) (status : CallStatus) :
    (setStatus i status d).Valid bus := by
  refine ⟨Eq.trans ?_ h.handlers, fun hover => absurd hstate hover⟩
  exact List.map_modify_of_eq fun _ _ => rfl

lemma Ledger.beginCall {call : HandlerCall η} (h : Ledger bus held s) (hcall : s.callAt k i = some call)
    (hwaiting : call.status = .waiting) : Ledger bus held (s.beginCall k i) := by
  obtain ⟨d, hk, hi, hstate⟩ := h.awaiting hcall (by simp [hwaiting, CallStatus.Ended])
  have hnot : ¬ s.Begins k i := by
    rintro ⟨call', hcall', hbegun⟩
    obtain rfl : call = call' := Option.some.inj (hcall ▸ hcall')
    exact absurd hbegun (by simp [hwaiting, CallStatus.Begun])
  have hvalid := h.valid d (List.mem_of_getElem? hk)
  refine h.modify hk (f := setStatus i .running) rfl (valid_setStatus hvalid hstate i _)
    s.errorCount ?_ (s.passed ++ [(k, i)]) ?_ ?_
  · simp [reported, setStatus, hstate]
  · intro k' j
    rw [List.mem_append, h.begun, List.mem_singleton, Prod.mk.injEq]
    by_cases hk' : k' = k
    · subst hk'
      rw [Begins, callAt_eq hk, Begins, callAt_modifyDispatch_self hk, getElem?_setStatus]
      by_cases hj : j = i
      · subst hj
        simp [hi, CallStatus.Begun]
      · simp [hj, Ne.symm hj]
    · simp [Begins, hk']
  · rw [List.nodup_append]
    refine ⟨h.once, List.nodup_singleton _, ?_⟩
    rintro passed hpassed _ hki rfl
    rw [List.mem_singleton.mp hki, h.begun] at hpassed
    exact hnot hpassed

lemma Ledger.setStatus {call : HandlerCall η} {status : CallStatus} (h : Ledger bus held s)
    (hcall : s.callAt k i = some call) (hended : ¬ call.status.Ended) (hbegun : call.status.Begun)
    (hstatus : status.Begun) : Ledger bus held (s.modifyDispatch k (BusState.setStatus i status)) := by
  obtain ⟨d, hk, hi, hstate⟩ := h.awaiting hcall hended
  have hvalid := h.valid d (List.mem_of_getElem? hk)
  have hwaits : (BusState.setStatus i status d).state ≠ .finished := by
    simp [BusState.setStatus, hstate]
  refine h.modifyDispatch hk hstate rfl (valid_setStatus hvalid hstate i _) hwaits ?_
  intro j
  rw [Dispatch.Begins, getElem?_setStatus, Dispatch.Begins]
  by_cases hj : i = j
  · subst hj
    simp [hi, hbegun, hstatus]
  · simp [hj]

lemma Ledger.endCall {call : HandlerCall η} (h : Ledger bus held s) (hcall : s.callAt k i = some call)
    (hended : ¬ call.status.Ended) (hbegun : call.status.Begun) (ended : HandlerEnd) :
    Ledger bus held (s.endCall k i ended) := h.setStatus hcall hended hbegun trivial

lemma Ledger.finish (h : Ledger bus held s) (hk : s.dispatches[k]? = some d) (hstate : d.state = .awaiting)
    (hended : ∀ call ∈ d.calls, call.status.Ended) : Ledger bus held (s.finish k) := by
  have hvalid := h.valid d (List.mem_of_getElem? hk)
  refine h.modify hk (f := fun d => { d with state := .finished }) rfl
    ⟨hvalid.handlers, fun _ => hended⟩ _ ?_ s.passed ?_ h.once
  · simp [reported, hstate, hk, failures]
  · intro k' i
    rw [begins_modifyDispatch hk fun i => Iff.rfl]
    exact h.begun k' i

/-! ### Draining the queue -/

/-- What is kept while events without handlers are dispatched leads to what holds in the end: `process`
returns, or it waits for the last dispatch. -/
lemma drain_keeps {P : ℕ → BusState η π → Prop} {Q : Option ℕ → BusState η π → Prop}
    (hreturn : ∀ {n s}, P n s → s.queue = [] → Q none { s with returned := s.returned ++ [n] })
    (hempty : ∀ {n s event queue}, P n s → s.queue = event :: queue → bus.handlersOf event = [] →
      P (n + 1) (s.dispatch bus event queue n))
    (hwait : ∀ {n s event queue}, P n s → s.queue = event :: queue → bus.handlersOf event ≠ [] →
      Q (some s.dispatches.length) (s.dispatch bus event queue n))
    (h : P n s) : Q (s.drain bus s.queue n).1 (s.drain bus s.queue n).2 := by
  induction hqueue : s.queue generalizing s n with
  | nil => exact hreturn h hqueue
  | cons event queue ih =>
    rw [drain]
    by_cases hhandlers : bus.handlersOf event = []
    · rw [if_pos (by simpa using hhandlers)]
      exact ih (hempty h hqueue hhandlers) rfl
    · rw [if_neg (by simpa using hhandlers)]
      exact hwait h hqueue hhandlers

lemma Ledger.drain (h : Ledger bus [] s) (n : ℕ) : Ledger bus [] (s.drain bus s.queue n).2 := by
  apply drain_keeps (P := fun _ => Ledger bus []) (Q := fun _ => Ledger bus []) ?_ ?_ ?_ h
  · exact fun h _ => h.return _
  · exact fun h hqueue _ => h.dispatch hqueue
  · exact fun h hqueue _ => h.dispatch hqueue

end BusState
end PolyCortex.Events
