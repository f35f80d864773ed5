import PolyCortex.Events.CutOff

/-!
# What stopping the bus leaves

Every event that was accepted before `stop` was called has been dispatched when it returns. The calls have
been completed but for those of the dispatch that the loop waited for then, if they had not begun or their
handlers were ended by the cancellation (`stop_drains_iff`).
-/

namespace PolyCortex.Events

variable {η π : Type} {bus : EventBus η}

namespace Background

open BusState

variable {s : Background η π} {k i : ℕ} {status : CallStatus}

/-! ### What is dispatched -/

/-- The dispatches that wait are those of the loop and of `stop`; the loop is over when `stop` drains the
queue, and there is none before `start`; what was accepted before `stop` is dispatched when it returns. -/
structure Consistent (bus : EventBus η) (s : Background η π) : Prop where
  ledger : s.state.Ledger bus s.held
  awaits : ∀ k, s.state.Awaits k ↔ s.waitsFor = some k ∨ s.stopping = .draining k
  stopped : (∃ k, s.stopping = .draining k) ∨ s.stopping = .returned → s.loop = .absent ∨ s.loop = .ended
  idle : s.stopping = .notCalled → s.running = false → s.loop = .absent
  before : s.acceptedBefore ≤ s.state.accepted.length
  dispatched : s.stopping = .returned → s.acceptedBefore ≤ s.state.dispatches.length

lemma Consistent.unheld (h : Consistent bus s) (hheld : s.held = []) : s.state.Ledger bus [] :=
  hheld ▸ h.ledger

/-- A loop that is not in the middle of a dispatch. -/
lemma held_next (s : Background η π) (state : BusState η π) :
    held { s with state, loop := s.next } = [] := by
  unfold held next
  cases s.running <;> rfl

lemma Consistent.publish (h : Consistent bus s) (event : Event π) :
    Consistent bus { s with state := s.state.publish bus event } := by
  refine ⟨h.ledger.publish event, fun k => ?_, h.stopped, h.idle, ?_, ?_⟩
  · rw [Awaits, publish_dispatches]
    exact h.awaits k
  · exact h.before.trans (accepted_publish event s.state)
  · simpa using h.dispatched

lemma not_ended_and_begun_of_mayEnd {ended : HandlerEnd} (h : status.mayEnd ended) :
    ¬ status.Ended ∧ status.Begun := by
  cases status with
  | running | interrupted => exact ⟨id, trivial⟩
  | waiting | done | skipped | aborted => simp [CallStatus.mayEnd] at h

/-- A call changes. -/
lemma Consistent.modifyDispatch {f : Dispatch η π → Dispatch η π} {state : BusState η π}
    (h : Consistent bus s) (hledger : state.Ledger bus s.held)
    (hstate : ∀ d, (f d).state = d.state) (haccepted : state.accepted = s.state.accepted)
    (hdispatches : state.dispatches = s.state.dispatches.modify k f) : Consistent bus { s with state } := by
  refine ⟨hledger, fun k' => ?_, h.stopped, h.idle, ?_, ?_⟩
  · have hsame := awaits_modifyDispatch (s := s.state) (k := k) hstate k'
    rw [Awaits, BusState.modifyDispatch, ← hdispatches] at hsame
    exact hsame.trans (h.awaits k')
  · exact haccepted ▸ h.before
  · rw [hdispatches, List.length_modify]
    exact h.dispatched

lemma Consistent.start (h : Consistent bus s) (hfree : s.Free) : Consistent bus s.start := by
  unfold Background.start
  split
  case isTrue => exact h
  case isFalse hrunning =>
    have hloop : s.loop = .absent ∨ s.loop = .ended := by
      rcases hfree with hnot | hreturned
      · exact Or.inl (h.idle hnot (by simpa using hrunning))
      · exact h.stopped (Or.inr hreturned)
    have hheld : s.held = [] := by rcases hloop with hloop | hloop <;> simp [held, hloop]
    have hwaits : ∀ k, ¬ s.state.Awaits k := by
      intro k
      rw [h.awaits]
      rcases hloop with hloop | hloop <;> rcases hfree with hfree | hfree <;> simp [waitsFor, hloop, hfree]
    refine ⟨?_, fun k => ?_, by simp, by simp, h.before, by simp⟩
    · exact h.unheld hheld
    · simp [hwaits, waitsFor]

lemma Consistent.stop (h : Consistent bus s) (hfree : s.Free) : Consistent bus s.stop := by
  have hnot : ∀ k, s.stopping ≠ .draining k := by
    intro k
    rcases hfree with hfree | hfree <;> simp [hfree]
  have hawaits : ∀ k, s.state.Awaits k ↔ s.waitsFor = some k := by simpa [hnot] using h.awaits
  unfold Background.stop
  cases hloop : s.loop with
  | dispatching k cancelled =>
    have hk : s.state.Awaits k := (hawaits k).mpr (by simp [waitsFor, hloop])
    obtain ⟨d, hd, hstate⟩ := hk
    have hvalid := h.ledger.valid d (List.mem_of_getElem? hd)
    have hheld : s.held = [] := by simp [held, hloop]
    refine ⟨?_, fun k' => ?_, by simp, by simp, le_rfl, by simp⟩
    · refine (h.unheld hheld).modifyDispatch hd hstate rfl ⟨?_, ?_⟩ (by simp [hstate]) ?_
      · simpa [Function.comp_def] using hvalid.handlers
      · exact fun hover => absurd hstate hover
      · intro i
        simp only [Dispatch.Begins, List.getElem?_map]
        rcases d.calls[i]? with - | call
        · simp
        · cases hstatus : call.status <;> simp [hstatus, CallStatus.interrupt, CallStatus.Begun]
    · refine (awaits_interrupt k k').trans ?_
      simp [hawaits, waitsFor, hloop]
  | absent | waiting | holding | ended =>
    refine ⟨by simpa [held, hloop] using h.ledger, fun k => ?_, by simp, by simp, le_rfl, by simp⟩
    simp [hawaits, waitsFor, hloop]

/-- While there is a loop, `stop` does not drain the queue. -/
lemma Consistent.not_stopped (h : Consistent bus s) (habsent : s.loop ≠ .absent)
    (hended : s.loop ≠ .ended) : (∀ k, s.stopping ≠ .draining k) ∧ s.stopping ≠ .returned := by
  have hnot : ¬ ((∃ k, s.stopping = .draining k) ∨ s.stopping = .returned) := fun hstopped =>
    (h.stopped hstopped).elim habsent hended
  simpa using hnot

lemma Consistent.awaits_iff (h : Consistent bus s) (habsent : s.loop ≠ .absent) (hended : s.loop ≠ .ended)
    (k : ℕ) : s.state.Awaits k ↔ s.waitsFor = some k := by
  simpa [(h.not_stopped habsent hended).1 k] using h.awaits k

/-- The loop takes a step. -/
lemma Consistent.loop {state : BusState η π} {loop : LoopState π} (h : Consistent bus s)
    (habsent : s.loop ≠ .absent) (hended : s.loop ≠ .ended)
    (hledger : state.Ledger bus (held { s with state, loop }))
    (hawaits : ∀ k, state.Awaits k ↔ waitsFor { s with state, loop } = some k)
    (haccepted : state.accepted = s.state.accepted) : Consistent bus { s with state, loop } := by
  obtain ⟨hdraining, hreturned⟩ := h.not_stopped habsent hended
  refine ⟨hledger, fun k => ?_, ?_, ?_, haccepted ▸ h.before, ?_⟩
  · simpa [hdraining] using hawaits k
  · simp [hdraining, hreturned]
  · exact fun hnot hrunning => absurd (h.idle hnot hrunning) habsent
  · exact fun hstop => absurd hstop hreturned

lemma Consistent.take (h : Consistent bus s) : Consistent bus s.take := by
  unfold Background.take
  split
  next event queue hloop hqueue =>
    have hheld : s.held = [] := by simp [held, hloop]
    have hawaits := h.awaits_iff (by simp [hloop]) (by simp [hloop])
    refine h.loop (by simp [hloop]) (by simp [hloop]) ?_ ?_ ?_
    · exact (h.unheld hheld).take hqueue
    · intro k
      simpa [waitsFor, hloop, Awaits] using hawaits k
    · rfl
  next => exact h

lemma waitsFor_next (s : Background η π) (state : BusState η π) :
    waitsFor { s with state, loop := s.next } = none := by
  unfold waitsFor next
  cases s.running <;> rfl

lemma Consistent.dispatch (h : Consistent bus s) : Consistent bus (s.dispatch bus) := by
  unfold Background.dispatch
  split
  next event hloop =>
    have hledger : s.state.Ledger bus [event] := by simpa [held, hloop] using h.ledger
    have hawaits : ∀ k, ¬ s.state.Awaits k := by
      intro k
      rw [h.awaits_iff (by simp [hloop]) (by simp [hloop])]
      simp [waitsFor, hloop]
    by_cases hhandlers : bus.handlersOf event = []
    · simp only [hhandlers, List.isEmpty_nil, if_true]
      refine h.loop (by simp [hloop]) (by simp [hloop]) ?_ ?_ ?_
      · rw [held_next]
        exact hledger.dispatch rfl
      · simp [waitsFor_next, awaits_dispatch, hawaits, hhandlers]
      · rfl
    · simp only [List.isEmpty_iff, hhandlers, if_false]
      refine h.loop (by simp [hloop]) (by simp [hloop]) ?_ ?_ ?_
      · exact hledger.dispatch rfl
      · simp [waitsFor, awaits_dispatch, hawaits, hhandlers, eq_comm]
      · rfl
  next => exact h

lemma Consistent.resumeLoop (h : Consistent bus s) : Consistent bus s.resumeLoop := by
  unfold Background.resumeLoop
  split
  next k cancelled hloop =>
    split
    next d hover =>
      obtain ⟨hk, hstate, hended⟩ := overAt_eq_some.mp hover
      have hheld : s.held = [] := by simp [held, hloop]
      have hledger := h.unheld hheld
      have hvalid := hledger.valid d (List.mem_of_getElem? hk)
      have hawaits : ∀ k', s.state.Awaits k' ↔ k = k' := by
        intro k'
        rw [h.awaits_iff (by simp [hloop]) (by simp [hloop])]
        simp [waitsFor, hloop]
      cases cancelled with
      | true =>
        rw [if_pos rfl]
        refine h.loop (by simp [hloop]) (by simp [hloop]) ?_ ?_ ?_
        · exact hledger.modifyDispatch hk hstate rfl ⟨hvalid.handlers, fun _ => hended⟩ (by simp)
            fun _ => Iff.rfl
        · intro k'
          rw [cancel, awaits_modifyDispatch_of_ne (by simp), hawaits]
          simp [waitsFor, eq_comm]
        · rfl
      | false =>
        rw [if_neg Bool.false_ne_true]
        refine h.loop (by simp [hloop]) (by simp [hloop]) ?_ ?_ ?_
        · rw [held_next]
          exact hledger.finish hk hstate hended
        · intro k'
          rw [awaits_finish, hawaits, waitsFor_next]
          simp [eq_comm]
        · rfl
    next => exact h
  next => exact h

lemma Consistent.endLoop (h : Consistent bus s) : Consistent bus s.endLoop := by
  unfold Background.endLoop
  split
  next hloop hrunning =>
    have hheld : s.held = [] := by simp [held, hloop]
    refine h.loop (by simp [hloop]) (by simp [hloop]) ?_ ?_ ?_
    · exact h.unheld hheld
    · intro k
      rw [h.awaits_iff (by simp [hloop]) (by simp [hloop])]
      simp [waitsFor, hloop]
    · rfl
  next => exact h

/-- `stop` drains the queue: the loop is over, and no dispatch waits. -/
lemma Consistent.process {state : BusState η π} (h : Consistent bus s) (n : ℕ)
    (hloop : s.loop = .absent ∨ s.loop = .ended) (hledger : state.Ledger bus [])
    (hawaits : ∀ k, ¬ state.Awaits k) (haccepted : state.accepted = s.state.accepted) :
    Consistent bus (s.process bus n state) := by
  have hheld : held (s.process bus n state) = [] := by
    rcases hloop with hloop | hloop <;> simp [held, Background.process, hloop]
  have hwaitsFor : waitsFor (s.process bus n state) = none := by
    rcases hloop with hloop | hloop <;> simp [waitsFor, Background.process, hloop]
  have hdrains := drains bus state n
  have hdrained := hledger.drain n
  refine ⟨hheld ▸ hdrained, fun k => ?_, fun _ => hloop, ?_, ?_, ?_⟩
  · rw [hwaitsFor]
    refine (hdrains.awaits k).trans ?_
    simp only [hawaits, false_or, reduceCtorEq, Background.process]
    rcases (state.drain bus state.queue n).1 with - | k' <;> simp
  · simp only [Background.process]
    rcases (state.drain bus state.queue n).1 with - | k' <;> simp
  · exact h.before.trans_eq (congrArg List.length (hdrains.accepted.trans haccepted)).symm
  · intro hreturned
    have hnone : (state.drain bus state.queue n).1 = none := by
      simp only [Background.process] at hreturned
      rcases hresult : (state.drain bus state.queue n).1 with - | k'
      · rfl
      · simp [hresult] at hreturned
    have hordered := congrArg List.length hdrained.ordered
    simp only [hdrains.empty hnone, hdrains.accepted, haccepted, List.append_nil, List.length_map]
      at hordered
    exact h.before.trans_eq hordered.symm

lemma Consistent.drain (h : Consistent bus s) : Consistent bus (s.drain bus) := by
  -- the loop is over and `stop` has not begun to drain the queue
  have hprocess : s.stopping = .awaitingLoop → s.loop = .absent ∨ s.loop = .ended →
      Consistent bus (s.process bus 0 s.state) := by
    intro hstopping hloop
    have hheld : s.held = [] := by rcases hloop with hloop | hloop <;> simp [held, hloop]
    refine h.process 0 hloop (h.unheld hheld) (fun k => ?_) rfl
    rw [h.awaits]
    rcases hloop with hloop | hloop <;> simp [waitsFor, hloop, hstopping]
  unfold Background.drain
  split
  next hstopping hloop => exact hprocess hstopping (Or.inl hloop)
  next hstopping hloop => exact hprocess hstopping (Or.inr hloop)
  next => exact h

lemma Consistent.resumeStop (h : Consistent bus s) : Consistent bus (s.resumeStop bus) := by
  unfold Background.resumeStop
  split
  next k hstopping =>
    split
    next d hover =>
      obtain ⟨hk, hstate, hended⟩ := overAt_eq_some.mp hover
      have hloop := h.stopped (Or.inl ⟨k, hstopping⟩)
      have hheld : s.held = [] := by rcases hloop with hloop | hloop <;> simp [held, hloop]
      refine h.process _ hloop ((h.unheld hheld).finish hk hstate hended) (fun k' => ?_) rfl
      rw [awaits_finish, h.awaits, hstopping]
      rcases hloop with hloop | hloop <;> simp [waitsFor, hloop, eq_comm]
    next => exact h
  next => exact h

/-- Every step keeps this. -/
theorem Consistent.step (h : Consistent bus s) (event : BackgroundStep π) :
    Consistent bus (s.step bus event) := by
  cases event with
  | publish event => exact h.publish event
  | start =>
    rw [Background.step]
    split
    case isTrue hfree => exact h.start hfree
    case isFalse => exact h
  | stop =>
    rw [Background.step]
    split
    case isTrue hfree => exact h.stop hfree
    case isFalse => exact h
  | take => exact h.take
  | dispatch => exact h.dispatch
  | resumeLoop => exact h.resumeLoop
  | endLoop => exact h.endLoop
  | drain => exact h.drain
  | resumeStop => exact h.resumeStop
  | beginCall k i =>
    rw [Background.step]
    split
    case isTrue hstatus =>
      obtain ⟨call, hcall, hwaiting⟩ := statusAt_eq_some.mp hstatus
      refine h.modifyDispatch (k := k) (f := setStatus i .running)
        (h.ledger.beginCall hcall hwaiting) ?_ rfl rfl
      exact fun _ => rfl
    case isFalse => exact h
  | endCall k i ended =>
    rw [Background.step]
    split
    case isTrue hmay =>
      obtain ⟨status, hstatus, hmay⟩ := Option.any_eq_true _ _ |>.mp hmay
      obtain ⟨call, hcall, rfl⟩ := statusAt_eq_some.mp hstatus
      obtain ⟨hended, hbegun⟩ := not_ended_and_begun_of_mayEnd hmay
      refine h.modifyDispatch (k := k) (f := setStatus i (.done ended))
        (h.ledger.endCall hcall hended hbegun ended) ?_ rfl rfl
      exact fun _ => rfl
    case isFalse => exact h
  | abortCall k i =>
    rw [Background.step]
    split
    case isTrue hstatus =>
      obtain ⟨call, hcall, hinterrupted⟩ := statusAt_eq_some.mp hstatus
      have hended : ¬ call.status.Ended := by simp [hinterrupted, CallStatus.Ended]
      have hbegun : call.status.Begun := by simp [hinterrupted, CallStatus.Begun]
      refine h.modifyDispatch (k := k) (f := setStatus i .aborted)
        (h.ledger.setStatus hcall hended hbegun trivial) ?_ rfl rfl
      exact fun _ => rfl
    case isFalse => exact h

theorem consistent (bus : EventBus η) (steps : List (BackgroundStep π)) :
    Consistent bus (Machine.run (step bus) {} steps) := by
  apply Machine.run_invariant ?_ fun _ event h => h.step event
  refine ⟨⟨rfl, by simp, rfl, rfl, by simp, ?_, List.nodup_nil⟩, ?_, by simp, by simp, by simp, by simp⟩
  · simp [Begins, callAt]
  · simp [Awaits, waitsFor]

/-! ### What was cancelled -/

lemma cancelled_advance {step : BackgroundStep π} (h : (s.advance k i status step).Cancelled) :
    status.Cancelled ∨ step = .stop ∧ s.Free ∧ s.waitsFor = some k := by
  by_cases hsame : s.advance k i status step = status
  · exact Or.inl (hsame ▸ h)
  · cases step with
    | stop => exact Or.inr ⟨rfl, (ite_ne_right_iff.mp hsame).1⟩
    | beginCall =>
      obtain ⟨hchanged, -⟩ := ite_ne_right_iff.mp hsame
      rw [advance, if_pos hchanged] at h
      exact absurd h id
    | endCall =>
      obtain ⟨hchanged, -⟩ := ite_ne_right_iff.mp hsame
      rw [advance, if_pos hchanged] at h
      exact absurd h id
    | abortCall =>
      obtain ⟨⟨-, rfl⟩, -⟩ := ite_ne_right_iff.mp hsame
      exact Or.inl trivial
    | publish | start | take | dispatch | resumeLoop | endLoop | drain | resumeStop =>
      exact absurd rfl hsame

lemma acceptedBefore_stop (s : Background η π) : s.stop.acceptedBefore = s.state.accepted.length := by
  unfold stop
  cases s.loop <;> rfl

lemma Consistent.acceptedBefore_le_step (h : Consistent bus s) (step : BackgroundStep π) :
    s.acceptedBefore ≤ (s.step bus step).acceptedBefore := by
  cases step with
  | publish | dispatch | resumeLoop | drain | resumeStop | take | endLoop =>
    simp only [Background.step, Background.dispatch, Background.resumeLoop, Background.drain,
      Background.resumeStop, Background.take, Background.endLoop, Background.process]
    repeat' split
    all_goals exact le_rfl
  | start | beginCall | endCall | abortCall =>
    simp only [Background.step, Background.start]
    split_ifs <;> exact le_rfl
  | stop =>
    rw [Background.step]
    split_ifs
    · exact h.before.trans_eq (acceptedBefore_stop s).symm
    · exact le_rfl

/-- The calls that are cancelled are of events that were accepted before `stop` was called. -/
def CancelledBefore (s : Background η π) : Prop :=
  ∀ k i status, s.state.statusAt k i = some status → status.Cancelled → k < s.acceptedBefore

lemma CancelledBefore.step (hbefore : s.CancelledBefore) (h : Consistent bus s) (step : BackgroundStep π) :
    (s.step bus step).CancelledBefore := by
  intro k i status hstatus hcancelled
  rcases advances_step bus s step k i with hcall | ⟨-, hwaiting⟩
  · rw [hstatus] at hcall
    obtain ⟨old, hold, rfl⟩ := Option.map_eq_some_iff.mp hcall.symm
    rcases cancelled_advance hcancelled with hcancelled | ⟨rfl, hfree, hwaits⟩
    · exact (hbefore k i old hold hcancelled).trans_le (h.acceptedBefore_le_step step)
    · rw [Background.step, if_pos hfree, acceptedBefore_stop, ← h.ledger.ordered]
      have hk := lt_of_awaits ((h.awaits k).mpr (Or.inl hwaits))
      simp only [List.length_append, List.length_map]
      omega
  · obtain rfl : status = .waiting := Option.some.inj (hstatus.symm.trans hwaiting)
    exact absurd hcancelled id

lemma cancelledBefore (bus : EventBus η) (steps : List (BackgroundStep π)) :
    (Machine.run (step bus) {} steps).CancelledBefore := by
  have hrun : Consistent bus (Machine.run (step bus) {} steps) ∧
      (Machine.run (step bus) {} steps).CancelledBefore := by
    apply Machine.run_invariant (P := fun s => Consistent bus s ∧ s.CancelledBefore) ?_
      fun _ event h => ⟨h.1.step event, h.2.step h.1 event⟩
    refine ⟨consistent bus [], fun k i status hstatus => ?_⟩
    simp [statusAt, callAt] at hstatus
  exact hrun.2

/-! ### When `stop` returns -/

lemma cancelled_of_cut (h : status.Cut) : status.Cancelled := by
  cases status with
  | waiting | running | interrupted | done => exact absurd h id
  | skipped | aborted => trivial

/-- A call that has ended and was not cut off is done. -/
lemma exists_done (hended : status.Ended) (hcut : ¬ status.Cut) : ∃ ended, status = .done ended := by
  cases status with
  | waiting | running | interrupted => exact absurd hended id
  | skipped | aborted => exact absurd trivial hcut
  | done ended => exact ⟨ended, rfl⟩

/-- When `stop` returns no dispatch waits. -/
lemma Consistent.not_awaits (h : Consistent bus s) (hreturned : s.stopping = .returned) (k : ℕ) :
    ¬ s.state.Awaits k := by
  rw [h.awaits, hreturned]
  rcases h.stopped (Or.inr hreturned) with hloop | hloop <;> simp [waitsFor, hloop]

lemma Consistent.completed (h : Consistent bus s) (hreturned : s.stopping = .returned) (hcut : ¬ s.Cut) :
    Completed bus s.acceptedBefore s.state := by
  intro k hk
  have hlength := hk.trans_le (h.dispatched hreturned)
  obtain ⟨d, hd⟩ : ∃ d, s.state.dispatches[k]? = some d := ⟨_, List.getElem?_eq_getElem hlength⟩
  have hvalid := h.ledger.valid d (List.mem_of_getElem? hd)
  have hover : d.state ≠ .awaiting := fun hstate => h.not_awaits hreturned k ⟨d, hd, hstate⟩
  refine ⟨d, hd, ?_, hvalid.handlers, fun i hi => ?_⟩
  · rw [← h.ledger.ordered, List.append_assoc, List.getElem?_append_left (by simpa using hlength),
      List.getElem?_map, hd, Option.map_some]
  · obtain ⟨call, hcall, hmem⟩ := h.ledger.exists_call hd hi
    have hstatus : s.state.statusAt k i = some call.status := by rw [statusAt_eq hd, hcall, Option.map_some]
    have hnotCut : ¬ call.status.Cut := fun hcall => hcut ⟨k, i, _, hstatus, hcall⟩
    obtain ⟨ended, hdone⟩ := exists_done (hvalid.settled hover call hmem) hnotCut
    refine ⟨?_, ended, hdone ▸ hstatus⟩
    rw [h.ledger.begun]
    exact ⟨call, callAt_eq hd i ▸ hcall, hdone ▸ trivial⟩

lemma not_completed_of_cut (hbefore : s.CancelledBefore) (hcut : s.Cut) :
    ¬ Completed bus s.acceptedBefore s.state := by
  obtain ⟨k, i, status, hstatus, hcut⟩ := hcut
  intro hcompleted
  obtain ⟨d, hd, -, hhandlers, hdone⟩ := hcompleted k (hbefore k i status hstatus (cancelled_of_cut hcut))
  have hcall := statusAt_eq hd i ▸ hstatus
  obtain ⟨call, hcall, -⟩ := Option.map_eq_some_iff.mp hcall
  have hi : i < (bus.handlersOf d.event).length := by
    rw [← hhandlers, List.length_map]
    exact (List.getElem?_eq_some_iff.mp hcall).1
  obtain ⟨-, ended, hended⟩ := hdone i hi
  obtain rfl : status = .done ended := Option.some.inj (hstatus.symm.trans hended)
  exact hcut

/-- When `stop` returns, the handlers of everything that was accepted before have been called and are done
by themselves if and only if all calls which the loop waited for had begun and none of their handlers was
ended by the cancellation. -/
theorem stop_drains_iff (bus : EventBus η) (steps : List (BackgroundStep π))
    (hreturned : (Machine.run (step bus) {} steps).stopping = .returned) :
    Completed bus (Machine.run (step bus) {} steps).acceptedBefore (Machine.run (step bus) {} steps).state ↔
      Machine.Along (step bus) {} (fun _ s step => Spares s step) steps := by
  have hconsistent := consistent bus steps
  rw [← not_iff_not, ← cut_run]
  constructor
  · intro hnot
    by_contra hcut
    exact hnot (hconsistent.completed hreturned hcut)
  · exact not_completed_of_cut (cancelledBefore bus steps)

/-- One handler of all events. -/
def oneHandler : EventBus Unit where
  wildcardSubscribers := [()]

/-- The handler of the first event runs when `stop` is called, and goes on; the second event is dispatched
by `stop`, and its handler raises. -/
def goingOn : List (BackgroundStep ℕ) :=
  [.publish ⟨.heartbeat, 1⟩, .start, .publish ⟨.heartbeat, 2⟩, .take, .dispatch, .beginCall 0 0, .stop,
    .endCall 0 0 .returned, .resumeLoop, .drain, .beginCall 1 0, .endCall 1 0 .failed, .resumeStop]

/-- The handler that runs when `stop` is called is ended by that. -/
def cutOff : List (BackgroundStep ℕ) :=
  [.publish ⟨.heartbeat, 1⟩, .start, .take, .dispatch, .beginCall 0 0, .stop, .abortCall 0 0, .resumeLoop, .drain]

theorem stop_drains_going_on :
    Completed oneHandler (Machine.run (step oneHandler) {} goingOn).acceptedBefore
      (Machine.run (step oneHandler) {} goingOn).state := by
  apply (stop_drains_iff oneHandler goingOn (by decide +kernel)).mpr
  simp only [goingOn, Machine.along_cons, Machine.along_nil, Spares, and_true, true_and]
  intro _ k i hwaits
  obtain rfl : 0 = k := Option.some.inj hwaits
  cases i with
  | zero => decide
  | succ i => exact Option.some_ne_none _ |>.symm

theorem not_stop_drains :
    ¬ ∀ (bus : EventBus Unit) (steps : List (BackgroundStep ℕ)),
      (Machine.run (step bus) {} steps).stopping = .returned →
        Completed bus (Machine.run (step bus) {} steps).acceptedBefore
          (Machine.run (step bus) {} steps).state := by
  intro hdrains
  obtain ⟨d, -, -, -, hdone⟩ := hdrains oneHandler cutOff (by decide +kernel) 0 (by decide +kernel)
  obtain ⟨-, ended, hended⟩ := hdone 0 Nat.one_pos
  have haborted : (Machine.run (step oneHandler) {} cutOff).state.statusAt 0 0 = some .aborted := by
    decide +kernel
  simp [haborted] at hended

end Background
end PolyCortex.Events
