import PolyCortex.Events.Statuses

/-!
# Calls that are cut off

What a step of the bus with its background task does to a call, and which steps cut one off: `stop`, when
a call that the loop waits for has not begun, and the cancellation, when a handler lets it out.
-/

namespace PolyCortex.Events

variable {η π : Type} {bus : EventBus η}

namespace Background

open BusState

variable {s : Background η π} {k i : ℕ} {status : CallStatus}

/-! ### The calls in a step -/

/-- The status of a call after a step. -/
def advance (s : Background η π) (k i : ℕ) (status : CallStatus) : BackgroundStep π → CallStatus
  | .stop => if s.Free ∧ s.waitsFor = some k then status.interrupt else status
  | .beginCall k' i' => if (k = k' ∧ i = i') ∧ status = .waiting then .running else status
  | .endCall k' i' ended => if (k = k' ∧ i = i') ∧ status.mayEnd ended then .done ended else status
  | .abortCall k' i' => if (k = k' ∧ i = i') ∧ status = .interrupted then .aborted else status
  | _ => status

/-- A call that there is advances, and a new one is waiting. -/
def Advances (s : Background η π) (step : BackgroundStep π) (state : BusState η π) : Prop :=
  ∀ k i, state.statusAt k i = (s.state.statusAt k i).map (s.advance k i · step) ∨
    s.state.statusAt k i = none ∧ state.statusAt k i = some .waiting

lemma advances_of_fresh {step : BackgroundStep π} {state : BusState η π} (h : Fresh s.state state)
    (hsame : ∀ k i status, s.advance k i status step = status) : Advances s step state := by
  intro k i
  simpa [hsame] using h k i

lemma advances_of_statusAt {step : BackgroundStep π} {state : BusState η π}
    (h : ∀ k i, state.statusAt k i = (s.state.statusAt k i).map (s.advance k i · step)) :
    Advances s step state := fun k i => Or.inl (h k i)

/-- A call whose status a step sets. -/
lemma advances_setStatus {step : BackgroundStep π} {target : CallStatus} {P : CallStatus → Prop}
    [DecidablePred P]
    (hadvance : ∀ k' i' status, s.advance k' i' status step =
      if (k' = k ∧ i' = i) ∧ P status then target else status)
    (hstatus : s.state.statusAt k i = some status) (hP : P status) :
    Advances s step (s.state.modifyDispatch k (setStatus i target)) := by
  apply advances_of_statusAt
  intro k' i'
  rw [statusAt_setStatus]
  by_cases hcall : k' = k ∧ i' = i
  · obtain ⟨rfl, rfl⟩ := hcall
    simp [hstatus, hadvance, hP]
  · simp [hadvance, hcall]

/-- A call whose status a step does not set. -/
lemma advances_unchanged {step : BackgroundStep π} {target : CallStatus} {P : CallStatus → Prop}
    [DecidablePred P]
    (hadvance : ∀ k' i' status, s.advance k' i' status step =
      if (k' = k ∧ i' = i) ∧ P status then target else status)
    (hP : ∀ status, s.state.statusAt k i = some status → ¬ P status) : Advances s step s.state := by
  apply advances_of_statusAt
  intro k' i'
  rcases hstatus : s.state.statusAt k' i' with - | status
  · rfl
  · have hnot : ¬ ((k' = k ∧ i' = i) ∧ P status) := by
      rintro ⟨⟨rfl, rfl⟩, hstatus'⟩
      exact hP status hstatus hstatus'
    simp [hadvance, hnot]

lemma fresh_start (s : Background η π) : Fresh s.state s.start.state := by
  apply fresh_of_dispatches
  unfold start
  split_ifs <;> rfl

lemma fresh_take (s : Background η π) : Fresh s.state s.take.state := by
  apply fresh_of_dispatches
  unfold take
  split <;> rfl

lemma fresh_dispatchLoop (s : Background η π) : Fresh s.state (s.dispatch bus).state := by
  unfold dispatch
  split
  · exact fresh_dispatch 0
  · exact Fresh.refl _

lemma fresh_resumeLoop (s : Background η π) : Fresh s.state s.resumeLoop.state := by
  unfold resumeLoop
  split
  · split
    · split_ifs
      · exact fresh_modifyDispatch fun _ => rfl
      · exact fresh_finish _ _
    · exact Fresh.refl _
  · exact Fresh.refl _

lemma fresh_endLoop (s : Background η π) : Fresh s.state s.endLoop.state := by
  apply fresh_of_dispatches
  unfold endLoop
  split <;> rfl

lemma fresh_process (processed : ℕ) (state : BusState η π) :
    Fresh state (s.process bus processed state).state := fresh_drain state processed

lemma fresh_drainStop (s : Background η π) : Fresh s.state (s.drain bus).state := by
  unfold drain
  split
  · exact fresh_process 0 _
  · exact fresh_process 0 _
  · exact Fresh.refl _

lemma fresh_resumeStop (s : Background η π) : Fresh s.state (s.resumeStop bus).state := by
  unfold resumeStop
  split
  · split
    · exact (fresh_finish _ _).trans (fresh_process _ _)
    · exact Fresh.refl _
  · exact Fresh.refl _

/-- `stop` cancels the calls that the loop waits for. -/
lemma statusAt_stop (s : Background η π) (k i : ℕ) :
    s.stop.state.statusAt k i = (s.state.statusAt k i).map
      fun status => if s.waitsFor = some k then status.interrupt else status := by
  unfold stop
  cases hloop : s.loop with
  | dispatching k' cancelled => simp [statusAt_interrupt, waitsFor, hloop, eq_comm]
  | absent | waiting | holding | ended => simp [waitsFor, hloop]

theorem advances_step (bus : EventBus η) (s : Background η π) (step : BackgroundStep π) :
    Advances s step (s.step bus step).state := by
  cases step with
  | publish event => exact advances_of_fresh (fresh_of_dispatches (by simp [step])) fun _ _ _ => rfl
  | start =>
    refine advances_of_fresh ?_ fun _ _ _ => rfl
    rw [step]
    split
    · exact fresh_start s
    · exact Fresh.refl _
  | stop =>
    apply advances_of_statusAt
    intro k i
    rw [step]
    by_cases hfree : s.Free
    · rw [if_pos hfree, statusAt_stop]
      simp [advance, hfree]
    · simp [hfree, advance]
  | take => exact advances_of_fresh (fresh_take s) fun _ _ _ => rfl
  | dispatch => exact advances_of_fresh (fresh_dispatchLoop s) fun _ _ _ => rfl
  | resumeLoop => exact advances_of_fresh (fresh_resumeLoop s) fun _ _ _ => rfl
  | endLoop => exact advances_of_fresh (fresh_endLoop s) fun _ _ _ => rfl
  | drain => exact advances_of_fresh (fresh_drainStop s) fun _ _ _ => rfl
  | resumeStop => exact advances_of_fresh (fresh_resumeStop s) fun _ _ _ => rfl
  | beginCall k i =>
    rw [step]
    split
    case isTrue hstatus => exact advances_setStatus (fun _ _ _ => rfl) hstatus rfl
    case isFalse hstatus =>
      refine advances_unchanged (P := fun status => status = .waiting) (fun _ _ _ => rfl) ?_
      exact fun status hsome hwaiting => hstatus (hwaiting ▸ hsome)
  | endCall k i ended =>
    rw [step]
    split
    case isTrue hstatus =>
      obtain ⟨status, hsome, hmay⟩ := Option.any_eq_true _ _ |>.mp hstatus
      exact advances_setStatus (fun _ _ _ => rfl) hsome hmay
    case isFalse hstatus =>
      refine advances_unchanged (P := fun status => status.mayEnd ended = true) (fun _ _ _ => rfl) ?_
      exact fun status hsome hmay => hstatus (by simp [hsome, hmay])
  | abortCall k i =>
    rw [step]
    split
    case isTrue hstatus => exact advances_setStatus (fun _ _ _ => rfl) hstatus rfl
    case isFalse hstatus =>
      refine advances_unchanged (P := fun status => status = .interrupted) (fun _ _ _ => rfl) ?_
      exact fun status hsome hinterrupted => hstatus (hinterrupted ▸ hsome)

/-! ### Calls that were cut off -/

/-- Some call was skipped, or ended by a cancellation. -/
def Cut (s : Background η π) : Prop := ∃ k i status, s.state.statusAt k i = some status ∧ status.Cut

lemma cut_interrupt : status.interrupt.Cut ↔ status.Cut ∨ status = .waiting := by
  cases status <;> simp [CallStatus.interrupt, CallStatus.Cut]

/-- A call that was cut off stays so. -/
lemma advance_of_cut (hcut : status.Cut) (k i : ℕ) (step : BackgroundStep π) :
    s.advance k i status step = status := by
  cases status with
  | waiting | running | interrupted | done => exact absurd hcut id
  | skipped | aborted => cases step <;> simp [advance, CallStatus.interrupt, CallStatus.mayEnd]

/-- What cuts off a call is that the loop is cancelled before it begins, or that its handler lets the
cancellation out. -/
lemma cut_advance {step : BackgroundStep π} (hstatus : s.state.statusAt k i = some status)
    (hcut : (s.advance k i status step).Cut) : status.Cut ∨ ¬ Spares s step := by
  by_cases hsame : s.advance k i status step = status
  · exact Or.inl (hsame ▸ hcut)
  · cases step with
    | stop =>
      obtain ⟨hchanged, -⟩ := ite_ne_right_iff.mp hsame
      rw [advance, if_pos hchanged, cut_interrupt] at hcut
      refine hcut.imp_right fun hwaiting hspares => ?_
      exact hspares hchanged.1 k i hchanged.2 (hwaiting ▸ hstatus)
    | beginCall =>
      obtain ⟨hchanged, -⟩ := ite_ne_right_iff.mp hsame
      rw [advance, if_pos hchanged] at hcut
      exact absurd hcut id
    | endCall =>
      obtain ⟨hchanged, -⟩ := ite_ne_right_iff.mp hsame
      rw [advance, if_pos hchanged] at hcut
      exact absurd hcut id
    | abortCall =>
      obtain ⟨⟨⟨rfl, rfl⟩, rfl⟩, -⟩ := ite_ne_right_iff.mp hsame
      exact Or.inr fun hspares => hspares hstatus
    | publish | start | take | dispatch | resumeLoop | endLoop | drain | resumeStop =>
      exact absurd rfl hsame

theorem cut_step (s : Background η π) (step : BackgroundStep π) :
    (s.step bus step).Cut ↔ s.Cut ∨ ¬ Spares s step := by
  have hadvances := advances_step bus s step
  constructor
  · rintro ⟨k, i, status, hstatus, hcut⟩
    rcases hadvances k i with hcall | ⟨-, hwaiting⟩
    · rw [hstatus] at hcall
      obtain ⟨old, hold, rfl⟩ := Option.map_eq_some_iff.mp hcall.symm
      exact (cut_advance hold hcut).imp_left fun hcut => ⟨k, i, old, hold, hcut⟩
    · obtain rfl : status = .waiting := Option.some.inj (hstatus.symm.trans hwaiting)
      exact absurd hcut id
  · -- a call that there was has advanced to a status that is cut off
    have hcut : ∀ {k i status}, s.state.statusAt k i = some status →
        (s.advance k i status step).Cut → (s.step bus step).Cut := by
      intro k i status hstatus hcut
      rcases hadvances k i with hcall | ⟨hnone, -⟩
      · exact ⟨k, i, _, by rw [hcall, hstatus, Option.map_some], hcut⟩
      · simp [hstatus] at hnone
    rintro (⟨k, i, status, hstatus, hold⟩ | hspares)
    · exact hcut hstatus (by rwa [advance_of_cut hold])
    · cases step with
      | stop =>
        simp only [Spares, not_forall, not_not] at hspares
        obtain ⟨hfree, k, i, hloop, hwaiting⟩ := hspares
        refine hcut hwaiting ?_
        rw [advance, if_pos ⟨hfree, hloop⟩]
        trivial
      | abortCall k i =>
        refine hcut (not_not.mp hspares) ?_
        rw [advance, if_pos ⟨⟨rfl, rfl⟩, rfl⟩]
        trivial
      | publish | start | take | dispatch | resumeLoop | endLoop | drain | resumeStop | beginCall
      | endCall =>
        exact absurd trivial hspares

/-- A call is cut off in a run if and only if a step does not spare the calls. -/
theorem cut_run (bus : EventBus η) (steps : List (BackgroundStep π)) :
    (Machine.run (step bus) {} steps).Cut ↔
      ¬ Machine.Along (step bus) {} (fun _ s step => Spares s step) steps := by
  induction steps using List.reverseRecOn with
  | nil =>
    refine iff_of_false ?_ (not_not.mpr Machine.along_nil)
    rintro ⟨k, i, status, hstatus, -⟩
    simp [statusAt, callAt] at hstatus
  | append_singleton steps step ih =>
    rw [Machine.run_concat, cut_step, Machine.along_concat, ih, not_and_or]

end Background
end PolyCortex.Events
