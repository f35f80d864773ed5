import PolyCortex.Events.Stopping

/-!
# The calls and the dispatches of a bus

How the operations of a bus change the status of a call, and which dispatches wait for their calls.
-/

namespace PolyCortex.Events

variable {η π : Type} {bus : EventBus η}

namespace BusState

variable {s s' s'' : BusState η π} {k i n : ℕ} {d : Dispatch η π} {f : Dispatch η π → Dispatch η π}
  {event : Event π} {queue held : List (Event π)}

/-! ### The status of a call -/

lemma statusAt_eq (h : s.dispatches[k]? = some d) (i : ℕ) :
    s.statusAt k i = (d.calls[i]?).map fun call => call.status := by
  rw [statusAt, callAt_eq h]

lemma statusAt_modifyDispatch_ne {k' : ℕ} (h : k' ≠ k) (i : ℕ) :
    (s.modifyDispatch k f).statusAt k' i = s.statusAt k' i := by
  rw [statusAt, callAt_modifyDispatch_ne h, statusAt]

/-- A change that keeps the calls keeps their status. -/
lemma statusAt_modifyDispatch_of_calls (h : ∀ d, (f d).calls = d.calls) (k' i : ℕ) :
    (s.modifyDispatch k f).statusAt k' i = s.statusAt k' i := by
  by_cases hk : k' = k
  · subst hk
    simp only [statusAt, callAt, modifyDispatch, List.getElem?_modify_eq]
    cases s.dispatches[k']? <;> simp [h]
  · exact statusAt_modifyDispatch_ne hk i

lemma statusAt_setStatus (k i : ℕ) (status : CallStatus) (k' i' : ℕ) :
    (s.modifyDispatch k (setStatus i status)).statusAt k' i' =
      (s.statusAt k' i').map fun old => if k' = k ∧ i' = i then status else old := by
  by_cases hk : k' = k
  · subst hk
    rcases hd : s.dispatches[k']? with - | d
    · simp [statusAt, callAt, modifyDispatch, hd]
    · rw [statusAt, callAt_modifyDispatch_self hd, getElem?_setStatus, statusAt_eq hd]
      by_cases hi : i' = i
      · subst hi
        simp [Function.comp_def]
      · simp [hi, Ne.symm hi, Function.comp_def]
  · rw [statusAt_modifyDispatch_ne hk]
    simp [hk]

lemma statusAt_interrupt (k k' i : ℕ) :
    (s.interrupt k).statusAt k' i =
      (s.statusAt k' i).map fun status => if k' = k then status.interrupt else status := by
  by_cases hk : k' = k
  · subst hk
    simp only [statusAt, callAt, interrupt, modifyDispatch, List.getElem?_modify_eq]
    cases s.dispatches[k']? <;> simp [Function.comp_def]
  · rw [interrupt, statusAt_modifyDispatch_ne hk]
    simp [hk]

/-- No call changes; those which are new are waiting. -/
def Fresh (s s' : BusState η π) : Prop :=
  ∀ k i, s'.statusAt k i = s.statusAt k i ∨ s.statusAt k i = none ∧ s'.statusAt k i = some .waiting

lemma Fresh.refl (s : BusState η π) : Fresh s s := fun _ _ => Or.inl rfl

lemma Fresh.trans (h : Fresh s s') (h' : Fresh s' s'') : Fresh s s'' := by
  intro k i
  rcases h k i with heq | ⟨hnone, hwaiting⟩ <;> rcases h' k i with heq' | ⟨hnone', hwaiting'⟩
  · exact Or.inl (heq'.trans heq)
  · exact Or.inr ⟨heq ▸ hnone', hwaiting'⟩
  · exact Or.inr ⟨hnone, heq'.trans hwaiting⟩
  · rw [hwaiting] at hnone'
    simp at hnone'

lemma fresh_of_dispatches (h : s'.dispatches = s.dispatches) : Fresh s s' := by
  intro k i
  simp [statusAt, callAt, h]

lemma fresh_modifyDispatch (h : ∀ d, (f d).calls = d.calls) : Fresh s (s.modifyDispatch k f) :=
  fun k' i => Or.inl (statusAt_modifyDispatch_of_calls h k' i)

lemma fresh_finish (k : ℕ) (s : BusState η π) : Fresh s (s.finish k) := by
  have hcalls := fresh_modifyDispatch (s := s) (k := k) (f := fun d => { d with state := .finished })
    fun _ => rfl
  exact hcalls.trans (fresh_of_dispatches rfl)

lemma fresh_dispatch (n : ℕ) : Fresh s (s.dispatch bus event queue n) := by
  intro k i
  rcases lt_trichotomy k s.dispatches.length with hk | hk | hk
  · exact Or.inl (by rw [statusAt, callAt_dispatch_of_lt hk, statusAt])
  · subst hk
    have hnone : s.statusAt s.dispatches.length i = none := by simp [statusAt, callAt]
    rcases hi : (bus.handlersOf event)[i]? with - | handler
    · left
      simp [statusAt, callAt, BusState.dispatch, hi]
    · exact Or.inr ⟨hnone, by simp [statusAt, callAt, BusState.dispatch, hi]⟩
  · left
    have hlength : (s.dispatch bus event queue n).dispatches.length ≤ k := by
      simp [BusState.dispatch]
      omega
    simp [statusAt, callAt, List.getElem?_eq_none hlength, List.getElem?_eq_none hk.le]

lemma fresh_drain (s : BusState η π) (n : ℕ) : Fresh s (s.drain bus s.queue n).2 := by
  apply drain_keeps (P := fun _ => Fresh s) (Q := fun _ => Fresh s) ?_ ?_ ?_ (Fresh.refl s)
  · exact fun h _ => h.trans (fresh_of_dispatches rfl)
  · exact fun h _ _ => h.trans (fresh_dispatch _)
  · exact fun h _ _ => h.trans (fresh_dispatch _)

/-! ### Dispatches that wait -/

lemma awaits_modifyDispatch (h : ∀ d, (f d).state = d.state) (k' : ℕ) :
    (s.modifyDispatch k f).Awaits k' ↔ s.Awaits k' := by
  simp only [Awaits, modifyDispatch, List.getElem?_modify]
  by_cases hk : k = k' <;> cases s.dispatches[k']? <;> simp [hk, h]

lemma awaits_interrupt (k k' : ℕ) : (s.interrupt k).Awaits k' ↔ s.Awaits k' := by
  apply awaits_modifyDispatch
  exact fun _ => rfl

/-- A dispatch that goes on does not wait any more. -/
lemma awaits_modifyDispatch_of_ne (h : ∀ d, (f d).state ≠ .awaiting) (k' : ℕ) :
    (s.modifyDispatch k f).Awaits k' ↔ s.Awaits k' ∧ k' ≠ k := by
  simp only [Awaits, modifyDispatch, List.getElem?_modify]
  by_cases hk : k = k'
  · subst hk
    cases s.dispatches[k]? <;> simp [h]
  · cases s.dispatches[k']? <;> simp [hk, Ne.symm hk]

lemma awaits_finish (k k' : ℕ) : (s.finish k).Awaits k' ↔ s.Awaits k' ∧ k' ≠ k := by
  apply awaits_modifyDispatch_of_ne
  simp

lemma lt_of_awaits (h : s.Awaits k) : k < s.dispatches.length := by
  obtain ⟨d, hd, -⟩ := h
  exact (List.getElem?_eq_some_iff.mp hd).1

lemma awaits_dispatch (n : ℕ) :
    (s.dispatch bus event queue n).Awaits k ↔
      s.Awaits k ∨ bus.handlersOf event ≠ [] ∧ k = s.dispatches.length := by
  rcases lt_trichotomy k s.dispatches.length with hk | hk | hk
  · simp [Awaits, BusState.dispatch, List.getElem?_append_left hk, hk.ne]
  · subst hk
    simp [Awaits, BusState.dispatch]
  · have hlength : (s.dispatch bus event queue n).dispatches.length ≤ k := by
      simp [BusState.dispatch]
      omega
    simp [Awaits, List.getElem?_eq_none hlength, List.getElem?_eq_none hk.le, hk.ne']

/-- What draining leaves: it waits for the dispatch that it returns, or the queue is empty; nothing has
been published. -/
structure Drains (s : BusState η π) (result : Option ℕ) (s' : BusState η π) : Prop where
  awaits : ∀ k, s'.Awaits k ↔ s.Awaits k ∨ result = some k
  empty : result = none → s'.queue = []
  accepted : s'.accepted = s.accepted

lemma drains (bus : EventBus η) (s : BusState η π) (n : ℕ) :
    Drains s (s.drain bus s.queue n).1 (s.drain bus s.queue n).2 := by
  have hstart : (∀ k, s.Awaits k ↔ s.Awaits k) ∧ s.accepted = s.accepted := ⟨fun _ => Iff.rfl, rfl⟩
  apply drain_keeps (P := fun _ s' => (∀ k, s'.Awaits k ↔ s.Awaits k) ∧ s'.accepted = s.accepted)
    (Q := Drains s) ?_ ?_ ?_ hstart
  · rintro n s' ⟨hawaits, haccepted⟩ hqueue
    exact ⟨by simpa [Awaits] using hawaits, fun _ => hqueue, haccepted⟩
  · rintro n s' event queue ⟨hawaits, haccepted⟩ - hhandlers
    refine ⟨fun k => ?_, haccepted⟩
    rw [awaits_dispatch, hawaits]
    simp [hhandlers]
  · rintro n s' event queue ⟨hawaits, haccepted⟩ - hhandlers
    refine ⟨fun k => ?_, by simp, haccepted⟩
    rw [awaits_dispatch, hawaits]
    simp [hhandlers, eq_comm]

lemma overAt_eq_some : s.overAt k = some d ↔ s.dispatches[k]? = some d ∧ Over d := by
  simp [overAt, Option.filter_eq_some_iff]

lemma accepted_publish (event : Event π) (s : BusState η π) :
    s.accepted.length ≤ (s.publish bus event).accepted.length := by
  unfold BusState.publish
  split <;> simp [accepted]

end BusState
end PolyCortex.Events
