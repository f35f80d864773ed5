import Mathlib.Data.List.DropRight
import Mathlib.Data.List.Induction
import Mathlib.Tactic
import PolyCortex.Data.Dict

/-!
# Runs of a machine

A machine takes a step at every event. What a step keeps of the events so far and of the state is kept
by a run (`run_history`). A run may be along a condition that its events meet, each in the state before it
(`Along`). A dictionary of machines has one for each key, which has seen the inputs of the key since it was
last removed (`find_run`). A window keeps the last inputs of a list (`foldl_push`).
-/

namespace Machine

/-! ### Events -/

section Occurs

variable {ε ε' : Type}

/-- Some event meets `C`, which may look at the events before it, and all events after it meet `D`. -/
def Since (C : List ε → ε → Prop) (D : ε → Prop) (events : List ε) : Prop :=
  ∃ before event after, events = before ++ event :: after ∧ C before event ∧ ∀ later ∈ after, D later

/-- Some event meets `C`. -/
def Occurs (C : List ε → ε → Prop) : List ε → Prop := Since C fun _ => True

variable {C : List ε → ε → Prop} {D : ε → Prop} {events : List ε} {event : ε}

@[simp] lemma not_since_nil : ¬ Since C D [] := by
  rintro ⟨before, event, after, h, -⟩
  simp at h

@[simp] lemma since_concat :
    Since C D (events ++ [event]) ↔ Since C D events ∧ D event ∨ C events event := by
  constructor
  · rintro ⟨before, event', after, hsplit, hC, hD⟩
    rcases List.eq_nil_or_concat after with rfl | ⟨after, last, rfl⟩
    · obtain ⟨rfl, hevent⟩ := List.append_inj' hsplit rfl
      obtain rfl := List.singleton_inj.mp hevent
      exact Or.inr hC
    · rw [List.concat_eq_append, ← List.cons_append, ← List.append_assoc] at hsplit
      obtain ⟨hevents, hlast⟩ := List.append_inj' hsplit rfl
      obtain rfl := List.singleton_inj.mp hlast
      exact Or.inl ⟨⟨before, event', after, hevents, hC, fun later h => hD later (by simp [h])⟩,
        hD event (by simp)⟩
  · rintro (⟨⟨before, event', after, hsplit, hC, hD⟩, hlast⟩ | hC)
    · refine ⟨before, event', after ++ [event], by simp [hsplit], hC, fun later hlater => ?_⟩
      rcases List.mem_append.mp hlater with hafter | hevent
      · exact hD later hafter
      · exact List.mem_singleton.mp hevent ▸ hlast
    · exact ⟨events, event, [], rfl, hC, by simp⟩

@[simp] lemma not_occurs_nil : ¬ Occurs C [] := not_since_nil

@[simp] lemma occurs_concat :
    Occurs C (events ++ [event]) ↔ Occurs C events ∨ C events event := by
  rw [Occurs, since_concat, and_true]

lemma forall_split_iff_not_occurs {P : List ε → ε → Prop} :
    (∀ before event after, events = before ++ event :: after → P before event) ↔
      ¬ Occurs (fun before event => ¬ P before event) events := by
  simp [Occurs, Since]

/-- What holds of all events, each with the ones before it, with one more event. -/
lemma forall_split_concat {P : List ε → ε → Prop} :
    (∀ before event' after, events ++ [event] = before ++ event' :: after → P before event') ↔
      (∀ before event' after, events = before ++ event' :: after → P before event') ∧ P events event := by
  rw [forall_split_iff_not_occurs, forall_split_iff_not_occurs, occurs_concat, not_or, not_not]

lemma occurs_map {C : List ε' → ε' → Prop} (f : ε → ε') (events : List ε) :
    Occurs C (events.map f) ↔ Occurs (fun before event => C (before.map f) (f event)) events := by
  induction events using List.reverseRecOn with
  | nil => simp
  | append_singleton events event ih => simp [ih]

end Occurs

/-! ### States -/

section States

variable {σ ε : Type} (step : σ → ε → σ) (s : σ)

/-- The state after the events. -/
def run (events : List ε) : σ := events.foldl step s

@[simp] lemma run_nil : run step s [] = s := rfl

@[simp] lemma run_cons (event : ε) (events : List ε) :
    run step s (event :: events) = run step (step s event) events := rfl

lemma run_append (events later : List ε) :
    run step s (events ++ later) = run step (run step s events) later := List.foldl_append

@[simp] lemma run_concat (events : List ε) (event : ε) :
    run step s (events ++ [event]) = step (run step s events) event := by
  simp [run]

/-- Every event meets `C`, which may look at the events before it and at the state they have left. -/
def Along (C : List ε → σ → ε → Prop) (events : List ε) : Prop :=
  ∀ before event after, events = before ++ event :: after → C before (run step s before) event

variable {step s} {C : List ε → σ → ε → Prop} {inv : List ε → σ → Prop} {events : List ε}

lemma along_nil : Along step s C [] := by
  intro before event after h
  simp at h

lemma along_iff_not_occurs :
    Along step s C events ↔
      ¬ Occurs (fun before event => ¬ C before (run step s before) event) events := by
  simp [Along, Occurs, Since]

lemma along_concat {event : ε} :
    Along step s C (events ++ [event]) ↔ Along step s C events ∧ C events (run step s events) event := by
  rw [along_iff_not_occurs, along_iff_not_occurs, occurs_concat, not_or, not_not]

lemma along_cons {event : ε} :
    Along step s C (event :: events) ↔
      C [] s event ∧ Along step (step s event) (fun before => C (event :: before)) events := by
  constructor
  · intro h
    exact ⟨h [] event events rfl, fun before event' after hsplit =>
      h (event :: before) event' after (by rw [hsplit, List.cons_append])⟩
  · rintro ⟨hfirst, h⟩ before event' after hsplit
    cases before with
    | nil =>
      obtain ⟨rfl, rfl⟩ := List.cons.inj hsplit
      exact hfirst
    | cons first before =>
      obtain ⟨rfl, hrest⟩ := List.cons.inj hsplit
      exact h before event' after hrest

/-- What holds at the start and is kept by every event holds after a run. -/
theorem run_history (start : inv [] s)
    (keeps : ∀ before s' event, inv before s' → inv (before ++ [event]) (step s' event))
    (events : List ε) : inv events (run step s events) := by
  induction events using List.reverseRecOn with
  | nil => exact start
  | append_singleton before event ih =>
    rw [run_concat]
    exact keeps before _ event ih

/-- What every step keeps holds after a run from where it holds. -/
theorem run_invariant {P : σ → Prop} (start : P s) (keeps : ∀ s' event, P s' → P (step s' event))
    (events : List ε) : P (run step s events) := by
  have hkeeps : ∀ (before : List ε) s' event, P s' → P (step s' event) := fun _ => keeps
  exact run_history start hkeeps events

/-- A run that starts in `P` and ends outside of it has an event that leaves it. -/
theorem exists_leaves {P : σ → Prop} (start : P s) (h : ¬ P (run step s events)) :
    ∃ before event after, events = before ++ event :: after ∧ P (run step s before) ∧
      ¬ P (step (run step s before) event) := by
  induction events using List.reverseRecOn with
  | nil => exact absurd start h
  | append_singleton events event ih =>
    rw [run_concat] at h
    by_cases hbefore : P (run step s events)
    · exact ⟨events, event, [], rfl, hbefore, h⟩
    · obtain ⟨before, event', after, rfl, hleaves⟩ := ih hbefore
      exact ⟨before, event', after ++ [event], by simp, hleaves⟩

/-- A part of the state that is set to what events of a kind carry, and by no others, is the last of these;
when they are in order no other one is greater. -/
theorem le_last {α : Type} [Preorder α] {mark : α → ε} {last : σ → α} (hmark : Function.Injective mark)
    (sets : ∀ s' a, last (step s' (mark a)) = a)
    (keeps : ∀ s' event, (∀ a, event ≠ mark a) → last (step s' event) = last s')
    (hsorted : events.Pairwise fun event later => ∀ a a', event = mark a → later = mark a' → a ≤ a') {a : α}
    (hmem : mark a ∈ events) : a ≤ last (run step s events) := by
  induction events using List.reverseRecOn with
  | nil => simp at hmem
  | append_singleton events event ih =>
    obtain ⟨hbefore, -, hlater⟩ := List.pairwise_append.mp hsorted
    rw [run_concat]
    by_cases hevent : ∃ a', event = mark a'
    · obtain ⟨a', rfl⟩ := hevent
      rw [sets]
      rcases List.mem_append.mp hmem with hmem | hlast
      · exact hlater _ hmem _ (List.mem_singleton_self _) a a' rfl rfl
      · exact (hmark (List.mem_singleton.mp hlast)).le
    · push Not at hevent
      rw [keeps _ event hevent]
      rcases List.mem_append.mp hmem with hmem | hlast
      · exact ih hbefore hmem
      · exact absurd (List.mem_singleton.mp hlast).symm (hevent a)

variable {σ' ε' : Type} {step' : σ' → ε' → σ'} {s' : σ'}

/-- Related states stay related when related steps are taken. -/
theorem run_related {related : σ → σ' → Prop} (f : ε → ε') (start : related s s')
    (keeps : ∀ s s' event, related s s' → related (step s event) (step' s' (f event)))
    (events : List ε) : related (run step s events) (run step' s' (events.map f)) := by
  induction events generalizing s s' with
  | nil => exact start
  | cons event events ih => exact ih (keeps s s' event start)

end States

/-! ### Windows -/

section Window

variable {α β : Type} {n : ℕ}

/-- `append` on a `deque` with a `maxlen`. -/
def push (n : ℕ) (window : List α) (a : α) : List α := (window ++ [a]).rtake n

/-- Forgetting before the next value is put in makes no difference. -/
lemma push_rtake (xs : List α) (a : α) : push n (xs.rtake n) a = (xs ++ [a]).rtake n := by
  cases n with
  | zero => simp [push]
  | succ n =>
    have hshorter : (xs.rtake (n + 1)).rtake n = xs.rtake n := by
      rw [List.rtake, List.rtake, List.rtake, List.drop_drop, List.length_drop]
      congr 1
      omega
    rw [push, List.rtake_concat_succ, hshorter, List.rtake_concat_succ]

/-- A window holds the last of the values that were put in. -/
lemma foldl_push (xs : List α) : xs.foldl (push n) [] = xs.rtake n := by
  induction xs using List.reverseRecOn with
  | nil => simp
  | append_singleton xs a ih => rw [List.foldl_append, List.foldl_cons, List.foldl_nil, ih, push_rtake]

@[simp] lemma length_rtake (xs : List α) : (xs.rtake n).length = min n xs.length := by
  rw [List.rtake, List.length_drop]
  omega

lemma map_rtake (f : α → β) (xs : List α) : (xs.rtake n).map f = (xs.map f).rtake n := by
  rw [List.rtake, List.rtake, List.map_drop, List.length_map]

/-- What comes before the window is of no account. -/
lemma rtake_append_of_le (xs : List α) {ys : List α} (h : n ≤ ys.length) :
    (xs ++ ys).rtake n = ys.rtake n := by
  rw [List.rtake, List.rtake, List.length_append, Nat.add_sub_assoc h, List.drop_append,
    Nat.add_sub_cancel_left, List.drop_eq_nil_of_le (Nat.le_add_right _ _), List.nil_append]

end Window

/-! ### Machines by key -/

section Keyed

variable {κ σ ι : Type} [DecidableEq κ]

/-- What happens to a dictionary of machines. -/
inductive KeyedEvent (κ ι : Type) where
  | input (key : κ) (i : ι)
  | drop (key : κ)
  | clear

variable (first : σ) (step : σ → ι → σ)

/-- The machine of a key, a new one when there is none. -/
def find (d : Dict κ σ) (key : κ) : σ := (d.get? key).getD first

def keyedStep (d : Dict κ σ) : KeyedEvent κ ι → Dict κ σ
  | .input key i => d.set key (step (find first d key) i)
  | .drop key => d.filter fun k _ => k ≠ key
  | .clear => .empty

/-- The inputs of a key since it was last removed. -/
def sinceDropped (key : κ) (inputs : List ι) : KeyedEvent κ ι → List ι
  | .input k i => if k = key then inputs ++ [i] else inputs
  | .drop k => if k = key then [] else inputs
  | .clear => []

def inputsOf (key : κ) (events : List (KeyedEvent κ ι)) : List ι := events.foldl (sinceDropped key) []

def keyedRun (events : List (KeyedEvent κ ι)) : Dict κ σ := events.foldl (keyedStep first step) .empty

variable {first step} {key : κ} {d : Dict κ σ} {inputs : List ι}

lemma find_keyedStep (h : find first d key = inputs.foldl step first) (event : KeyedEvent κ ι) :
    find first (keyedStep first step d event) key =
      (sinceDropped key inputs event).foldl step first := by
  cases event with
  | input k i =>
    by_cases hkey : k = key
    · subst hkey
      simp [find, keyedStep, sinceDropped, ← h]
    · rw [find, keyedStep, Dict.get?_set_of_ne _ (Ne.symm hkey), sinceDropped, if_neg hkey]
      exact h
  | drop k =>
    by_cases hkey : k = key
    · subst hkey
      simp [find, keyedStep, sinceDropped]
    · have hne : key ≠ k := Ne.symm hkey
      rw [sinceDropped, if_neg hkey, ← h, find, keyedStep, Dict.get?_filter]
      cases hget : d.get? key <;> simp [find, hget, hne, Option.filter]
  | clear => simp [find, keyedStep, sinceDropped]

lemma foldl_sinceDropped (seen : List ι) :
    (inputs.map (.input key)).foldl (sinceDropped key) seen = seen ++ inputs := by
  induction inputs generalizing seen with
  | nil => simp
  | cons i inputs ih =>
    rw [List.map_cons, List.foldl_cons, ih, sinceDropped, if_pos rfl, List.append_assoc,
      List.singleton_append]

/-- No other key has a part in the machine of a key. -/
theorem find_run (events : List (KeyedEvent κ ι)) (key : κ) :
    find first (keyedRun first step events) key = (inputsOf key events).foldl step first := by
  induction events using List.reverseRecOn with
  | nil => rfl
  | append_singleton events event ih =>
    rw [keyedRun, List.foldl_append, inputsOf, List.foldl_append]
    exact find_keyedStep ih event

end Keyed
end Machine
