import Mathlib.Logic.Relation
import PolyCortex.Coroutine.Contract

/-!
# Pools of coroutines

Several coroutines over one state, interleaved at their awaits. A task of the pool waits for the
answer to a question; an answer resumes it, and it runs without interruption to its next question
or to its end. The schedule decides when tasks are started and answered, and how.

A `Protocol` gives every task a guarantee; a task relies on what the others guarantee. `Pool.Sound`
is the invariant of the runs in which every task fulfils its contract (`Pool.run_sound`).
-/

namespace Coroutine

open Relation

variable {κ σ ι : Type} {ρ : ι → Type} {α : Type}

/-! ### Runs of a pool -/

/-- A coroutine at rest: it has ended, or it waits. -/
inductive Paused (σ ι : Type) (ρ : ι → Type) (α : Type) : Type where
  | done (a : α)
  | waiting (q : ι) (k : ρ q → Coroutine σ ι ρ α)

/-- Run to the next await or to the end. -/
def advance : Coroutine σ ι ρ α → σ → Paused σ ι ρ α × σ
  | .pure a, s => (.done a, s)
  | .step u k, s => (k s).advance (u s)
  | .await q k, s => (.waiting q k, s)

/-- What a task was started for, and the world it was started in. -/
structure Job (κ σ ι : Type) (ρ : ι → Type) where
  tag : κ
  start : World σ ι ρ

/-- A started task that waits for an answer. -/
structure Task (κ σ ι : Type) (ρ : ι → Type) (α : Type) where
  job : Job κ σ ι ρ
  question : ι
  resume : ρ question → Coroutine σ ι ρ α

structure Pool (κ σ ι : Type) (ρ : ι → Type) (α : Type) where
  world : World σ ι ρ
  tasks : List (Task κ σ ι ρ α)
  finished : List (Job κ σ ι ρ × α)

/-- The next thing that happens: a task is started, or the `n`-th task is answered. -/
inductive Event (κ ι : Type) (ρ : ι → Type) where
  | start (tag : κ)
  | answer (n : ℕ) (reply : (q : ι) → ρ q)

namespace Pool

/-- Run a task from the world `w` to its next question, or to its end. -/
def settle (w : World σ ι ρ) (before after : List (Task κ σ ι ρ α))
    (finished : List (Job κ σ ι ρ × α)) (job : Job κ σ ι ρ) (body : Coroutine σ ι ρ α) :
    Pool κ σ ι ρ α :=
  match body.advance w.state with
  | (.done a, s) => ⟨⟨s, w.trace⟩, before ++ after, finished ++ [(job, a)]⟩
  | (.waiting q k, s) => ⟨⟨s, w.trace⟩, before ++ ⟨job, q, k⟩ :: after, finished⟩

/-- A task that runs on comes to its end, or to its next question. -/
lemma settle_cases (w : World σ ι ρ) (before after : List (Task κ σ ι ρ α))
    (finished : List (Job κ σ ι ρ × α)) (job : Job κ σ ι ρ) (body : Coroutine σ ι ρ α) :
    let w' : World σ ι ρ := ⟨(body.advance w.state).2, w.trace⟩
    (∃ a, (body.advance w.state).1 = .done a ∧
      settle w before after finished job body = ⟨w', before ++ after, finished ++ [(job, a)]⟩) ∨
    ∃ q k, (body.advance w.state).1 = .waiting q k ∧
      settle w before after finished job body = ⟨w', before ++ ⟨job, q, k⟩ :: after, finished⟩ := by
  rw [settle]
  rcases body.advance w.state with ⟨a | ⟨q, k⟩, s⟩
  · exact Or.inl ⟨a, rfl, rfl⟩
  · exact Or.inr ⟨q, k, rfl, rfl⟩

/-- What happens at an event. A task that is not admitted next to the others is not started. -/
def step (program : κ → Coroutine σ ι ρ α) (admits : List κ → κ → Bool) (p : Pool κ σ ι ρ α) :
    Event κ ι ρ → Pool κ σ ι ρ α
  | .start tag =>
    if admits (p.tasks.map (·.job.tag)) tag then
      settle p.world p.tasks [] p.finished ⟨tag, p.world⟩ (program tag)
    else p
  | .answer n reply =>
    match p.tasks[n]? with
    | none => p
    | some t =>
      settle (p.world.answer t.question (reply t.question)) (p.tasks.take n) (p.tasks.drop (n + 1))
        p.finished t.job (t.resume (reply t.question))

def run (program : κ → Coroutine σ ι ρ α) (admits : List κ → κ → Bool) (p : Pool κ σ ι ρ α)
    (schedule : List (Event κ ι ρ)) : Pool κ σ ι ρ α :=
  schedule.foldl (step program admits) p

/-- The answered task among the others. -/
lemma tasks_split {p : Pool κ σ ι ρ α} {n : ℕ} {t : Task κ σ ι ρ α} (ht : p.tasks[n]? = some t) :
    p.tasks = p.tasks.take n ++ t :: p.tasks.drop (n + 1) := by
  obtain ⟨hn, hget⟩ := List.getElem?_eq_some_iff.mp ht
  rw [← hget, List.getElem_cons_drop, List.take_append_drop]

lemma mem_tasks_of_others {p : Pool κ σ ι ρ α} {n : ℕ} {t : Task κ σ ι ρ α}
    (ht : t ∈ p.tasks.take n ++ p.tasks.drop (n + 1)) : t ∈ p.tasks :=
  (List.mem_append.mp ht).elim List.mem_of_mem_take List.mem_of_mem_drop

/-- What has finished stays finished. -/
lemma finished_step {program : κ → Coroutine σ ι ρ α} {admits : List κ → κ → Bool}
    (p : Pool κ σ ι ρ α) (event : Event κ ι ρ) {x : Job κ σ ι ρ × α} (hx : x ∈ p.finished) :
    x ∈ (p.step program admits event).finished := by
  have hsettle : ∀ w before after job (body : Coroutine σ ι ρ α),
      x ∈ (settle w before after p.finished job body).finished := by
    intro w before after job body
    rcases settle_cases w before after p.finished job body with ⟨a, -, hrests⟩ | ⟨q, k, -, hrests⟩
    · rw [hrests]
      exact List.mem_append_left _ hx
    · rw [hrests]
      exact hx
  cases event with
  | start tag =>
    rw [step]
    split_ifs
    · apply hsettle
    · exact hx
  | answer n reply =>
    rw [step]
    cases p.tasks[n]? with
    | none => exact hx
    | some t => apply hsettle

section Schedules

variable {program : κ → Coroutine σ ι ρ α} {admits : List κ → κ → Bool}

lemma run_append (p : Pool κ σ ι ρ α) (schedule later : List (Event κ ι ρ)) :
    p.run program admits (schedule ++ later) =
      (p.run program admits schedule).run program admits later := by
  simp only [run, List.foldl_append]

variable (program admits) in
/-- Every event of the schedule meets `C`, which may look at the pool the events before it have
left. -/
def Along (C : Pool κ σ ι ρ α → Event κ ι ρ → Prop) :
    Pool κ σ ι ρ α → List (Event κ ι ρ) → Prop
  | _, [] => True
  | p, event :: schedule => C p event ∧ Along C (p.step program admits event) schedule

instance decidableAlong (C : Pool κ σ ι ρ α → Event κ ι ρ → Prop)
    [∀ p event, Decidable (C p event)] :
    (p : Pool κ σ ι ρ α) → (schedule : List (Event κ ι ρ)) →
      Decidable (p.Along program admits C schedule)
  | _, [] => isTrue trivial
  | p, event :: schedule =>
    @instDecidableAnd _ _ _ (decidableAlong C (p.step program admits event) schedule)

lemma along_append (C : Pool κ σ ι ρ α → Event κ ι ρ → Prop) (p : Pool κ σ ι ρ α)
    (schedule later : List (Event κ ι ρ)) :
    p.Along program admits C (schedule ++ later) ↔ p.Along program admits C schedule ∧
      (p.run program admits schedule).Along program admits C later := by
  induction schedule generalizing p with
  | nil => simp [Along, run]
  | cons event schedule ih => simp [Along, ih, run, and_assoc]

lemma Along.and_mem {C : Pool κ σ ι ρ α → Event κ ι ρ → Prop} {D : Event κ ι ρ → Prop}
    {p : Pool κ σ ι ρ α} {schedule : List (Event κ ι ρ)} (h : p.Along program admits C schedule)
    (hmem : ∀ event ∈ schedule, D event) :
    p.Along program admits (fun p event => C p event ∧ D event) schedule := by
  induction schedule generalizing p with
  | nil => trivial
  | cons event schedule ih =>
    simp at hmem
    exact ⟨⟨h.1, hmem.1⟩, ih h.2 hmem.2⟩

end Schedules
end Pool

/-! ### Rely and guarantee -/

/-- What the tasks of a pool guarantee, by their jobs, which jobs can run next to each other, what
the schedule has to see to when it answers a question, what holds when a job is done, and what holds
of the unfinished jobs as a whole. -/
structure Protocol (κ σ ι : Type) (ρ : ι → Type) (α : Type) where
  guarantee : Job κ σ ι ρ → World σ ι ρ → World σ ι ρ → Prop
  apart : Job κ σ ι ρ → Job κ σ ι ρ → Prop
  side : Job κ σ ι ρ → (q : ι) → ρ q → World σ ι ρ → Prop
  post : Job κ σ ι ρ → α → World σ ι ρ → Prop
  inv : List (Job κ σ ι ρ) → World σ ι ρ → Prop
  apart_symm : ∀ {job job'}, apart job job' → apart job' job
  inv_guarantee : ∀ {jobs job w w'}, inv jobs w → job ∈ jobs → guarantee job w w' → inv jobs w'
  inv_finish : ∀ {jobs jobs' job a w}, inv (jobs ++ job :: jobs') w → post job a w →
    inv (jobs ++ jobs') w

namespace Protocol

variable (P : Protocol κ σ ι ρ α)

/-- What happens in a pool: steps of its tasks. -/
abbrev Steps : World σ ι ρ → World σ ι ρ → Prop :=
  ReflTransGen fun w w' => ∃ job, P.guarantee job w w'

/-- What may happen while the job waits: steps of the jobs that are apart from it. -/
abbrev Others (job : Job κ σ ι ρ) : World σ ι ρ → World σ ι ρ → Prop :=
  ReflTransGen fun w w' => ∃ job', P.apart job job' ∧ P.guarantee job' w w'

/-- The contract of a task. -/
def Fulfils (job : Job κ σ ι ρ) (body : Coroutine σ ι ρ α) (w : World σ ι ρ) : Prop :=
  Meets (fun q r w w' => P.Others job w w' ∧ P.side job q r w') (P.guarantee job) (P.post job) body w

/-- A task that waits since some earlier world. -/
def Waits (t : Task κ σ ι ρ α) (now : World σ ι ρ) : Prop :=
  ∃ w, P.Others t.job w now ∧ P.Fulfils t.job (.await t.question t.resume) w

end Protocol

/-- The invariant of a pool under a protocol. -/
structure Pool.Sound (P : Protocol κ σ ι ρ α) (p : Pool κ σ ι ρ α) : Prop where
  waits : ∀ t ∈ p.tasks, P.Waits t p.world
  apart : p.tasks.Pairwise fun t t' => P.apart t.job t'.job
  inv : P.inv (p.tasks.map (·.job)) p.world
  done : ∀ x ∈ p.finished, ∃ w, P.post x.1 x.2 w ∧ P.Steps w p.world

variable {P : Protocol κ σ ι ρ α}

/-- To its next question a task takes steps that it guarantees. -/
lemma Meets.advance {R : Rely σ ι ρ} {G : Guarantee σ ι ρ} {Q : α → World σ ι ρ → Prop}
    {p : Coroutine σ ι ρ α} {w : World σ ι ρ} (h : Meets R G Q p w) :
    let w' : World σ ι ρ := ⟨(p.advance w.state).2, w.trace⟩
    ReflTransGen G w w' ∧
      match (p.advance w.state).1 with
      | .done a => Q a w'
      | .waiting q k => Meets R G Q (.await q k) w' := by
  induction p generalizing w with
  | pure a => exact ⟨.refl, h⟩
  | step u k ih =>
    obtain ⟨hsteps, hpaused⟩ := ih w.state h.2
    exact ⟨.head h.1 hsteps, hpaused⟩
  | await q k ih => exact ⟨.refl, h⟩

namespace Protocol

/-- A task may be answered at any moment that the schedule has seen to. -/
lemma Waits.answer {t : Task κ σ ι ρ α} {now : World σ ι ρ} (h : P.Waits t now)
    {r : ρ t.question} (hside : P.side t.job t.question r now) :
    P.guarantee t.job now (now.answer t.question r) ∧
      P.Fulfils t.job (t.resume r) (now.answer t.question r) := by
  obtain ⟨w, hothers, hfulfils⟩ := h
  exact hfulfils r now ⟨hothers, hside⟩

/-- A waiting task goes on waiting while a job apart from it takes its steps. -/
lemma Waits.steps {t : Task κ σ ι ρ α} {job : Job κ σ ι ρ} {w w' : World σ ι ρ}
    (h : P.Waits t w) (hapart : P.apart t.job job)
    (hsteps : ReflTransGen (P.guarantee job) w w') : P.Waits t w' := by
  obtain ⟨v, hothers, hfulfils⟩ := h
  refine ⟨v, hothers.trans ?_, hfulfils⟩
  exact ReflTransGen.mono (fun _ _ hstep => ⟨job, hapart, hstep⟩) _ _ hsteps

lemma inv_steps {jobs : List (Job κ σ ι ρ)} {job : Job κ σ ι ρ} {w w' : World σ ι ρ}
    (h : P.inv jobs w) (hjob : job ∈ jobs) (hsteps : ReflTransGen (P.guarantee job) w w') :
    P.inv jobs w' := by
  induction hsteps with
  | refl => exact h
  | tail _ hstep ih => exact P.inv_guarantee ih hjob hstep

end Protocol

namespace Pool

variable {program : κ → Coroutine σ ι ρ α} {admits : List κ → κ → Bool} {p : Pool κ σ ι ρ α}

/-- A task that runs on next to tasks apart from it keeps the pool sound. -/
lemma settle_sound {w : World σ ι ρ} {before after : List (Task κ σ ι ρ α)}
    {finished : List (Job κ σ ι ρ × α)} {job : Job κ σ ι ρ} {body : Coroutine σ ι ρ α}
    (hwaits : ∀ t ∈ before ++ after, P.Waits t w)
    (hpairs : (before ++ after).Pairwise fun t t' => P.apart t.job t'.job)
    (hapart : ∀ t ∈ before ++ after, P.apart t.job job)
    (hinv : P.inv (before.map (·.job) ++ job :: after.map (·.job)) w)
    (hdone : ∀ x ∈ finished, ∃ v, P.post x.1 x.2 v ∧ P.Steps v w)
    (hbody : P.Fulfils job body w) :
    (settle w before after finished job body).Sound P ∧
      P.Steps w (settle w before after finished job body).world := by
  obtain ⟨hsteps, hpaused⟩ := hbody.advance
  let w' : World σ ι ρ := ⟨(body.advance w.state).2, w.trace⟩
  have hchain : P.Steps w w' := ReflTransGen.mono (fun _ _ h => ⟨job, h⟩) _ _ hsteps
  have hinv' := P.inv_steps hinv (by simp) hsteps
  have hwaits' : ∀ t ∈ before ++ after, P.Waits t w' := fun t ht =>
    (hwaits t ht).steps (hapart t ht) hsteps
  have hdone' : ∀ x ∈ finished, ∃ v, P.post x.1 x.2 v ∧ P.Steps v w' := fun x hx => by
    obtain ⟨v, hpost, hv⟩ := hdone x hx
    exact ⟨v, hpost, hv.trans hchain⟩
  rcases settle_cases w before after finished job body with
    ⟨a, hadvance, hrests⟩ | ⟨q, k, hadvance, hrests⟩
  · rw [hadvance] at hpaused
    rw [hrests]
    refine ⟨⟨hwaits', hpairs, ?_, ?_⟩, hchain⟩
    · rw [List.map_append]
      exact P.inv_finish hinv' hpaused
    · intro x hx
      rcases List.mem_append.mp hx with hx | hx
      · exact hdone' x hx
      · rw [List.mem_singleton.mp hx]
        exact ⟨w', hpaused, .refl⟩
  · rw [hadvance] at hpaused
    rw [hrests]
    refine ⟨⟨?_, ?_, ?_, hdone'⟩, hchain⟩
    · intro t ht
      rcases List.mem_append.mp ht with ht | ht
      · exact hwaits' t (List.mem_append_left _ ht)
      · rcases List.mem_cons.mp ht with rfl | ht
        · exact ⟨w', .refl, hpaused⟩
        · exact hwaits' t (List.mem_append_right _ ht)
    · rw [List.pairwise_middle P.apart_symm]
      exact List.pairwise_cons.mpr ⟨fun t ht => P.apart_symm (hapart t ht), hpairs⟩
    · simpa using hinv'

/-- What an event needs: a new task fulfils its contract apart from the others, an answer is one
that the schedule has seen to. -/
def EventMeets (P : Protocol κ σ ι ρ α) (program : κ → Coroutine σ ι ρ α)
    (admits : List κ → κ → Bool) (p : Pool κ σ ι ρ α) : Event κ ι ρ → Prop
  | .start tag => admits (p.tasks.map (·.job.tag)) tag = true →
    (∀ t ∈ p.tasks, P.apart t.job ⟨tag, p.world⟩) ∧
      P.inv (p.tasks.map (·.job) ++ [⟨tag, p.world⟩]) p.world ∧
      P.Fulfils ⟨tag, p.world⟩ (program tag) p.world
  | .answer n reply => ∀ t, p.tasks[n]? = some t →
    P.side t.job t.question (reply t.question) p.world

/-- An event keeps a pool sound. -/
lemma step_sound (hp : p.Sound P) {event : Event κ ι ρ}
    (hevent : EventMeets P program admits p event) :
    (p.step program admits event).Sound P ∧
      P.Steps p.world (p.step program admits event).world := by
  cases event with
  | start tag =>
    rw [step]
    split_ifs with hadmits
    · obtain ⟨hapart, hinv, hbody⟩ := hevent hadmits
      apply settle_sound
      · simpa using hp.waits
      · simpa using hp.apart
      · simpa using hapart
      · simpa using hinv
      · exact hp.done
      · exact hbody
    · exact ⟨hp, .refl⟩
  | answer n reply =>
    rw [step]
    cases ht : p.tasks[n]? with
    | none => exact ⟨hp, .refl⟩
    | some t =>
      dsimp only
      have hpairs := hp.apart
      rw [tasks_split ht, List.pairwise_middle P.apart_symm, List.pairwise_cons] at hpairs
      obtain ⟨hanswer, hbody⟩ := (hp.waits t (List.mem_of_getElem? ht)).answer (hevent t ht)
      have hstep : P.Steps p.world (p.world.answer t.question (reply t.question)) :=
        .single ⟨t.job, hanswer⟩
      refine And.imp_right hstep.trans (settle_sound ?_ hpairs.2 ?_ ?_ ?_ hbody)
      · intro t' ht'
        exact (hp.waits t' (mem_tasks_of_others ht')).steps (P.apart_symm (hpairs.1 t' ht')) (.single hanswer)
      · exact fun t' ht' => P.apart_symm (hpairs.1 t' ht')
      · have hinv := hp.inv
        rw [tasks_split ht, List.map_append, List.map_cons] at hinv
        exact P.inv_guarantee hinv (by simp) hanswer
      · intro x hx
        obtain ⟨v, hpost, hv⟩ := hp.done x hx
        exact ⟨v, hpost, hv.trans hstep⟩

/-- A pool stays sound along a schedule whose events are as the protocol needs them. -/
theorem run_sound {C : Pool κ σ ι ρ α → Event κ ι ρ → Prop}
    (hC : ∀ p : Pool κ σ ι ρ α, p.Sound P → ∀ event, C p event →
      EventMeets P program admits p event)
    {schedule : List (Event κ ι ρ)} (hp : p.Sound P) (h : p.Along program admits C schedule) :
    (p.run program admits schedule).Sound P ∧
      P.Steps p.world (p.run program admits schedule).world := by
  induction schedule generalizing p with
  | nil => exact ⟨hp, .refl⟩
  | cons event schedule ih =>
    obtain ⟨hsound, hsteps⟩ := step_sound hp (hC p hp event h.1)
    obtain ⟨hsound', hsteps'⟩ := ih hsound h.2
    exact ⟨hsound', hsteps.trans hsteps'⟩

end Pool
end Coroutine
