import PolyCortex.Coroutine.Pool

/-!
# Monitors

A monitor says what a coroutine may do between two awaits: which updates it may make, and what it
may ask next. What is allowed depends on the answer the stretch began with and on nothing else, so
that a task of a pool obeys it whatever the other tasks do (`Pool.step_monitored`).
-/

namespace Coroutine

open Relation

variable {κ μ σ ι : Type} {ρ : ι → Type} {α β : Type}

/-- The answer `r` to `q` begins a stretch of the mode `enter q r`. -/
structure Monitor (μ σ ι : Type) (ρ : ι → Type) where
  enter : (q : ι) → ρ q → μ
  updates : μ → σ → σ → Prop
  asks : μ → ι → Prop

/-- The coroutine, in a stretch of the given mode, obeys the monitor and ends with `Q`. -/
def Obeys (M : Monitor μ σ ι ρ) (Q : μ → α → σ → Prop) : μ → Coroutine σ ι ρ α → σ → Prop
  | m, .pure a, s => Q m a s
  | m, .step u k, s => M.updates m s (u s) ∧ Obeys M Q m (k s) (u s)
  | m, .await q k, _ => M.asks m q ∧ ∀ r s, Obeys M Q (M.enter q r) (k r) s

variable {M : Monitor μ σ ι ρ} {Q : μ → α → σ → Prop} {m : μ} {s : σ}

@[simp] lemma obeys_pure (a : α) : Obeys M Q m (.pure a) s ↔ Q m a s := Iff.rfl

@[simp] lemma obeys_step (u : σ → σ) (k : σ → Coroutine σ ι ρ α) :
    Obeys M Q m (.step u k) s ↔ M.updates m s (u s) ∧ Obeys M Q m (k s) (u s) := Iff.rfl

@[simp] lemma obeys_await (q : ι) (k : ρ q → Coroutine σ ι ρ α) :
    Obeys M Q m (.await q k) s ↔ M.asks m q ∧ ∀ r s, Obeys M Q (M.enter q r) (k r) s := Iff.rfl

lemma Obeys.bind {Q' : μ → β → σ → Prop} {p : Coroutine σ ι ρ α} {f : α → Coroutine σ ι ρ β}
    (hp : Obeys M Q m p s) (hf : ∀ m a s, Q m a s → Obeys M Q' m (f a) s) :
    Obeys M Q' m (p.bind f) s := by
  induction p generalizing m s with
  | pure a => exact hf m a s hp
  | step u k ih => exact ⟨hp.1, ih _ hp.2⟩
  | await q k ih => exact ⟨hp.1, fun r s => ih r (hp.2 r s)⟩

/-- The coroutine obeys the monitor in the given mode, whatever it ends with. -/
abbrev Behaves (M : Monitor μ σ ι ρ) (m : μ) (p : Coroutine σ ι ρ α) (s : σ) : Prop :=
  Obeys M (fun _ _ _ => True) m p s

lemma Behaves.bind {p : Coroutine σ ι ρ α} {f : α → Coroutine σ ι ρ β} (hp : Behaves M m p s)
    (hf : ∀ m a s, Behaves M m (f a) s) : Behaves M m (p.bind f) s :=
  Obeys.bind hp fun m a s _ => hf m a s

/-- A loop behaves when each round does, in every mode it may be reached in. -/
lemma Behaves.forEach {I : μ → Prop} {f : α → Coroutine σ ι ρ (List β)} {as : List α}
    (hf : ∀ a m s, I m → Obeys M (fun m _ _ => I m) m (f a) s) (hm : I m) :
    Obeys M (fun m _ _ => I m) m (forEach f as) s := by
  induction as generalizing m s with
  | nil => exact hm
  | cons a as ih =>
    apply (hf a m s hm).bind
    intro m' bs s' hm'
    apply (ih hm').bind
    exact fun m'' cs s'' hm'' => hm''

/-- What a stretch of the mode `m` does before the coroutine rests. -/
lemma Obeys.advance {p : Coroutine σ ι ρ α} (h : Obeys M Q m p s) :
    ReflTransGen (M.updates m) s (p.advance s).2 ∧
      match (p.advance s).1 with
      | .done a => Q m a (p.advance s).2
      | .waiting q k => M.asks m q ∧ ∀ r s, Obeys M Q (M.enter q r) (k r) s := by
  induction p generalizing s with
  | pure a => exact ⟨.refl, h⟩
  | step u k ih =>
    obtain ⟨hupdates, hpaused⟩ := ih s h.2
    exact ⟨.head h.1 hupdates, hpaused⟩
  | await q k ih => exact ⟨.refl, h⟩

namespace Pool

variable {program : κ → Coroutine σ ι ρ α} {admits : List κ → κ → Bool} {p p' : Pool κ σ ι ρ α}

/-- How many questions of the kind `B` were asked so far. -/
def asked (B : ι → Bool) (p : Pool κ σ ι ρ α) : ℕ :=
  p.world.trace.countP (fun x => B x.1) + p.tasks.countP (fun t => B t.question)

/-- A step that finds no question of the kind `B` and leaves none behind has asked none. -/
lemma asked_step {B : ι → Bool} (event : Event κ ι ρ) (hbefore : ∀ t ∈ p.tasks, B t.question = false)
    (hafter : ∀ t ∈ (p.step program admits event).tasks, B t.question = false) :
    (p.step program admits event).asked B = p.asked B := by
  have hnone : ∀ {tasks : List (Task κ σ ι ρ α)}, (∀ t ∈ tasks, B t.question = false) →
      tasks.countP (fun t => B t.question) = 0 := fun h => by
    simpa [List.countP_eq_zero] using h
  have htrace : ∀ w before after finished job (body : Coroutine σ ι ρ α),
      (settle w before after finished job body : Pool κ σ ι ρ α).world.trace = w.trace := by
    intro w before after finished job body
    rcases settle_cases w before after finished job body with ⟨a, -, hsettle⟩ | ⟨q, k, -, hsettle⟩ <;>
      rw [hsettle]
  rw [asked, asked, hnone hbefore, hnone hafter, add_zero, add_zero]
  cases event with
  | start tag =>
    rw [step]
    split_ifs
    · rw [htrace]
    · rfl
  | answer n reply =>
    rw [step]
    cases ht : p.tasks[n]? with
    | none => rfl
    | some t =>
      dsimp only
      rw [htrace, World.answer_trace, List.countP_append, List.countP_singleton,
        hbefore t (List.mem_of_getElem? ht)]
      simp

/-- Whatever they are answered, the tasks go on as the monitor says. -/
def Monitored (M : Monitor μ σ ι ρ) (p : Pool κ σ ι ρ α) : Prop :=
  ∀ t ∈ p.tasks, ∀ r s, Behaves M (M.enter t.question r) (t.resume r) s

/-- A stretch of the mode `m` has led from `p` to `p'`. -/
structure Stretch (M : Monitor μ σ ι ρ) (m : μ) (p p' : Pool κ σ ι ρ α) : Prop where
  updates : ReflTransGen (M.updates m) p.world.state p'.world.state
  asked : ∀ B : ι → Bool, (∀ q, M.asks m q → B q = false) → p'.asked B = p.asked B

/-- A task that runs on in a stretch of the mode `m`, next to others. -/
lemma settle_stretch (w : World σ ι ρ) (before after : List (Task κ σ ι ρ α))
    (finished : List (Job κ σ ι ρ × α)) (job : Job κ σ ι ρ) {body : Coroutine σ ι ρ α}
    (hbody : Behaves M m body w.state)
    (htasks : ∀ t ∈ before ++ after, ∀ r s, Behaves M (M.enter t.question r) (t.resume r) s) :
    (settle w before after finished job body).Monitored M ∧
      ReflTransGen (M.updates m) w.state (settle w before after finished job body).world.state ∧
      ∀ B : ι → Bool, (∀ q, M.asks m q → B q = false) →
        (settle w before after finished job body).asked B =
          w.trace.countP (fun x => B x.1) + (before ++ after).countP (fun t => B t.question) := by
  obtain ⟨hupdates, hpaused⟩ := hbody.advance
  rw [settle]
  rcases hadvance : body.advance w.state with ⟨paused, s⟩
  rw [hadvance] at hupdates hpaused
  cases paused with
  | done a => exact ⟨htasks, hupdates, fun B _ => rfl⟩
  | waiting q k =>
    obtain ⟨hasks, hresume⟩ := hpaused
    refine ⟨?_, hupdates, fun B hB => ?_⟩
    · intro t ht
      simp only [List.mem_append, List.mem_cons] at ht
      rcases ht with ht | rfl | ht
      · exact htasks t (List.mem_append_left _ ht)
      · exact hresume
      · exact htasks t (List.mem_append_right _ ht)
    · simp [asked, hB q hasks]

variable (p program admits) in
/-- An event keeps the tasks monitored. It starts a task, or it answers one, or nothing happens. -/
theorem step_monitored {start : κ → μ} (hp : p.Monitored M)
    (hprogram : ∀ tag s, Behaves M (start tag) (program tag) s) (event : Event κ ι ρ) :
    (p.step program admits event).Monitored M ∧
      match event with
      | .start tag =>
        p.step program admits event = p ∨
          p.Stretch M (start tag) (p.step program admits event)
      | .answer n reply =>
        p.step program admits event = p ∨ ∃ t, p.tasks[n]? = some t ∧
          p.Stretch M (M.enter t.question (reply t.question)) (p.step program admits event) := by
  cases event with
  | start tag =>
    dsimp only
    rw [step]
    split_ifs
    · have htasks : ∀ t ∈ p.tasks ++ [], ∀ r s, Behaves M (M.enter t.question r) (t.resume r) s := by
        rw [List.append_nil]
        exact hp
      obtain ⟨hmonitored, hupdates, hasked⟩ := settle_stretch p.world p.tasks [] p.finished
        ⟨tag, p.world⟩ (hprogram tag p.world.state) htasks
      exact ⟨hmonitored, Or.inr ⟨hupdates, fun B hB => by simpa [asked] using hasked B hB⟩⟩
    · exact ⟨hp, Or.inl rfl⟩
  | answer n reply =>
    dsimp only
    rw [step]
    cases ht : p.tasks[n]? with
    | none => exact ⟨hp, Or.inl rfl⟩
    | some t =>
      dsimp only
      have hbody := hp t (List.mem_of_getElem? ht) (reply t.question) p.world.state
      obtain ⟨hmonitored, hupdates, hasked⟩ := settle_stretch
        (p.world.answer t.question (reply t.question)) (p.tasks.take n) (p.tasks.drop (n + 1))
        p.finished t.job hbody fun t' ht' => hp t' (mem_tasks_of_others ht')
      refine ⟨hmonitored, Or.inr ⟨t, rfl, hupdates, fun B hB => ?_⟩⟩
      -- the answered question moves from the tasks to the trace
      have hcount : p.tasks.countP (fun t => B t.question) =
          (p.tasks.take n ++ p.tasks.drop (n + 1)).countP (fun t => B t.question) +
            if B t.question then 1 else 0 := by
        conv_lhs => rw [tasks_split ht]
        simp only [List.countP_append, List.countP_cons]
        omega
      rw [hasked B hB, asked, hcount, World.answer_trace, List.countP_append,
        List.countP_singleton]
      dsimp only
      omega

end Pool

end Coroutine
