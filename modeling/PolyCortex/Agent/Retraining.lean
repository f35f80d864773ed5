import PolyCortex.Data.ListRuns
import PolyCortex.Infra.Scheduler
import PolyCortex.Models.TcnTraining

/-!
# Retraining the ensemble

Step 6b of the cycle. A training is a process of its own, which writes the file of the model after every
epoch that is its best one so far. The agent waits for it and reads the file when it has succeeded; an
agent that dies leaves its training behind. Whatever the interleaving, the weights in use are those of the
best epoch that some training had up to some moment (`retraining_sound`). As long as nothing is left behind
one training runs at a time, they are the scheduled interval apart, and each one that succeeds leaves what
`train_tcn` returns (`retraining_spaced`).
-/

namespace PolyCortex

open Machine IntervalScheduler

/-- What `train_tcn` is called with: the ensemble and the loaders. -/
structure Training (S X : Type) where
  model : S
  trainLoader : ℕ → List (List (X × ℚ))
  valLoader : List (List (X × ℚ))

inductive ProcessStatus where
  | running
  /-- ended with the exit code 0 -/
  | succeeded
  | failed
  deriving DecidableEq, Repr

/-- A process of `train_tcn.py`, with the variables of its loop. -/
structure TrainingProcess (S X W : Type) where
  startedAt : DateTime
  training : Training S X
  progress : TrainState S W
  status : ProcessStatus

/-- `tcn_latest.pt`: no file, one that was not written to its end, or one with weights. -/
abbrev ModelFile (W : Type) := Option (Option W)

/-- What a process does next: an epoch, the end, or a failure, which can come while the file is written. -/
inductive ProcessAction where
  | epoch
  | exit
  | fail
  | failSaving
  deriving DecidableEq, Repr

namespace TrainingProcess

variable {S X W : Type}

def start (now : DateTime) (training : Training S X) : TrainingProcess S X W where
  startedAt := now
  training
  progress := { state := training.model }
  status := .running

/-- The loop is over: all epochs are done, or the last one has stopped it. -/
def Over (cfg : TrainConfig) (v : TrainState S W) : Prop :=
  cfg.epochs ≤ v.valLosses.length ∨ v.valLosses ≠ [] ∧ cfg.patience ≤ v.epochsNoImprove

instance (cfg : TrainConfig) (v : TrainState S W) : Decidable (Over cfg v) :=
  inferInstanceAs (Decidable (_ ∨ _))

/-- The variables after one more epoch. -/
def nextEpoch (t : Trainer S X W) (p : TrainingProcess S X W) : TrainState S W :=
  t.step p.training.trainLoader p.training.valLoader p.progress (p.progress.valLosses.length + 1)

/-- An epoch that is the best one saves its weights. -/
def Saves (v : TrainState S W) : Prop := v.epochsNoImprove = 0

instance (v : TrainState S W) : Decidable (Saves v) := inferInstanceAs (Decidable (_ = _))

/-- What is left of a process that runs, and of the file. -/
def act (t : Trainer S X W) (cfg : TrainConfig) (p : TrainingProcess S X W) (file : ModelFile W) :
    ProcessAction → TrainingProcess S X W × ModelFile W
  | .epoch =>
    if Over cfg p.progress then (p, file)
    else ({ p with progress := p.nextEpoch t },
      if Saves (p.nextEpoch t) then (p.nextEpoch t).saved.map some else file)
  | .exit => if Over cfg p.progress then ({ p with status := .succeeded }, file) else (p, file)
  | .fail => ({ p with status := .failed }, file)
  | .failSaving =>
    if ¬ Over cfg p.progress ∧ Saves (p.nextEpoch t) then ({ p with status := .failed }, some none)
    else (p, file)

/-- `proc.kill()`. -/
def kill (p : TrainingProcess S X W) : TrainingProcess S X W :=
  if p.status = .running then { p with status := .failed } else p

end TrainingProcess

/-- A call of `mark_ran`: when, and what becomes of the file of the scheduler. -/
structure Mark where
  now : DateTime
  outcome : WriteOutcome

/-- How `_retrain_tcn` begins: there is no script, the process cannot be created, or it can. -/
inductive RetrainStart (S X : Type) where
  | noScript (mark : Mark)
  | crashed (mark : Mark)
  | created (training : Training S X)

inductive RetrainEvent (S X : Type) where
  /-- a cycle comes to step 6b -/
  | check (now : DateTime) (start : RetrainStart S X)
  | process (i : ℕ) (action : ProcessAction)
  /-- `communicate` returns -/
  | communicated (mark : Mark)
  | timedOut (first second : Mark)
  /-- anything else is raised while the agent waits -/
  | crashed (mark : Mark)
  /-- `mark_ran` for the regime model -/
  | refitted (mark : Mark)
  /-- a new process of the agent -/
  | restart

/-- The agent as far as the training is concerned, with the processes that were ever created. -/
structure Retraining (S X W : Type) where
  processes : List (TrainingProcess S X W) := []
  modelFile : ModelFile W := none
  /-- the model of the edge detector -/
  tcnModel : Option W := none
  scheduler : IntervalScheduler := .load none
  /-- the process that the agent waits for -/
  awaited : Option ℕ := none

namespace Retraining

variable {S X W : Type}

/-- What is in use after the file was read: what could not be read leaves what there was. -/
def reloadTcnModel (file : ModelFile W) (tcnModel : Option W) : Option W :=
  match file with
  | some (some weights) => some weights
  | _ => tcnModel

def markRan (m : Mark) (s : Retraining S X W) : Retraining S X W :=
  { s with scheduler := s.scheduler.markRan "tcn_retrain" m.now m.outcome }

def awaitedProcess (s : Retraining S X W) : Option (TrainingProcess S X W) :=
  s.awaited.bind fun i => s.processes[i]?

/-- `_retrain_tcn`, up to where it waits for the process. -/
def retrainTcn (now : DateTime) (s : Retraining S X W) : RetrainStart S X → Retraining S X W
  | .noScript mark | .crashed mark => s.markRan mark
  | .created training =>
    { s with
      processes := s.processes ++ [.start now training]
      awaited := some s.processes.length }

/-- The rest of `_retrain_tcn` when `communicate` has returned. -/
def communicated (mark : Mark) (p : TrainingProcess S X W) (s : Retraining S X W) : Retraining S X W :=
  markRan mark { s with
    awaited := none
    tcnModel := if p.status = .succeeded then reloadTcnModel s.modelFile s.tcnModel else s.tcnModel }

section

variable (t : Trainer S X W) (cfg : TrainConfig) (others : String → Except PyError DateTime)
  (tcnRetrainDays : ℚ)

/-- What is not possible changes nothing. -/
def step (s : Retraining S X W) : RetrainEvent S X → Retraining S X W
  | .check now start =>
    if s.awaited = none ∧ 0 < tcnRetrainDays ∧
        due others "tcn_retrain" tcnRetrainDays now s.scheduler = true then s.retrainTcn now start
    else s
  | .process i action =>
    match s.processes[i]? with
    | none => s
    | some p =>
      if p.status = .running then
        let (p', file) := p.act t cfg s.modelFile action
        { s with processes := s.processes.set i p', modelFile := file }
      else s
  | .communicated mark =>
    match s.awaitedProcess with
    | none => s
    | some p => if p.status = .running then s else s.communicated mark p
  | .timedOut first second =>
    match s.awaited with
    | none => s
    | some i => markRan second (markRan first { s with
        processes := s.processes.modify i TrainingProcess.kill
        awaited := none })
  | .crashed mark => if s.awaited = none then s else markRan mark { s with awaited := none }
  | .refitted mark =>
    if s.awaited = none then
      { s with scheduler := s.scheduler.markRan "regime_refit" mark.now mark.outcome }
    else s
  | .restart =>
    { s with
      tcnModel := reloadTcnModel s.modelFile none
      scheduler := .load s.scheduler.file
      awaited := none }

/-- The first process of the agent finds no files. -/
def after (events : List (RetrainEvent S X)) : Retraining S X W :=
  run (step t cfg others tcnRetrainDays) {} events

end

end Retraining

/-! ### A process -/

namespace TrainingProcess

variable {S X W : Type} (t : Trainer S X W) (cfg : TrainConfig)

/-- What the loop makes of its variables. -/
def finish (training : Training S X) (v : TrainState S W) : TrainState S W :=
  if Over cfg v then v
  else t.loop training.trainLoader training.valLoader cfg.patience
    (List.range' (v.valLosses.length + 1) (cfg.epochs - v.valLosses.length)) v

/-- The process has done the first epochs of its training, and `train_tcn` returns what is left when the
loop is over. -/
structure Sound (p : TrainingProcess S X W) : Prop where
  follows : Trainer.Follows t p.training.trainLoader p.training.valLoader p.training.model
    p.progress.valLosses.length p.progress
  le : p.progress.valLosses.length ≤ cfg.epochs
  returns : finish t cfg p.training p.progress =
    t.trainTcn p.training.trainLoader p.training.valLoader cfg p.training.model
  succeeded : p.status = .succeeded → Over cfg p.progress

/-- The weights are those of the epoch that was the best one after some of the epochs that are done. -/
def SavedBy (weights : W) (p : TrainingProcess S X W) : Prop :=
  ∃ n b loss, n ≤ p.progress.valLosses.length ∧ 0 < b ∧
    IsBest (t.losses p.training.trainLoader p.training.valLoader p.training.model n) b loss ∧
    weights = t.stateDict (t.after p.training.trainLoader p.training.valLoader p.training.model b)

variable {t cfg} {p p' : TrainingProcess S X W} {weights : W} {file' : ModelFile W}

/-- The same training, which may have gone on. -/
structure Continues (p p' : TrainingProcess S X W) : Prop where
  startedAt : p'.startedAt = p.startedAt
  training : p'.training = p.training
  le : p.progress.valLosses.length ≤ p'.progress.valLosses.length

lemma Continues.rfl : Continues p p := ⟨Eq.refl _, Eq.refl _, le_rfl⟩

lemma SavedBy.continues (h : p.SavedBy t weights) (hp : Continues p p') : p'.SavedBy t weights := by
  obtain ⟨n, b, loss, hn, hb⟩ := h
  rw [SavedBy, hp.training]
  exact ⟨n, b, loss, hn.trans hp.le, hb⟩

/-- What is saved are the weights of the best epoch so far. -/
lemma Sound.savedBy (h : p.Sound t cfg) (hsaved : p.progress.saved = some weights) :
    p.SavedBy t weights := by
  have hweights := h.follows.saved
  split_ifs at hweights with hbest
  · rw [hweights] at hsaved
    cases hsaved
  · rw [hweights] at hsaved
    have hisBest := h.follows.best
    rw [h.follows.valLosses] at hisBest
    exact ⟨_, _, _, le_rfl, Nat.pos_of_ne_zero hbest, hisBest, (Option.some.inj hsaved).symm⟩

lemma sound_start (now : DateTime) (training : Training S X) :
    (start now training : TrainingProcess S X W).Sound t cfg where
  follows := Trainer.Follows.start
  le := Nat.zero_le _
  returns := by
    rw [finish]
    split_ifs with hover
    · have hnone : cfg.epochs = 0 := Nat.le_zero.mp (hover.resolve_right fun h => h.1 rfl)
      rw [Trainer.trainTcn, hnone]
      rfl
    · rfl
  succeeded := by
    intro h
    cases h

lemma not_over (h : ¬ Over cfg p.progress) : p.progress.valLosses.length < cfg.epochs :=
  not_le.mp fun hle => h (Or.inl hle)

lemma Sound.nextEpoch (h : p.Sound t cfg) : Trainer.Follows t p.training.trainLoader p.training.valLoader
    p.training.model (p.progress.valLosses.length + 1) (p.nextEpoch t) := h.follows.step

lemma Sound.length_nextEpoch (h : p.Sound t cfg) :
    (p.nextEpoch t).valLosses.length = p.progress.valLosses.length + 1 := by
  rw [h.nextEpoch.valLosses, Trainer.length_losses]

/-- An epoch is one pass of the loop. -/
lemma Sound.finish_nextEpoch (h : p.Sound t cfg) (hover : ¬ Over cfg p.progress) :
    finish t cfg p.training (p.nextEpoch t) = finish t cfg p.training p.progress := by
  have hlength := h.length_nextEpoch
  obtain ⟨k, hk⟩ : ∃ k, cfg.epochs - p.progress.valLosses.length = k + 1 :=
    Nat.exists_eq_add_one.mpr (Nat.sub_pos_of_lt (not_over hover))
  have hrest : cfg.epochs - (p.nextEpoch t).valLosses.length = k := by omega
  have hne : (p.nextEpoch t).valLosses ≠ [] := List.ne_nil_of_length_pos (by omega)
  rw [finish, finish, if_neg hover, hk, List.range'_succ, Trainer.loop, hrest, hlength]
  show _ = if cfg.patience ≤ (p.nextEpoch t).epochsNoImprove then p.nextEpoch t else _
  by_cases hstop : cfg.patience ≤ (p.nextEpoch t).epochsNoImprove
  · rw [if_pos hstop, if_pos (show Over cfg (p.nextEpoch t) from Or.inr ⟨hne, hstop⟩)]
  · rw [if_neg hstop]
    split_ifs with hall
    · have hle : cfg.epochs ≤ (p.nextEpoch t).valLosses.length := hall.resolve_right fun h => hstop h.2
      obtain rfl : k = 0 := by omega
      rfl
    · rfl

lemma Sound.epoch (h : p.Sound t cfg) (hover : ¬ Over cfg p.progress) (hrunning : p.status = .running) :
    Sound t cfg { p with progress := p.nextEpoch t } where
  follows := by
    show Trainer.Follows _ _ _ _ (p.nextEpoch t).valLosses.length _
    rw [h.length_nextEpoch]
    exact h.nextEpoch
  le := h.length_nextEpoch.trans_le (not_over hover)
  returns := (h.finish_nextEpoch hover).trans h.returns
  succeeded := by
    intro hsucceeded
    rw [hrunning] at hsucceeded
    cases hsucceeded

lemma Sound.continues_nextEpoch (h : p.Sound t cfg) : Continues p { p with progress := p.nextEpoch t } :=
  ⟨Eq.refl _, Eq.refl _, (Nat.le_succ _).trans h.length_nextEpoch.ge⟩

/-- One action of a process. -/
lemma Sound.act (h : p.Sound t cfg) (hrunning : p.status = .running) (file : ModelFile W)
    (action : ProcessAction) (hact : p.act t cfg file action = (p', file')) :
    p'.Sound t cfg ∧ Continues p p' ∧
      ∀ weights, file' = some (some weights) → file = some (some weights) ∨ p'.SavedBy t weights := by
  have hended : ∀ status, (status = .succeeded → Over cfg p.progress) →
      Sound t cfg { p with status := status } ∧ Continues p { p with status := status } := by
    intro status hstatus
    exact ⟨⟨h.follows, h.le, h.returns, hstatus⟩, Eq.refl _, Eq.refl _, le_rfl⟩
  have hsame : p.Sound t cfg ∧ Continues p p ∧
      ∀ weights, file = some (some weights) → file = some (some weights) ∨ p.SavedBy t weights :=
    ⟨h, Continues.rfl, fun _ hfile => Or.inl hfile⟩
  cases action with
  | epoch =>
    rw [TrainingProcess.act] at hact
    split_ifs at hact with hover hsaves
    · cases hact
      exact hsame
    · cases hact
      have hnext := h.epoch hover hrunning
      refine ⟨hnext, h.continues_nextEpoch, ?_⟩
      intro weights hfile
      obtain ⟨saved, hsaved, hweights⟩ := Option.map_eq_some_iff.mp hfile
      rw [Option.some.inj hweights] at hsaved
      exact Or.inr (hnext.savedBy hsaved)
    · cases hact
      exact ⟨h.epoch hover hrunning, h.continues_nextEpoch, fun _ hfile => Or.inl hfile⟩
  | exit =>
    rw [TrainingProcess.act] at hact
    split_ifs at hact with hover
    · cases hact
      obtain ⟨hsound, hcontinues⟩ := hended .succeeded fun _ => hover
      exact ⟨hsound, hcontinues, fun _ hfile => Or.inl hfile⟩
    · cases hact
      exact hsame
  | fail =>
    cases hact
    obtain ⟨hsound, hcontinues⟩ := hended .failed fun hfailed => by cases hfailed
    exact ⟨hsound, hcontinues, fun _ hfile => Or.inl hfile⟩
  | failSaving =>
    rw [TrainingProcess.act] at hact
    split_ifs at hact with hsaves
    · cases hact
      obtain ⟨hsound, hcontinues⟩ := hended .failed fun hfailed => by cases hfailed
      exact ⟨hsound, hcontinues, fun _ hfile => by cases hfile⟩
    · cases hact
      exact hsame

lemma Sound.eq_trainTcn (h : p.Sound t cfg) (hsucceeded : p.status = .succeeded) : p.progress =
    t.trainTcn p.training.trainLoader p.training.valLoader cfg p.training.model := by
  rw [← h.returns, finish, if_pos (h.succeeded hsucceeded)]

lemma Sound.kill (h : p.Sound t cfg) : p.kill.Sound t cfg := by
  rw [TrainingProcess.kill]
  split_ifs
  · exact ⟨h.follows, h.le, h.returns, fun hfailed => by cases hfailed⟩
  · exact h

lemma continues_kill (p : TrainingProcess S X W) : Continues p p.kill := by
  rw [TrainingProcess.kill]
  split_ifs
  · exact ⟨Eq.refl _, Eq.refl _, le_rfl⟩
  · exact Continues.rfl

end TrainingProcess

/-! ### Where weights come from -/

namespace Retraining

open TrainingProcess

variable {S X W : Type} (t : Trainer S X W) (cfg : TrainConfig)

/-- Some training saved the weights. -/
def FromTraining (weights : W) (s : Retraining S X W) : Prop := ∃ p ∈ s.processes, p.SavedBy t weights

structure Sound (s : Retraining S X W) : Prop where
  processes : ∀ p ∈ s.processes, p.Sound t cfg
  file : ∀ weights, s.modelFile = some (some weights) → s.FromTraining t weights
  model : ∀ weights, s.tcnModel = some weights → s.FromTraining t weights

variable {t cfg} {others : String → Except PyError DateTime} {tcnRetrainDays : ℚ}
  {s s' : Retraining S X W} {p : TrainingProcess S X W} {weights : W}

lemma eq_of_reloadTcnModel {file : ModelFile W} {tcnModel : Option W}
    (h : reloadTcnModel file tcnModel = some weights) :
    file = some (some weights) ∨ tcnModel = some weights := by
  rcases file with _ | _ | saved
  · exact Or.inr h
  · exact Or.inr h
  · exact Or.inl (congrArg some h)

/-- What keeps the trainings, and puts nothing else into the file or in use. -/
lemma Sound.of_continues (h : s.Sound t cfg) (hsound : ∀ p ∈ s'.processes, p.Sound t cfg)
    (hcontinues : ∀ p ∈ s.processes, ∃ p' ∈ s'.processes, Continues p p')
    (hfile : ∀ weights, s'.modelFile = some (some weights) →
      s.modelFile = some (some weights) ∨ s'.FromTraining t weights)
    (hmodel : ∀ weights, s'.tcnModel = some weights →
      s.modelFile = some (some weights) ∨ s.tcnModel = some weights) : s'.Sound t cfg := by
  have hkept : ∀ weights, s.FromTraining t weights → s'.FromTraining t weights := by
    rintro weights ⟨p, hp, hsaved⟩
    obtain ⟨p', hp', hcont⟩ := hcontinues p hp
    exact ⟨p', hp', hsaved.continues hcont⟩
  refine ⟨hsound, fun weights hweights => ?_, fun weights hweights => ?_⟩
  · exact (hfile weights hweights).elim (fun hold => hkept _ (h.file _ hold)) id
  · exact (hmodel weights hweights).elim (fun hold => hkept _ (h.file _ hold))
      fun hold => hkept _ (h.model _ hold)

/-- What leaves the processes and the file as they are. -/
lemma Sound.of_eq (h : s.Sound t cfg) (hprocesses : s'.processes = s.processes)
    (hfile : s'.modelFile = s.modelFile)
    (hmodel : ∀ weights, s'.tcnModel = some weights →
      s.modelFile = some (some weights) ∨ s.tcnModel = some weights) : s'.Sound t cfg := by
  refine h.of_continues (hprocesses ▸ h.processes) ?_ ?_ hmodel
  · exact fun p hp => ⟨p, hprocesses ▸ hp, Continues.rfl⟩
  · rw [hfile]
    exact fun _ => Or.inl

lemma Sound.retrainTcn (h : s.Sound t cfg) (now : DateTime) (start : RetrainStart S X) :
    (s.retrainTcn now start).Sound t cfg := by
  cases start with
  | noScript mark => exact h.of_eq rfl rfl fun _ => Or.inr
  | crashed mark => exact h.of_eq rfl rfl fun _ => Or.inr
  | created training =>
    refine h.of_continues ?_ ?_ (fun _ => Or.inl) fun _ => Or.inr
    · intro p hp
      rcases List.mem_append.mp hp with hold | hnew
      · exact h.processes p hold
      · rw [List.mem_singleton.mp hnew]
        exact sound_start now training
    · exact fun p hp => ⟨p, List.mem_append_left _ hp, Continues.rfl⟩

/-- A process does something. -/
lemma Sound.process {i : ℕ} {action : ProcessAction} (h : s.Sound t cfg) (hget : s.processes[i]? = some p)
    (hrunning : p.status = .running) :
    Sound t cfg { s with
      processes := s.processes.set i (p.act t cfg s.modelFile action).1
      modelFile := (p.act t cfg s.modelFile action).2 } := by
  have hi := (List.getElem?_eq_some_iff.mp hget).1
  obtain ⟨hsound, hcontinues, hfile⟩ :=
    (h.processes p (List.mem_of_getElem? hget)).act hrunning s.modelFile action rfl
  have hnew : (p.act t cfg s.modelFile action).1 ∈ s.processes.set i (p.act t cfg s.modelFile action).1 :=
    List.mem_set hi _
  refine h.of_continues ?_ ?_ ?_ fun _ => Or.inr
  · intro q hq
    rcases List.mem_or_eq_of_mem_set hq with hold | rfl
    · exact h.processes q hold
    · exact hsound
  · show ∀ q ∈ s.processes, ∃ q' ∈ s.processes.set i _, Continues q q'
    rw [List.set_eq_modify]
    refine List.exists_mem_modify (fun _ => Continues.rfl) fun q hq => ?_
    rw [Option.some.inj (hq.symm.trans hget)]
    exact hcontinues
  · exact fun weights hweights => (hfile weights hweights).imp_right fun hsaved => ⟨_, hnew, hsaved⟩

lemma Sound.kill (h : s.Sound t cfg) (i : ℕ) :
    Sound t cfg { s with processes := s.processes.modify i TrainingProcess.kill } := by
  refine h.of_continues ?_ ?_ (fun _ => Or.inl) fun _ => Or.inr
  · exact List.forall_mem_modify h.processes fun p hp => (h.processes p (List.mem_of_getElem? hp)).kill
  · exact List.exists_mem_modify (fun _ => Continues.rfl) fun p _ => continues_kill p

lemma Sound.step (h : s.Sound t cfg) (event : RetrainEvent S X) :
    (s.step t cfg others tcnRetrainDays event).Sound t cfg := by
  cases event with
  | check now start =>
    rw [Retraining.step]
    split_ifs
    · exact h.retrainTcn now start
    · exact h
  | process i action =>
    simp only [Retraining.step]
    split
    · exact h
    · next p hget =>
      split_ifs with hrunning
      · exact h.process hget hrunning
      · exact h
  | communicated mark =>
    simp only [Retraining.step]
    split
    · exact h
    · next p hget =>
      split_ifs
      · exact h
      · refine h.of_eq rfl rfl fun weights hweights => ?_
        simp only [Retraining.communicated, markRan] at hweights
        split_ifs at hweights
        · exact eq_of_reloadTcnModel hweights
        · exact Or.inr hweights
  | timedOut first second =>
    simp only [Retraining.step]
    split
    · exact h
    · next i _ => exact (h.kill i).of_eq rfl rfl fun _ => Or.inr
  | crashed mark =>
    rw [Retraining.step]
    split_ifs
    · exact h
    · exact h.of_eq rfl rfl fun _ => Or.inr
  | refitted mark =>
    rw [Retraining.step]
    split_ifs
    · exact h.of_eq rfl rfl fun _ => Or.inr
    · exact h
  | restart =>
    refine h.of_eq rfl rfl fun weights hweights => Or.inl ?_
    exact (eq_of_reloadTcnModel hweights).resolve_right (by simp)

lemma sound_after (events : List (RetrainEvent S X)) :
    (after t cfg others tcnRetrainDays events).Sound t cfg := by
  apply run_invariant
  · exact ⟨by simp, by simp, by simp⟩
  · exact fun _ event h => h.step event

/-- However the agent, its restarts and the trainings interleave: the weights in use, and those in the file,
are of the epoch that was the best one of some training after some of its epochs; and a training that has
succeeded is what `train_tcn` returns. -/
theorem retraining_sound (t : Trainer S X W) (cfg : TrainConfig) (others : String → Except PyError DateTime)
    (tcnRetrainDays : ℚ) (events : List (RetrainEvent S X)) :
    let s := after t cfg others tcnRetrainDays events
    (∀ weights, s.tcnModel = some weights ∨ s.modelFile = some (some weights) →
      ∃ p ∈ s.processes, p.SavedBy t weights) ∧
    ∀ p ∈ s.processes, p.status = .succeeded → p.progress =
      t.trainTcn p.training.trainLoader p.training.valLoader cfg p.training.model := by
  have h : (after t cfg others tcnRetrainDays events).Sound t cfg := sound_after events
  exact ⟨fun weights hweights => hweights.elim (h.model weights) (h.file weights),
    fun p hp hsucceeded => (h.processes p hp).eq_trainTcn hsucceeded⟩

/-! ### Runs that leave nothing behind -/

section Orderly

/-- The awaited process was started before. -/
def StartedBefore (mark : Mark) (s : Retraining S X W) : Prop :=
  ∀ p ∈ s.awaitedProcess, p.startedAt.toTime ≤ mark.now.toTime

/-- The clock does not go back, no process runs on that is not waited for any more, and a new agent finds
the time of the last training that the old one knew. -/
def Orderly (s : Retraining S X W) : RetrainEvent S X → Prop
  | .check now (.noScript mark) | .check now (.crashed mark) => now.toTime ≤ mark.now.toTime
  | .check _ (.created _) | .process _ _ | .refitted _ => True
  | .communicated mark => s.StartedBefore mark
  | .timedOut _ second => s.StartedBefore second
  | .crashed mark => s.StartedBefore mark ∧ ∀ p ∈ s.awaitedProcess, p.status ≠ .running
  | .restart => s.awaited = none ∧
      (IntervalScheduler.load s.scheduler.file).state.get? "tcn_retrain" =
        s.scheduler.state.get? "tcn_retrain"

instance (mark : Mark) (s : Retraining S X W) : Decidable (s.StartedBefore mark) :=
  inferInstanceAs (Decidable (∀ p ∈ s.awaitedProcess, _))

instance (s : Retraining S X W) : (event : RetrainEvent S X) → Decidable (s.Orderly event)
  | .check _ (.noScript _) | .check _ (.crashed _) => inferInstanceAs (Decidable (_ ≤ _))
  | .check _ (.created _) | .process _ _ | .refitted _ => isTrue trivial
  | .communicated _ | .timedOut _ _ => inferInstanceAs (Decidable (StartedBefore _ _))
  | .crashed _ => inferInstanceAs (Decidable (StartedBefore _ _ ∧ ∀ p ∈ s.awaitedProcess, _))
  | .restart => inferInstanceAs (Decidable (_ ∧ _))

/-- When the trainings were started. -/
def starts (s : Retraining S X W) : List DateTime := s.processes.map (·.startedAt)

/-- The starts are apart, and what the scheduler knows is not before them. -/
structure Spaced (others : String → Except PyError DateTime) (tcnRetrainDays : ℚ) (s : Retraining S X W) :
    Prop where
  apart : s.starts.Pairwise fun a b => timedelta tcnRetrainDays ≤ b.toTime - a.toTime
  marked : s.awaited = none → ∀ a ∈ s.starts, ∃ last,
    lastRun others "tcn_retrain" s.scheduler = some last ∧ a.toTime ≤ last.toTime
  latest : ∀ i, s.awaited = some i → ∃ a, s.starts[i]? = some a ∧ ∀ b ∈ s.starts, b.toTime ≤ a.toTime

/-- No process runs. -/
def Idle (processes : List (TrainingProcess S X W)) : Prop := ∀ p ∈ processes, p.status ≠ .running

/-- Only the awaited process runs, and the file has its best weights. -/
structure Alone (s : Retraining S X W) : Prop where
  awaited : ∀ i p, s.processes[i]? = some p → p.status = .running → s.awaited = some i
  saved : ∀ p, s.awaitedProcess = some p → p.status ≠ .failed →
    ∀ weights, p.progress.saved = some weights → s.modelFile = some (some weights)

variable {mark : Mark} {now : DateTime}

lemma timedelta_nonneg {days : ℚ} (h : 0 < days) : 0 ≤ timedelta days := by
  have hmono := Rounding.roundHalfEven_mono (p := (0 : ℤ)) (q := days * 86400 * 1000000)
    (by push_cast; positivity)
  rwa [Rounding.roundHalfEven_intCast] at hmono

lemma lastRun_markRan (m : Mark) (s : IntervalScheduler) :
    lastRun others "tcn_retrain" (s.markRan "tcn_retrain" m.now m.outcome) = some m.now := by
  apply lastRun_of_get?
  rw [state_markRan, Dict.get?_set_self]

lemma lastRun_markRan_regime (m : Mark) (s : IntervalScheduler) :
    lastRun others "tcn_retrain" (s.markRan "regime_refit" m.now m.outcome) =
      lastRun others "tcn_retrain" s := by
  rw [lastRun, lastRun, state_markRan, Dict.get?_set_of_ne _ (by decide)]

/-- The agent does not wait any more, and has marked the end. -/
lemma Spaced.markRan (h : s.Spaced others tcnRetrainDays) (hstarts : s'.starts = s.starts)
    (hlast : lastRun others "tcn_retrain" s'.scheduler = some mark.now)
    (hbefore : ∀ a ∈ s.starts, a.toTime ≤ mark.now.toTime) (hawaited : s'.awaited = none) :
    s'.Spaced others tcnRetrainDays where
  apart := hstarts ▸ h.apart
  marked := fun _ a ha => ⟨mark.now, hlast, hbefore a (hstarts ▸ ha)⟩
  latest := by
    intro i hi
    rw [hawaited] at hi
    cases hi

lemma Spaced.of_eq (h : s.Spaced others tcnRetrainDays) (hstarts : s'.starts = s.starts)
    (hlast : lastRun others "tcn_retrain" s'.scheduler = lastRun others "tcn_retrain" s.scheduler)
    (hawaited : s'.awaited = s.awaited) : s'.Spaced others tcnRetrainDays where
  apart := hstarts ▸ h.apart
  marked := by
    rw [hawaited, hstarts, hlast]
    exact h.marked
  latest := by
    rw [hawaited, hstarts]
    exact h.latest

/-- Nothing was started after a training that was waited for. -/
lemma Spaced.startedBefore (h : s.Spaced others tcnRetrainDays) (hget : s.awaitedProcess = some p)
    (hbefore : s.StartedBefore mark) : ∀ a ∈ s.starts, a.toTime ≤ mark.now.toTime := by
  obtain ⟨i, hawaited, hi⟩ := Option.bind_eq_some_iff.mp hget
  obtain ⟨a, ha, hall⟩ := h.latest i hawaited
  rw [starts, List.getElem?_map, hi] at ha
  intro b hb
  exact (hall b hb).trans (Option.some.inj ha ▸ hbefore p hget)

lemma Spaced.exists_awaited (h : s.Spaced others tcnRetrainDays) {i : ℕ} (hawaited : s.awaited = some i) :
    ∃ p, s.awaitedProcess = some p := by
  obtain ⟨a, ha, -⟩ := h.latest i hawaited
  rw [starts, List.getElem?_map, Option.map_eq_some_iff] at ha
  obtain ⟨p, hget, -⟩ := ha
  exact ⟨p, by rw [awaitedProcess, hawaited, Option.bind_some, hget]⟩

/-- When the training is due an interval has passed since every start. -/
lemma Spaced.apart_of_due (h : s.Spaced others tcnRetrainDays) (hawaited : s.awaited = none)
    (hdue : due others "tcn_retrain" tcnRetrainDays now s.scheduler = true) :
    ∀ a ∈ s.starts, timedelta tcnRetrainDays ≤ now.toTime - a.toTime := by
  intro a ha
  obtain ⟨last, hlast, hle⟩ := h.marked hawaited a ha
  have hinterval := ((due_of_lastRun hlast).mp hdue).2
  omega

lemma Spaced.retrainTcn (h : s.Spaced others tcnRetrainDays) (hawaited : s.awaited = none)
    (hdays : 0 < tcnRetrainDays) (hdue : due others "tcn_retrain" tcnRetrainDays now s.scheduler = true)
    (start : RetrainStart S X) (hstart : s.Orderly (.check now start)) :
    (s.retrainTcn now start).Spaced others tcnRetrainDays := by
  have hapart := h.apart_of_due hawaited hdue
  have hnow : ∀ a ∈ s.starts, a.toTime ≤ now.toTime := by
    intro a ha
    have hinterval := hapart a ha
    have hnonneg := timedelta_nonneg hdays
    omega
  cases start with
  | noScript mark =>
    exact h.markRan rfl (lastRun_markRan mark _) (fun a ha => (hnow a ha).trans hstart) hawaited
  | crashed mark =>
    exact h.markRan rfl (lastRun_markRan mark _) (fun a ha => (hnow a ha).trans hstart) hawaited
  | created training =>
    have hstarts : (s.retrainTcn now (.created training)).starts = s.starts ++ [now] := by
      simp [Retraining.retrainTcn, starts, TrainingProcess.start]
    refine ⟨?_, fun hnone => ?_, fun i hi => ?_⟩
    · rw [hstarts, List.pairwise_append]
      refine ⟨h.apart, List.pairwise_singleton _ _, fun a ha b hb => ?_⟩
      rw [List.mem_singleton.mp hb]
      exact hapart a ha
    · cases hnone
    · obtain rfl : s.processes.length = i := Option.some.inj hi
      refine ⟨now, ?_, fun b hb => ?_⟩
      · rw [hstarts, List.getElem?_append_right (by simp [starts])]
        simp [starts]
      · rw [hstarts] at hb
        rcases List.mem_append.mp hb with hold | hnew
        · exact hnow b hold
        · rw [List.mem_singleton.mp hnew]

lemma starts_set {i : ℕ} {p' : TrainingProcess S X W} (hget : s.processes[i]? = some p)
    (hp : p'.startedAt = p.startedAt) (file : ModelFile W) :
    starts { s with processes := s.processes.set i p', modelFile := file } = s.starts := by
  rw [starts, List.set_eq_modify]
  apply List.map_modify_of_eq
  intro q hq
  rw [Option.some.inj (hq.symm.trans hget)]
  exact hp

lemma starts_kill (s : Retraining S X W) (i : ℕ) :
    starts { s with processes := s.processes.modify i TrainingProcess.kill } = s.starts :=
  List.map_modify_of_eq fun p _ => (continues_kill p).startedAt

lemma Spaced.step (h : s.Spaced others tcnRetrainDays) (hsound : s.Sound t cfg) (event : RetrainEvent S X)
    (horderly : s.Orderly event) :
    (s.step t cfg others tcnRetrainDays event).Spaced others tcnRetrainDays := by
  cases event with
  | check now start =>
    rw [Retraining.step]
    split_ifs with hdue
    · exact h.retrainTcn hdue.1 hdue.2.1 hdue.2.2 start horderly
    · exact h
  | process i action =>
    simp only [Retraining.step]
    split
    · exact h
    · next p hget =>
      split_ifs with hrunning
      · have hact := (hsound.processes p (List.mem_of_getElem? hget)).act hrunning s.modelFile action rfl
        exact h.of_eq (starts_set hget hact.2.1.startedAt _) rfl rfl
      · exact h
  | communicated mark =>
    simp only [Retraining.step]
    split
    · exact h
    · next p hget =>
      split_ifs
      · exact h
      · exact h.markRan rfl (lastRun_markRan mark _) (h.startedBefore hget horderly) rfl
  | timedOut first second =>
    simp only [Retraining.step]
    split
    · exact h
    · next i hawaited =>
      obtain ⟨p, hp⟩ := h.exists_awaited hawaited
      exact h.markRan (starts_kill s i) (lastRun_markRan second _) (h.startedBefore hp horderly) rfl
  | crashed mark =>
    rw [Retraining.step]
    split_ifs with hnone
    · exact h
    · obtain ⟨i, hawaited⟩ := Option.ne_none_iff_exists'.mp hnone
      obtain ⟨p, hp⟩ := h.exists_awaited hawaited
      exact h.markRan rfl (lastRun_markRan mark _) (h.startedBefore hp horderly.1) rfl
  | refitted mark =>
    rw [Retraining.step]
    split_ifs
    · exact h.of_eq rfl (lastRun_markRan_regime mark _) rfl
    · exact h
  | restart =>
    refine h.of_eq rfl ?_ horderly.1.symm
    rw [Retraining.step, lastRun, lastRun, horderly.2]

/-- An epoch that is not the best one leaves the best weights what they were. -/
lemma saved_nextEpoch (h : ¬ Saves (p.nextEpoch t)) : (p.nextEpoch t).saved = p.progress.saved := by
  dsimp only [Saves, nextEpoch, Trainer.step] at h ⊢
  split_ifs at h ⊢ with hlt
  · exact absurd rfl h
  · rfl

/-- A process that has the file for itself keeps its best weights in it. -/
lemma act_saved {file : ModelFile W} {action : ProcessAction}
    (h : ∀ weights, p.progress.saved = some weights → file = some (some weights)) :
    (p.act t cfg file action).1.status ≠ .failed →
      ∀ weights, (p.act t cfg file action).1.progress.saved = some weights →
        (p.act t cfg file action).2 = some (some weights) := by
  cases action with
  | epoch =>
    intro _ weights
    rw [TrainingProcess.act]
    split_ifs with hover hsaves
    · exact h weights
    · exact fun hsaved => congrArg (Option.map some) hsaved
    · show (p.nextEpoch t).saved = _ → _
      rw [saved_nextEpoch hsaves]
      exact h weights
  | exit =>
    intro _ weights
    rw [TrainingProcess.act]
    split_ifs <;> exact h weights
  | fail => exact fun hfailed => absurd rfl hfailed
  | failSaving =>
    rw [TrainingProcess.act]
    split_ifs
    · exact fun hfailed => absurd rfl hfailed
    · exact fun _ => h

/-- No process runs, and none is waited for. -/
lemma alone_of_none (hidle : Idle s.processes) (hawaited : s.awaited = none) : s.Alone where
  awaited := fun i p hget hrunning => absurd hrunning (hidle p (List.mem_of_getElem? hget))
  saved := by
    intro p hp
    rw [awaitedProcess, hawaited] at hp
    cases hp

/-- When the awaited process does not run, none does. -/
lemma Alone.idle (h : s.Alone)
    (hended : ∀ p, s.awaitedProcess = some p → p.status ≠ .running) : Idle s.processes := by
  intro p hmem hrunning
  obtain ⟨i, hget⟩ := List.mem_iff_getElem?.mp hmem
  refine hended p ?_ hrunning
  rw [awaitedProcess, h.awaited i p hget hrunning, Option.bind_some, hget]

lemma Alone.retrainTcn (h : s.Alone) (hawaited : s.awaited = none) (start : RetrainStart S X) :
    (s.retrainTcn now start).Alone := by
  have hidle := h.idle fun p hp => by rw [awaitedProcess, hawaited] at hp; cases hp
  cases start with
  | noScript mark => exact alone_of_none hidle hawaited
  | crashed mark => exact alone_of_none hidle hawaited
  | created training =>
    refine ⟨fun i p hget hrunning => ?_, fun p hp _ weights hsaved => ?_⟩
    · simp only [Retraining.retrainTcn] at hget ⊢
      rcases lt_or_ge i s.processes.length with hlt | hge
      · rw [List.getElem?_append_left hlt] at hget
        exact absurd hrunning (hidle p (List.mem_of_getElem? hget))
      · have hi := (List.getElem?_eq_some_iff.mp hget).1
        rw [List.length_append, List.length_singleton] at hi
        exact congrArg some (by omega)
    · simp only [Retraining.retrainTcn, awaitedProcess, Option.bind_some] at hp
      rw [List.getElem?_concat_length] at hp
      obtain rfl := Option.some.inj hp
      cases hsaved

lemma Alone.process {i : ℕ} {action : ProcessAction} (h : s.Alone) (hget : s.processes[i]? = some p)
    (hrunning : p.status = .running) :
    Alone { s with
      processes := s.processes.set i (p.act t cfg s.modelFile action).1
      modelFile := (p.act t cfg s.modelFile action).2 } := by
  have hi := (List.getElem?_eq_some_iff.mp hget).1
  have hawaited := h.awaited i p hget hrunning
  have hp : s.awaitedProcess = some p := by rw [awaitedProcess, hawaited, Option.bind_some, hget]
  refine ⟨fun j q hq hqrunning => ?_, fun q hq => ?_⟩
  · by_cases hij : i = j
    · exact hij ▸ hawaited
    · rw [List.getElem?_set_ne hij] at hq
      exact h.awaited j q hq hqrunning
  · simp only [awaitedProcess, hawaited, Option.bind_some, List.getElem?_set_self hi] at hq
    obtain rfl := Option.some.inj hq
    exact act_saved (h.saved p hp (by rw [hrunning]; decide))

lemma Alone.kill {i : ℕ} (h : s.Alone) (hawaited : s.awaited = some i) :
    Idle (s.processes.modify i TrainingProcess.kill) := by
  intro p hmem hrunning
  obtain ⟨j, hget⟩ := List.mem_iff_getElem?.mp hmem
  rw [List.getElem?_modify] at hget
  split_ifs at hget with hij
  · obtain ⟨q, -, rfl⟩ := Option.map_eq_some_iff.mp hget
    rw [TrainingProcess.kill] at hrunning
    split_ifs at hrunning with hq
    exact hq hrunning
  · rw [id_map'] at hget
    exact hij (Option.some.inj (hawaited.symm.trans (h.awaited j p hget hrunning)))

lemma Alone.step (h : s.Alone) (event : RetrainEvent S X) (horderly : s.Orderly event) :
    (s.step t cfg others tcnRetrainDays event).Alone := by
  cases event with
  | check now start =>
    rw [Retraining.step]
    split_ifs with hdue
    · exact h.retrainTcn hdue.1 start
    · exact h
  | process i action =>
    simp only [Retraining.step]
    split
    · exact h
    · next p hget =>
      split_ifs with hrunning
      · exact h.process hget hrunning
      · exact h
  | communicated mark =>
    simp only [Retraining.step]
    split
    · exact h
    · next p hget =>
      split_ifs with hrunning
      · exact h
      · have hended : ∀ q, s.awaitedProcess = some q → q.status ≠ .running := by
          intro q hq
          obtain rfl := Option.some.inj (hget.symm.trans hq)
          exact hrunning
        exact alone_of_none (h.idle hended) rfl
  | timedOut first second =>
    simp only [Retraining.step]
    split
    · exact h
    · next i hawaited => exact alone_of_none (h.kill hawaited) rfl
  | crashed mark =>
    rw [Retraining.step]
    split_ifs
    · exact h
    · exact alone_of_none (h.idle horderly.2) rfl
  | refitted mark =>
    rw [Retraining.step]
    split_ifs
    · exact ⟨h.awaited, h.saved⟩
    · exact h
  | restart =>
    refine alone_of_none (h.idle fun p hp => ?_) rfl
    rw [awaitedProcess, horderly.1] at hp
    cases hp

/-- As long as nothing is left behind: only the awaited training runs, the starts are the scheduled interval
apart, and when a training has succeeded its best weights, as `train_tcn` returns them, are in use. -/
theorem retraining_spaced (t : Trainer S X W) (cfg : TrainConfig) (others : String → Except PyError DateTime)
    (tcnRetrainDays : ℚ) (events : List (RetrainEvent S X))
    (horderly : Along (step t cfg others tcnRetrainDays) {} (fun _ s event => s.Orderly event) events) :
    let s := after t cfg others tcnRetrainDays events
    (∀ i p, s.processes[i]? = some p → p.status = .running → s.awaited = some i) ∧
    (s.processes.Pairwise fun p q => timedelta tcnRetrainDays ≤ q.startedAt.toTime - p.startedAt.toTime) ∧
    ∀ p, s.awaitedProcess = some p → p.status = .succeeded →
      ∀ weights, (t.trainTcn p.training.trainLoader p.training.valLoader cfg p.training.model).saved =
          some weights →
        ∀ mark, (s.step t cfg others tcnRetrainDays (.communicated mark)).tcnModel = some weights := by
  have hinv : (after t cfg others tcnRetrainDays events).Spaced others tcnRetrainDays ∧
      (after t cfg others tcnRetrainDays events).Alone := by
    induction events using List.reverseRecOn with
    | nil =>
      refine ⟨⟨List.Pairwise.nil, fun _ a ha => ?_, fun i hi => ?_⟩, alone_of_none (fun p hp => ?_) rfl⟩
      · cases ha
      · cases hi
      · cases hp
    | append_singleton events event ih =>
      obtain ⟨hbefore, hevent⟩ := along_concat.mp horderly
      obtain ⟨hspaced, halone⟩ := ih hbefore
      rw [after, run_concat]
      exact ⟨hspaced.step (sound_after events) event hevent, halone.step event hevent⟩
  refine ⟨hinv.2.awaited, List.pairwise_map.mp hinv.1.apart, fun p hp hsucceeded weights hweights mark => ?_⟩
  obtain ⟨i, -, hget⟩ := Option.bind_eq_some_iff.mp hp
  have hsound : (after t cfg others tcnRetrainDays events).Sound t cfg := sound_after events
  have hreturns := (hsound.processes p (List.mem_of_getElem? hget)).eq_trainTcn hsucceeded
  have hfile := hinv.2.saved p hp (by rw [hsucceeded]; decide) weights (hreturns ▸ hweights)
  simp [Retraining.step, hp, Retraining.communicated, markRan, hsucceeded, hfile, reloadTcnModel]

/-- The samples of one batch, for both loaders. -/
def oneBatch (samples : List (ℚ × ℚ)) : Training ℚ ℚ where
  model := 0
  trainLoader _ := [samples]
  valLoader := [samples]

/-- A week between two trainings; the agent starts anew after the first one. The second one is not started
before the week has passed, and its weights are in the file before they are in use. -/
def twoWeeks : List (RetrainEvent ℚ ℚ) :=
  [.check (january 1) (.created (oneBatch [(1, 1)])), .process 0 .epoch, .process 0 .exit,
    .communicated ⟨january 2, .written⟩, .restart, .check (january 8) (.created (oneBatch [(1, 0)])),
    .check (january 9) (.created (oneBatch [(1, 0)])), .process 1 .epoch, .process 1 .exit]

theorem retraining_spaced_twoWeeks :
    let s := after Trainer.halving ⟨1, 10⟩ (fun _ => .error .valueError) 7 twoWeeks
    (∀ i p, s.processes[i]? = some p → p.status = .running → s.awaited = some i) ∧
    (s.processes.Pairwise fun p q => timedelta 7 ≤ q.startedAt.toTime - p.startedAt.toTime) ∧
    ∀ p, s.awaitedProcess = some p → p.status = .succeeded →
      ∀ weights, (Trainer.halving.trainTcn p.training.trainLoader p.training.valLoader ⟨1, 10⟩
          p.training.model).saved = some weights →
        ∀ mark, (s.step Trainer.halving ⟨1, 10⟩ (fun _ => .error .valueError) 7
          (.communicated mark)).tcnModel = some weights := by
  apply retraining_spaced
  repeat refine along_cons.mpr ⟨by decide +kernel, ?_⟩
  exact along_nil

end Orderly

end Retraining

end PolyCortex
