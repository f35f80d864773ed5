import Mathlib.Data.List.Induction
import PolyCortex.Numeric.PyFloat

/-!
# Training the ensemble

The loop of `train_tcn` over its epochs, with early stopping. What it returns is settled by the training
that nothing stops: the losses are the first ones of that training, the best epoch is the first one of
the least loss, the weights on disk are those of the best epoch, and the loop stops at the first epoch
that is `patience` epochs after the best one (`trainTcn_spec`).
-/

namespace PolyCortex

open PyFloat

/-- What torch does for the loop: one optimizer step on a batch with the loss before it, the prediction in
evaluation mode, the step of the scheduler, and the `state_dict` of the model. -/
structure Trainer (S X W : Type) where
  trainBatch : S → List (X × ℚ) → S × PyFloat
  predict : S → X → PyFloat
  schedule : S → PyFloat → S
  stateDict : S → W

structure TrainConfig where
  epochs : ℕ := 50
  patience : ℕ := 10

/-- The variables of the loop, with the file at `save_path`. -/
structure TrainState (S W : Type) where
  state : S
  trainLosses : List PyFloat := []
  valLosses : List PyFloat := []
  bestValLoss : PyFloat := infinite false
  bestEpoch : ℕ := 0
  epochsNoImprove : ℕ := 0
  saved : Option W := none

section Losses

/-- `((predicted_prob - targets) ** 2).mean()`. -/
def brierLoss (pairs : List (PyFloat × ℚ)) : PyFloat :=
  (pairs.map fun (prob, target) => (prob - finite target) * (prob - finite target)).foldl (· + ·) 0 /
    finite pairs.length

/-- The losses of the batches, weighted by their sizes, over `max(n, 1)`. -/
def averageLoss (losses : List (PyFloat × ℕ)) : PyFloat :=
  losses.foldl (fun total (loss, size) => total + loss * finite size) 0 /
    finite (max (losses.map (·.2)).sum 1 : ℕ)

end Losses

namespace Trainer

variable {S X W : Type} (t : Trainer S X W)

/-- The batches of one epoch of training. -/
def trainEpoch (s : S) : List (List (X × ℚ)) → S × List (PyFloat × ℕ)
  | [] => (s, [])
  | batch :: batches =>
    let (s', loss) := t.trainBatch s batch
    let (s'', losses) := trainEpoch s' batches
    (s'', (loss, batch.length) :: losses)

def valLoss (valLoader : List (List (X × ℚ))) (s : S) : PyFloat :=
  averageLoss (valLoader.map fun batch =>
    (brierLoss (batch.map fun (features, target) => (t.predict s features, target)), batch.length))

variable (trainLoader : ℕ → List (List (X × ℚ))) (valLoader : List (List (X × ℚ)))

/-- An epoch, up to the comparison with the best loss: the loss of training and of validation, and the
state that is left. The train loader gives other batches in each epoch. -/
def epoch (s : S) (epoch : ℕ) : PyFloat × PyFloat × S :=
  let (trained, losses) := t.trainEpoch s (trainLoader epoch)
  let avgVal := t.valLoss valLoader trained
  (averageLoss losses, avgVal, t.schedule trained avgVal)

/-- One pass of the loop. -/
def step (p : TrainState S W) (n : ℕ) : TrainState S W :=
  let (avgTrain, avgVal, s) := t.epoch trainLoader valLoader p.state n
  let next := { p with
    state := s
    trainLosses := p.trainLosses ++ [avgTrain]
    valLosses := p.valLosses ++ [avgVal] }
  if avgVal < p.bestValLoss then
    { next with bestValLoss := avgVal, bestEpoch := n, epochsNoImprove := 0, saved := some (t.stateDict s) }
  else
    { next with epochsNoImprove := p.epochsNoImprove + 1 }

/-- The loop over the epochs that are left. -/
def loop (patience : ℕ) : List ℕ → TrainState S W → TrainState S W
  | [], p => p
  | n :: rest, p =>
    let next := t.step trainLoader valLoader p n
    if patience ≤ next.epochsNoImprove then next else loop patience rest next

/-- `train_tcn`; `epoch in range(1, epochs + 1)`. -/
def trainTcn (cfg : TrainConfig) (s : S) : TrainState S W :=
  t.loop trainLoader valLoader cfg.patience (List.range' 1 cfg.epochs) { state := s }

/-! ### The training that nothing stops -/

/-- The state after `n` epochs. -/
def after (s : S) : ℕ → S
  | 0 => s
  | n + 1 => (t.epoch trainLoader valLoader (after s n) (n + 1)).2.2

/-- The losses of the first `n` epochs. -/
def losses (s : S) (n : ℕ) : List PyFloat :=
  (List.range n).map fun k =>
    (t.epoch trainLoader valLoader (t.after trainLoader valLoader s k) (k + 1)).2.1

def trainingLosses (s : S) (n : ℕ) : List PyFloat :=
  (List.range n).map fun k => (t.epoch trainLoader valLoader (t.after trainLoader valLoader s k) (k + 1)).1

end Trainer

/-- Epoch `b` is the first one of the least loss, which is `loss`; it is zero, with an infinite loss, when
there is no loss below infinity. -/
def IsBest (losses : List PyFloat) (b : ℕ) (loss : PyFloat) : Prop :=
  (∀ v ∈ losses, ¬ v < loss) ∧ (∀ v ∈ losses.take (b - 1), ¬ v ≤ loss) ∧
    (b = 0 ∧ loss = infinite false ∨ 0 < b ∧ losses[b - 1]? = some loss ∧ loss < infinite false)

section Best

variable {losses : List PyFloat} {b : ℕ} {loss u v : PyFloat}

lemma isBest_nil : IsBest [] 0 (infinite false) := by
  simp [IsBest]

lemma IsBest.le_length (h : IsBest losses b loss) : b ≤ losses.length := by
  rcases h.2.2 with ⟨rfl, -⟩ | ⟨-, hget, -⟩
  · exact Nat.zero_le _
  · have hlt := (List.getElem?_eq_some_iff.mp hget).1
    omega

/-- A loss that is less than the best one is the best one, and comes after all others. -/
lemma IsBest.concat_lt (h : IsBest losses b loss) (hlt : v < loss) :
    IsBest (losses ++ [v]) (losses.length + 1) v := by
  have hearlier : ∀ u ∈ losses, ¬ u ≤ v := fun u hu hle => h.1 u hu (PyFloat.lt_of_le_of_lt hle hlt)
  refine ⟨fun u hu => ?_, fun u hu => ?_, Or.inr ⟨Nat.succ_pos _, ?_, ?_⟩⟩
  · rcases List.mem_append.mp hu with hu | hu
    · exact fun huv => hearlier u hu (PyFloat.le_of_lt huv)
    · rw [List.mem_singleton.mp hu]
      exact PyFloat.lt_irrefl v
  · rw [Nat.add_sub_cancel, List.take_left'] at hu
    · exact hearlier u hu
    · rfl
  · simp
  · rcases h.2.2 with ⟨-, rfl⟩ | ⟨-, -, hfinite⟩
    · exact hlt
    · exact PyFloat.lt_of_le_of_lt (PyFloat.le_of_lt hlt) hfinite

/-- Another loss leaves the best one what it was. -/
lemma IsBest.concat_not_lt (h : IsBest losses b loss) (hlt : ¬ v < loss) :
    IsBest (losses ++ [v]) b loss := by
  have hle := h.le_length
  refine ⟨fun u hu => ?_, ?_, ?_⟩
  · rcases List.mem_append.mp hu with hu | hu
    · exact h.1 u hu
    · rwa [List.mem_singleton.mp hu]
  · rw [List.take_append_of_le_length (by omega)]
    exact h.2.1
  · rcases h.2.2 with hnone | ⟨hpos, hget, hfinite⟩
    · exact Or.inl hnone
    · refine Or.inr ⟨hpos, ?_, hfinite⟩
      rwa [List.getElem?_append_left (by omega)]

end Best

/-! ### The loop -/

namespace Trainer

variable {S X W : Type} {t : Trainer S X W} {trainLoader : ℕ → List (List (X × ℚ))}
  {valLoader : List (List (X × ℚ))} {s : S} {n : ℕ} {p : TrainState S W}

variable (t trainLoader valLoader s)

@[simp] lemma length_losses (n : ℕ) : (t.losses trainLoader valLoader s n).length = n := by
  simp [losses]

lemma losses_succ (n : ℕ) :
    t.losses trainLoader valLoader s (n + 1) = t.losses trainLoader valLoader s n ++
      [(t.epoch trainLoader valLoader (t.after trainLoader valLoader s n) (n + 1)).2.1] := by
  simp [losses, List.range_succ]

lemma trainingLosses_succ (n : ℕ) :
    t.trainingLosses trainLoader valLoader s (n + 1) = t.trainingLosses trainLoader valLoader s n ++
      [(t.epoch trainLoader valLoader (t.after trainLoader valLoader s n) (n + 1)).1] := by
  simp [trainingLosses, List.range_succ]

/-- The variables of the loop after `n` epochs of the training that nothing stops. -/
structure Follows (n : ℕ) (p : TrainState S W) : Prop where
  state : p.state = t.after trainLoader valLoader s n
  trainLosses : p.trainLosses = t.trainingLosses trainLoader valLoader s n
  valLosses : p.valLosses = t.losses trainLoader valLoader s n
  best : IsBest p.valLosses p.bestEpoch p.bestValLoss
  noImprove : p.epochsNoImprove = n - p.bestEpoch
  saved : p.saved = if p.bestEpoch = 0 then none
    else some (t.stateDict (t.after trainLoader valLoader s p.bestEpoch))

variable {t trainLoader valLoader s}

lemma Follows.start : Follows t trainLoader valLoader s 0 { state := s } where
  state := rfl
  trainLosses := rfl
  valLosses := rfl
  best := isBest_nil
  noImprove := rfl
  saved := rfl

/-- One pass of the loop is one epoch of the training. -/
lemma Follows.step (h : Follows t trainLoader valLoader s n p) :
    Follows t trainLoader valLoader s (n + 1) (t.step trainLoader valLoader p (n + 1)) := by
  have hlength : p.valLosses.length = n := by rw [h.valLosses, length_losses]
  have hbest := h.best.le_length
  have hlosses := t.losses_succ trainLoader valLoader s n
  have htraining := t.trainingLosses_succ trainLoader valLoader s n
  rw [← h.state, ← h.valLosses] at hlosses
  rw [← h.state, ← h.trainLosses] at htraining
  have hafter : (t.epoch trainLoader valLoader p.state (n + 1)).2.2 =
      t.after trainLoader valLoader s (n + 1) := by rw [after, h.state]
  dsimp only [Trainer.step]
  split_ifs with hlt
  · exact {
      state := hafter
      trainLosses := htraining.symm
      valLosses := hlosses.symm
      best := by
        have hnext := h.best.concat_lt hlt
        rwa [hlength] at hnext
      noImprove := (Nat.sub_self _).symm
      saved := by rw [hafter, if_neg n.succ_ne_zero] }
  · exact {
      state := hafter
      trainLosses := htraining.symm
      valLosses := hlosses.symm
      best := h.best.concat_not_lt hlt
      noImprove := by
        show p.epochsNoImprove + 1 = n + 1 - p.bestEpoch
        rw [h.noImprove]
        omega
      saved := h.saved }

/-- The loop goes on as long as the best epoch is less than `patience` epochs ago. -/
lemma Follows.loop (patience k : ℕ) (h : Follows t trainLoader valLoader s n p) :
    ∃ m, n ≤ m ∧ m ≤ n + k ∧
      Follows t trainLoader valLoader s m (t.loop trainLoader valLoader patience (List.range' (n + 1) k) p) ∧
      (m = n + k ∨ n < m ∧
        patience ≤ (t.loop trainLoader valLoader patience (List.range' (n + 1) k) p).epochsNoImprove) ∧
      ∀ i, n < i → i < m →
        ∃ b loss, IsBest (t.losses trainLoader valLoader s i) b loss ∧ i - b < patience := by
  induction k generalizing n p with
  | zero => exact ⟨n, le_rfl, le_rfl, h, Or.inl rfl, fun i hni hin => absurd hni hin.not_gt⟩
  | succ k ih =>
    have hstep := h.step
    rw [List.range'_succ, Trainer.loop]
    split_ifs with hstop
    · exact ⟨n + 1, n.le_succ, by omega, hstep, Or.inr ⟨n.lt_succ_self, hstop⟩, by omega⟩
    · obtain ⟨m, hle, hmost, hfollows, hend, hbetween⟩ := ih hstep
      refine ⟨m, by omega, by omega, hfollows, ?_, fun i hni him => ?_⟩
      · rcases hend with rfl | ⟨hlt, hpatience⟩
        · exact Or.inl (by omega)
        · exact Or.inr ⟨by omega, hpatience⟩
      · rcases Nat.lt_or_eq_of_le hni with hlater | rfl
        · exact hbetween i hlater him
        · refine ⟨_, _, hstep.valLosses ▸ hstep.best, ?_⟩
          rw [← hstep.noImprove]
          exact not_le.mp hstop

/-- The result of `train_tcn`, against the training that nothing stops. The weights on disk are those of
the first epoch of the least validation loss; the loop ends after all epochs or with the first one that
is `patience` epochs after the best one so far. -/
theorem trainTcn_spec (t : Trainer S X W) (trainLoader : ℕ → List (List (X × ℚ)))
    (valLoader : List (List (X × ℚ))) (cfg : TrainConfig) (s : S) :
    let r := t.trainTcn trainLoader valLoader cfg s
    let n := r.valLosses.length
    n ≤ cfg.epochs ∧ r.valLosses = t.losses trainLoader valLoader s n ∧
      r.trainLosses = t.trainingLosses trainLoader valLoader s n ∧
      IsBest r.valLosses r.bestEpoch r.bestValLoss ∧
      r.saved = (if r.bestEpoch = 0 then none
        else some (t.stateDict (t.after trainLoader valLoader s r.bestEpoch))) ∧
      (n = cfg.epochs ∨ cfg.patience ≤ n - r.bestEpoch) ∧
      ∀ i, 0 < i → i < n →
        ∃ b loss, IsBest (t.losses trainLoader valLoader s i) b loss ∧ i - b < cfg.patience := by
  intro r n
  have hstart : Follows t trainLoader valLoader s 0 { state := s } := Follows.start
  obtain ⟨m, -, hmost, hfollows, hend, hbetween⟩ := hstart.loop cfg.patience cfg.epochs
  have hn : n = m := (congrArg List.length hfollows.valLosses).trans (length_losses _ _ _ _ _)
  rw [Nat.zero_add] at hmost hend
  subst hn
  refine ⟨hmost, hfollows.valLosses, hfollows.trainLosses, hfollows.best, hfollows.saved, ?_, hbetween⟩
  rcases hend with hall | ⟨-, hstop⟩
  · exact Or.inl hall
  · exact Or.inr (hfollows.noImprove ▸ hstop)

/-! ### The batches of the validation -/

/-- The squared errors of predictions that are numbers. -/
def squaredErrors (f : X → ℚ) (samples : List (X × ℚ)) : ℚ :=
  (samples.map fun (features, target) => (f features - target) ^ 2).sum

lemma foldl_add_finite (qs : List ℚ) (q : ℚ) :
    (qs.map finite).foldl (· + ·) (finite q) = finite (q + qs.sum) := by
  induction qs generalizing q with
  | nil => simp
  | cons first qs ih =>
    rw [List.map_cons, List.foldl_cons, finite_add, ih, List.sum_cons, add_assoc]

lemma brierLoss_eq {f : X → ℚ} (hf : ∀ x, t.predict s x = finite (f x)) {batch : List (X × ℚ)}
    (hne : batch ≠ []) :
    brierLoss (batch.map fun (features, target) => (t.predict s features, target)) =
      finite (squaredErrors f batch / batch.length) := by
  have hlength : (batch.length : ℚ) ≠ 0 := by simpa using hne
  have hsquares : (batch.map fun (features, target) => (t.predict s features, target)).map
      (fun (prob, target) => (prob - finite target) * (prob - finite target)) =
        (batch.map fun (features, target) => (f features - target) ^ 2).map finite := by
    simp [hf, sq]
  rw [brierLoss, hsquares, List.length_map]
  show (List.foldl _ (finite 0) _) / _ = _
  rw [foldl_add_finite, zero_add, finite_div _ hlength, squaredErrors]

/-- However the samples are cut into batches, the loss is the mean over all samples. -/
lemma valLoss_eq {f : X → ℚ} (hf : ∀ x, t.predict s x = finite (f x)) {batches : List (List (X × ℚ))}
    (hne : ∀ batch ∈ batches, batch ≠ []) :
    t.valLoss batches s =
      finite (squaredErrors f batches.flatten / (max batches.flatten.length 1 : ℕ)) := by
  have htotal : ∀ q, (batches.map fun batch =>
      (brierLoss (batch.map fun (features, target) => (t.predict s features, target)),
        batch.length)).foldl (fun total (loss, size) => total + loss * finite size) (finite q) =
      finite (q + squaredErrors f batches.flatten) := by
    induction batches with
    | nil => simp [squaredErrors]
    | cons batch batches ih =>
      intro q
      rw [List.forall_mem_cons] at hne
      have hlength : (batch.length : ℚ) ≠ 0 := by simpa using hne.1
      rw [List.map_cons, List.foldl_cons, brierLoss_eq hf hne.1]
      dsimp only
      rw [finite_mul, finite_add, div_mul_cancel₀ _ hlength, ih hne.2]
      simp [squaredErrors, add_assoc]
  have hsizes : ((batches.map fun batch =>
      (brierLoss (batch.map fun (features, target) => (t.predict s features, target)),
        batch.length)).map (·.2)).sum = batches.flatten.length := by
    rw [List.map_map, List.length_flatten]
    rfl
  rw [valLoss, averageLoss, hsizes]
  show (List.foldl _ (finite 0) _) / _ = _
  rw [htotal, zero_add, finite_div _ (by positivity)]

/-- The result does not depend on how the validation samples are cut into batches, as long as the model
predicts numbers. -/
theorem trainTcn_batches (t : Trainer S X W) (trainLoader : ℕ → List (List (X × ℚ)))
    (valLoader valLoader' : List (List (X × ℚ))) (cfg : TrainConfig) (s : S)
    (hfinite : ∀ s x, (t.predict s x).isFinite) (hne : ∀ batch ∈ valLoader, batch ≠ [])
    (hne' : ∀ batch ∈ valLoader', batch ≠ []) (hperm : valLoader.flatten.Perm valLoader'.flatten) :
    t.trainTcn trainLoader valLoader cfg s = t.trainTcn trainLoader valLoader' cfg s := by
  have hval : t.valLoss valLoader = t.valLoss valLoader' := by
    funext s
    have hf : ∀ x, t.predict s x = finite ((t.predict s x).toRat?.getD 0) := by
      intro x
      have hx := hfinite s x
      revert hx
      cases t.predict s x <;> simp [isFinite, toRat?]
    rw [valLoss_eq hf hne, valLoss_eq hf hne', hperm.length_eq, squaredErrors, squaredErrors,
      (hperm.map _).sum_eq]
  have hstep : t.step trainLoader valLoader = t.step trainLoader valLoader' := by
    funext p n
    rw [step, step, epoch, epoch, hval]
  have hloop : ∀ ns p, t.loop trainLoader valLoader cfg.patience ns p =
      t.loop trainLoader valLoader' cfg.patience ns p := by
    intro ns
    induction ns with
    | nil => exact fun _ => rfl
    | cons n ns ih =>
      intro p
      rw [loop, loop, hstep, ih]
  exact hloop _ _

/-- A model of one weight, which a batch moves halfway to its first target. -/
def halving : Trainer ℚ ℚ ℚ where
  trainBatch weight batch :=
    let target := (batch.map (·.2)).headD 0
    ((weight + target) / 2, finite ((weight - target) ^ 2))
  predict weight x := finite (weight * x)
  schedule weight _ := weight
  stateDict := id

theorem trainTcn_batches_halving :
    halving.trainTcn (fun _ => [[(1, 1)]]) [[(1, 1), (2, 1)], [(3, 0)]] ⟨8, 3⟩ 0 =
      halving.trainTcn (fun _ => [[(1, 1)]]) [[(3, 0)], [(1, 1)], [(2, 1)]] ⟨8, 3⟩ 0 :=
  trainTcn_batches halving _ _ _ ⟨8, 3⟩ 0 (fun _ _ => rfl) (by simp) (by simp) (by decide)

/-- Here the first epoch is the best one, and three more are run. -/
example : ((halving.trainTcn (fun _ => [[(1, 1)]]) [[(1, 1), (2, 1)], [(3, 0)]] ⟨8, 3⟩ 0).bestEpoch,
    (halving.trainTcn (fun _ => [[(1, 1)]]) [[(1, 1), (2, 1)], [(3, 0)]] ⟨8, 3⟩ 0).valLosses.length) =
      (1, 4) := by decide +kernel

end Trainer
end PolyCortex
