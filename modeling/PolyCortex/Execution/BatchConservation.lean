import PolyCortex.Coroutine.Ghost
import PolyCortex.Execution.Batch

/-!
# Batching neither loses nor repeats orders

Next to each other, `flush` calls, `add` and `clear` move orders from the pending ones to the cleared and
the submitted ones, and no order gets another place. While a batch is on its way to the exchange its
orders are not counted yet: its size is the ghost value of the task that has submitted it.
-/

namespace PolyCortex

open Coroutine

variable {config : BatchConfig} {s s' : BatchRun}

namespace BatchRun

/-- All orders: those that have left, in the order in which they have, and then the pending ones. -/
def orders (s : BatchRun) : List PendingOrder :=
  s.removals.flatMap Removal.orders ++ s.manager.pending

/-- The number of orders in submitted batches. -/
def batched (s : BatchRun) : ℤ := (s.batches.map List.length).sum

/-- The orders in submitted batches that are not counted yet. -/
def owed (s : BatchRun) : ℤ := s.batched - s.manager.totalSubmitted

/-- The batches have a size that the exchange takes, and the statistics add up. -/
structure Sound (s : BatchRun) : Prop where
  sizes : ∀ batch ∈ s.batches, 1 ≤ batch.length ∧ batch.length ≤ 15
  counts : s.manager.totalSucceeded + s.manager.totalFailed = s.manager.totalSubmitted

lemma batches_sublist_orders (s : BatchRun) : s.batches.flatten.Sublist s.orders := by
  have hbatches : s.batches.flatten.Sublist (s.removals.flatMap Removal.orders) := by
    rw [batches]
    induction s.removals with
    | nil => simp
    | cons removal removals ih =>
      cases removal with
      | cleared orders =>
        simp only [List.filterMap_cons, Removal.batch?, List.flatMap_cons]
        exact ih.trans (List.sublist_append_right _ _)
      | batch orders =>
        simp only [List.filterMap_cons, Removal.batch?, List.flatMap_cons, List.flatten_cons]
        exact ih.append_left _
  exact hbatches.trans (List.sublist_append_left _ _)

/-- An update that moves no order and leaves the number of uncounted ones as it may. -/
structure Moves (owing owing' : ℤ) (s s' : BatchRun) : Prop where
  orders : s'.orders = s.orders
  sound : s.Sound → s'.Sound
  owed : s'.owed - s.owed = owing' - owing

lemma moves_clear (s : BatchRun) : Moves 0 0 s s.clear where
  orders := by simp [BatchRun.orders, clear, BatchOrderManager.clear, Removal.orders]
  sound hs :=
    { sizes := by simpa [batches, clear, Removal.batch?] using hs.sizes
      counts := hs.counts }
  owed := by
    have hbatches : s.clear.batches = s.batches := by simp [batches, clear, Removal.batch?]
    have hcounted : s.clear.manager.totalSubmitted = s.manager.totalSubmitted := rfl
    simp [BatchRun.owed, batched, hbatches, hcounted]

lemma moves_refl (owing : ℤ) (s : BatchRun) : Moves owing owing s s where
  orders := rfl
  sound := id
  owed := by simp

lemma moves_nextBatch (owing : ℤ) (s : BatchRun) :
    Moves owing owing s (s.onManager (·.nextBatch)) where
  orders := rfl
  sound hs := ⟨hs.sizes, hs.counts⟩
  owed := by
    rw [sub_self, sub_eq_zero]
    rfl

lemma batches_takeBatch (config : BatchConfig) (s : BatchRun) :
    (s.takeBatch config).2.batches = s.batches ++ [(s.takeBatch config).1] := by
  simp [batches, takeBatch, Removal.batch?]

/-- A batch of pending orders has at least one of them, and at most as many as a batch may have. -/
lemma length_takeBatch (hsize : 1 ≤ config.maxBatchSize) (hpending : s.manager.pending ≠ []) :
    1 ≤ (s.takeBatch config).1.length ∧ (s.takeBatch config).1.length ≤ 15 := by
  have hlength := List.length_pos_iff.mpr hpending
  have hlimit : config.maxBatchSize ≤ 15 := config.maxBatchSize_le
  simp only [takeBatch, BatchOrderManager.takeBatch, headSlice, sliceIndex, List.length_take]
  split_ifs
  all_goals omega

lemma moves_takeBatch (hsize : 1 ≤ config.maxBatchSize) (hpending : s.manager.pending ≠ []) :
    Moves 0 (s.takeBatch config).1.length s (s.takeBatch config).2 where
  orders := by
    simp [BatchRun.orders, takeBatch, BatchOrderManager.takeBatch, Removal.orders, headSlice, tailSlice]
  sound hs :=
    { sizes := by
        rw [batches_takeBatch]
        intro batch hbatch
        rcases List.mem_append.mp hbatch with hbatch | hbatch
        · exact hs.sizes batch hbatch
        · rw [List.mem_singleton.mp hbatch]
          exact length_takeBatch hsize hpending
      counts := hs.counts }
  owed := by
    have hcounted : (s.takeBatch config).2.manager.totalSubmitted = s.manager.totalSubmitted := rfl
    simp [BatchRun.owed, batched, batches_takeBatch, hcounted]

lemma moves_count {submitted succeeded failed : ℤ} (h : succeeded + failed = submitted)
    (s : BatchRun) : Moves submitted 0 s (s.onManager (·.count submitted succeeded failed)) where
  orders := rfl
  sound hs :=
    { sizes := hs.sizes
      counts := by
        have hcounts := hs.counts
        simp only [onManager, BatchOrderManager.count]
        linarith }
  owed := by
    simp only [BatchRun.owed, batched, batches, onManager, BatchOrderManager.count]
    ring

end BatchRun

/-! ### The tasks -/

/-- A task owes the orders of a batch that it has not counted. Only a flush awaits anything. -/
def owing : Ghost BatchCall ℤ BatchRun where
  start _ := 0
  updates _ g s g' s' := BatchRun.Moves g g' s s'
  waits tag _ := tag.isFlush = true
  ends _ g := g = 0

/-- The orders are the `added` ones, and the tasks owe those in submitted batches that are not
counted. -/
structure BatchInv (added : List PendingOrder) (gs : List ℤ) (s : BatchRun) : Prop where
  orders : s.orders = added
  sound : s.Sound
  owed : s.owed = gs.sum

lemma owing_maintains (added : List PendingOrder) : owing.Maintains (BatchInv added) where
  start h := ⟨h.orders, h.sound, by simp [h.owed, owing]⟩
  updates {gs gs' tag g s g' s'} h hmoves := by
    have howed := hmoves.owed
    have hsum := h.owed
    simp only [List.sum_append, List.sum_cons] at hsum
    refine ⟨hmoves.orders.trans h.orders, hmoves.sound h.sound, ?_⟩
    simp only [List.sum_append, List.sum_cons]
    linarith
  ends {gs gs' tag g s} h hends := by
    have hends : g = 0 := hends
    refine ⟨h.orders, h.sound, ?_⟩
    rw [h.owed, hends]
    simp

section Flush

variable {tag : BatchCall}

lemma postSequentially_inquires (submission : Submission) (i : ℕ) (orders : List OrderDict) :
    Inquires (fun _ _ => True) (postSequentially submission i orders) := by
  induction orders generalizing submission i with
  | nil => trivial
  | cons order orders ih =>
    intro posted
    show Inquires _ (ite _ _ _)
    split_ifs
    · exact fun _ => (ih _ _).mono fun _ _ _ => trivial
    · exact (ih _ _).mono fun _ _ _ => trivial

lemma postBatch_inquires (clob : BatchClob) (batchId : ℤ) (orders : List OrderDict) :
    Inquires (fun _ _ => True) (postBatch clob batchId orders) := by
  rw [postBatch]
  split_ifs
  · exact fun _ => trivial
  · exact postSequentially_inquires _ _ _

/-- When a batch comes back its orders are counted. -/
lemma submitBatch_keeps (htag : tag.isFlush = true) (batch : List PendingOrder) (s : BatchRun) :
    Keeps owing tag (fun _ g _ => g = 0) batch.length (submitBatch config batch) s := by
  refine ⟨batch.length, BatchRun.moves_nextBatch _ s, ?_⟩
  show Keeps _ _ _ _ (ite _ _ _) _
  split_ifs
  · exact ⟨0, BatchRun.moves_count (add_zero _) _, rfl⟩
  · apply (Inquires.keeps (postBatch_inquires _ _ _) htag).bind
    rintro submission g s rfl
    exact ⟨0, BatchRun.moves_count (add_sub_cancel _ _) _, rfl⟩

variable (hsize : 1 ≤ config.maxBatchSize) (htag : tag.isFlush = true)

include hsize htag

/-- Every round of the loop owes nothing at its end, wherever the environment has taken the manager. -/
lemma flushLoop_keeps (fuel : ℕ) (results : List BatchResult) (s : BatchRun) :
    Keeps owing tag (fun _ g _ => g = 0) 0 (flushLoop config fuel results) s := by
  induction fuel generalizing results s with
  | zero => rfl
  | succ fuel ih =>
    refine ⟨0, BatchRun.moves_refl _ s, ?_⟩
    show Keeps _ _ _ _ (ite _ _ _) _
    split_ifs with hpending
    · rfl
    · refine ⟨_, BatchRun.moves_takeBatch hsize hpending, ?_⟩
      apply (submitBatch_keeps htag _ _).bind
      rintro result g s rfl
      refine ⟨0, BatchRun.moves_refl _ s, ?_⟩
      show Keeps _ _ _ _ (ite _ _ _) _
      split_ifs
      · exact ⟨htag, fun _ s => ih _ s⟩
      · exact ih _ s

end Flush

/-- A call that adds no order keeps to what it owes. -/
lemma program_keeps (hsize : 1 ≤ config.maxBatchSize) (fuel : ℕ) {tag : BatchCall}
    (htag : ∀ order, tag ≠ .add order) (s : BatchRun) :
    KeepsOn owing tag (owing.start tag) (tag.program config fuel) s := by
  cases tag with
  | add order => exact absurd rfl (htag order)
  | clear => exact ⟨0, s.moves_clear, rfl⟩
  | flush =>
    apply (flushLoop_keeps hsize rfl fuel [] s).bind
    exact fun _ _ _ h => h
  | flushIfFull =>
    refine ⟨0, BatchRun.moves_refl _ s, ?_⟩
    show Keeps _ _ _ _ ((ite _ _ _ : BatchProgram _).bind _) _
    split_ifs
    · apply (flushLoop_keeps hsize rfl fuel [] s).bind
      exact fun _ _ _ h => h
    · rfl

/-! ### Runs -/

/-- The order that an event adds. -/
def addedBy : BatchEvent → Option PendingOrder
  | .start (.add order) => some order
  | _ => none

/-- An event adds its order to the orders, and otherwise moves them only. -/
lemma step_batchInv (hsize : 1 ≤ config.maxBatchSize) (fuel : ℕ) {p : BatchPool}
    {added : List PendingOrder} (hp : p.Kept owing (BatchInv added)) (event : BatchEvent) :
    (p.step (BatchCall.program config fuel) (fun _ _ => true) event).Kept owing
      (BatchInv (added ++ (addedBy event).toList)) := by
  by_cases hadds : ∃ order, event = .start (.add order)
  · obtain ⟨order, rfl⟩ := hadds
    obtain ⟨values, htasks, hwaits, hinv⟩ := hp
    have hstep : p.step (BatchCall.program config fuel) (fun _ _ => true) (.start (.add order)) =
        ⟨⟨p.world.state.onManager (·.add order), p.world.trace⟩, p.tasks,
          p.finished ++ [(⟨.add order, p.world⟩,
            .pendingCount (p.world.state.manager.add order).pending.length)]⟩ := by
      rw [Pool.step, if_pos rfl, Pool.settle]
      simp [BatchCall.program, Coroutine.modifyGet, advance, BatchRun.onManager]
    rw [hstep]
    refine ⟨values, htasks, hwaits, ?_, ⟨hinv.sound.sizes, hinv.sound.counts⟩, hinv.owed⟩
    rw [← hinv.orders]
    simp [BatchRun.orders, BatchRun.onManager, BatchOrderManager.add, addedBy]
  · push Not at hadds
    have hnone : addedBy event = none := by
      rcases event with (_ | _ | _ | _) | _ <;> simp_all [addedBy]
    rw [hnone]
    simp only [Option.toList_none, List.append_nil]
    apply Pool.step_kept (owing_maintains added) _ hp
    rintro tag rfl
    apply program_keeps hsize fuel
    rintro order rfl
    exact hadds order rfl

/-- Along a schedule the orders are those that were added. -/
lemma run_batchInv (hsize : 1 ≤ config.maxBatchSize) (fuel : ℕ) (schedule : List BatchEvent)
    {p : BatchPool} {added : List PendingOrder} (hp : p.Kept owing (BatchInv added)) :
    (p.run (BatchCall.program config fuel) (fun _ _ => true) schedule).Kept owing
      (BatchInv (added ++ schedule.filterMap addedBy)) := by
  induction schedule generalizing p added with
  | nil => simpa [Pool.run] using hp
  | cons event schedule ih =>
    have hstep := ih (step_batchInv hsize fuel hp event)
    have happend : (event :: schedule).filterMap addedBy =
        (addedBy event).toList ++ schedule.filterMap addedBy := by
      cases h : addedBy event <;> simp [h]
    rw [happend, ← List.append_assoc]
    exact hstep

variable (config) in
/-- Every added order is pending, or it has left: it was cleared, or it is in a submitted batch. The
batches have the orders as they were added, and once no flush is running they are all counted. -/
theorem batching_conserves (hsize : 1 ≤ config.maxBatchSize) (fuel : ℕ) (schedule : List BatchEvent) :
    let p := config.run fuel schedule
    let s := p.world.state
    let added := schedule.filterMap addedBy
    s.removals.flatMap Removal.orders ++ s.manager.pending = added ∧
      s.batches.flatten.Sublist added ∧
      (∀ batch ∈ s.batches, 1 ≤ batch.length ∧ batch.length ≤ 15) ∧
      ((∀ t ∈ p.tasks, t.job.tag.isFlush = false) →
        s.manager.totalSucceeded + s.manager.totalFailed = s.manager.totalSubmitted ∧
          s.manager.totalSubmitted = (s.batches.map List.length).sum) := by
  have hinit : (⟨⟨{}, []⟩, [], []⟩ : BatchPool).Kept owing (BatchInv []) := by
    refine ⟨[], rfl, by simp, rfl, ⟨by simp [BatchRun.batches], rfl⟩, ?_⟩
    simp [BatchRun.owed, BatchRun.batched, BatchRun.batches]
  obtain ⟨values, htasks, hwaits, horders, hsound, howed⟩ := run_batchInv hsize fuel schedule hinit
  rw [List.nil_append] at horders
  refine ⟨horders, horders ▸ BatchRun.batches_sublist_orders _, hsound.sizes, fun hnone => ?_⟩
  refine ⟨hsound.counts, ?_⟩
  -- only a flush can wait, so no task is left that owes anything
  have hvalues : values = [] := by
    rw [List.eq_nil_iff_forall_not_mem]
    intro x hx
    have hflush : x.1.job.tag.isFlush = true := (hwaits x hx).1
    have hmem : x.1 ∈ (config.run fuel schedule).tasks := by
      rw [BatchConfig.run, ← htasks]
      exact List.mem_map_of_mem hx
    rw [hnone x.1 hmem] at hflush
    exact absurd hflush (by decide)
  rw [hvalues, BatchRun.owed, BatchRun.batched, List.map_nil, List.sum_nil, sub_eq_zero] at howed
  exact howed.symm

theorem batching_conserves_twoOrders :
    1 ≤ (BatchConfig.init .none 1 true).maxBatchSize ∧
      let schedule : List BatchEvent :=
        [.start (.add ⟨"up", 1 / 2, 10, "BUY"⟩), .start (.add ⟨"down", 1 / 4, 20, "BUY"⟩), .start .flush]
      let s := ((BatchConfig.init .none 1 true).run 3 schedule).world.state
      s.removals.flatMap Removal.orders ++ s.manager.pending = schedule.filterMap addedBy :=
  ⟨by decide, (batching_conserves (BatchConfig.init .none 1 true) (by decide) 3 _).1⟩

end PolyCortex
