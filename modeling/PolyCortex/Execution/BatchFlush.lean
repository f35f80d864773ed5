import PolyCortex.Execution.BatchConservation

/-!
# A flush ends

Every round of `flush` cuts a batch off the pending orders. With a batch size of at least 1 there are
fewer of them after each round. The constructor bounds the size from above only: with a size of 0 the
batch is empty, and with a negative one the slices count from the end, so that orders are left to be
pending after every round.
-/

namespace PolyCortex

open Coroutine

variable {config : BatchConfig} {s s' : BatchRun}

abbrev BatchWorld := World BatchRun BatchInquiry BatchInquiry.Reply

/-- What others may do to the pending orders while a flush waits. -/
def PendingMoves (T : List PendingOrder → List PendingOrder → Prop) :
    Rely BatchRun BatchInquiry BatchInquiry.Reply := fun _ _ w w' =>
  T w.state.manager.pending w'.state.manager.pending

/-- While the flush waits, orders may leave the pending ones and none is added. -/
def OrdersLeave : Rely BatchRun BatchInquiry BatchInquiry.Reply :=
  PendingMoves fun orders left => left.Sublist orders

/-- When no order is added meanwhile, the flush returns, and no order is pending then. -/
def FlushEnds (config : BatchConfig) (s : BatchRun) : Prop :=
  ∃ fuel, Meets OrdersLeave (fun _ _ => True)
    (fun results w => results.isSome ∧ w.state.manager.pending = []) (flush config fuel) ⟨s, []⟩

section Submission

variable {T : List PendingOrder → List PendingOrder → Prop} (hrefl : ∀ orders, T orders orders)
  (htrans : ∀ {xs ys zs}, T xs ys → T ys zs → T xs zs)

include hrefl htrans

lemma postBatch_moves (clob : BatchClob) (batchId : ℤ) (orders : List OrderDict) (w : BatchWorld) :
    Meets (PendingMoves T) (fun _ _ => True)
      (fun _ w' => T w.state.manager.pending w'.state.manager.pending)
      (postBatch clob batchId orders) w := by
  have hasks := (postBatch_inquires clob batchId orders).meets_side
    (T := fun s s' : BatchRun => T s.manager.pending s'.manager.pending)
    (S := fun _ _ _ => True) (G := fun _ _ => True) (fun s => hrefl _) htrans (fun _ _ _ => trivial) w
  apply hasks.mono
  · exact fun q r w w' h => ⟨h, trivial⟩
  · exact fun w w' h => h
  · exact fun submission w' h => h.1

/-- A submission itself does not touch the pending orders. -/
lemma submitBatch_moves (config : BatchConfig) (batch : List PendingOrder) (w : BatchWorld) :
    Meets (PendingMoves T) (fun _ _ => True)
      (fun _ w' => T w.state.manager.pending w'.state.manager.pending) (submitBatch config batch) w := by
  refine ⟨trivial, ?_⟩
  show Meets _ _ _ (ite _ _ _) _
  split_ifs
  · exact ⟨trivial, hrefl _⟩
  · apply (postBatch_moves hrefl htrans _ _ _ _).bind
    exact fun submission w' h => ⟨trivial, h⟩

end Submission

/-- With a batch size of at least 1 fewer orders are pending. -/
lemma length_takeBatch_lt (hsize : 1 ≤ config.maxBatchSize) (hpending : s.manager.pending ≠ []) :
    (s.takeBatch config).2.manager.pending.length < s.manager.pending.length := by
  have hlength := List.length_pos_iff.mpr hpending
  simp only [BatchRun.takeBatch, BatchOrderManager.takeBatch, tailSlice, sliceIndex, List.length_drop]
  split_ifs
  all_goals omega

/-- With another batch size some orders stay pending. -/
lemma takeBatch_pending_ne_nil (hsize : config.maxBatchSize < 1) (hpending : s.manager.pending ≠ []) :
    (s.takeBatch config).2.manager.pending ≠ [] := by
  have hlength := List.length_pos_iff.mpr hpending
  rw [← List.length_pos_iff]
  simp only [BatchRun.takeBatch, BatchOrderManager.takeBatch, tailSlice, sliceIndex, List.length_drop]
  split_ifs
  all_goals omega

/-- The loop ends in as many rounds as there are pending orders, and one to see that there are none. -/
lemma flushLoop_ends (hsize : 1 ≤ config.maxBatchSize) (fuel : ℕ) (results : List BatchResult)
    (w : BatchWorld)
    (hfuel : w.state.manager.pending.length < fuel) :
    Meets OrdersLeave (fun _ _ => True)
      (fun results w => results.isSome ∧ w.state.manager.pending = []) (flushLoop config fuel results)
      w := by
  induction fuel generalizing results w with
  | zero => exact absurd hfuel (Nat.not_lt_zero _)
  | succ fuel ih =>
    refine ⟨trivial, ?_⟩
    show Meets _ _ _ (ite _ _ _) _
    split_ifs with hpending
    · exact ⟨rfl, hpending⟩
    · refine ⟨trivial, ?_⟩
      have htaken := length_takeBatch_lt hsize hpending
      have hsubmit := submitBatch_moves (T := fun orders left => left.Sublist orders)
        List.Sublist.refl (fun h h' => h'.trans h) config
      apply (hsubmit _ _).bind
      intro result w' hleaves
      have hfewer : w'.state.manager.pending.length < fuel :=
        hleaves.length_le.trans_lt (htaken.trans_le (Nat.lt_succ_iff.mp hfuel))
      refine ⟨trivial, ?_⟩
      show Meets _ _ _ (ite _ _ _) _
      split_ifs
      · exact fun _ w'' h => ⟨trivial, ih _ _ (h.length_le.trans_lt hfewer)⟩
      · exact ih _ _ hfewer

/-- With another batch size the loop has not ended after any number of rounds, when nobody else touches
the pending orders. -/
lemma flushLoop_not_ends (hsize : config.maxBatchSize < 1) (fuel : ℕ) (results : List BatchResult)
    (w : BatchWorld) (hpending : w.state.manager.pending ≠ []) :
    Meets (PendingMoves Eq) (fun _ _ => True) (fun results _ => results = none)
      (flushLoop config fuel results) w := by
  induction fuel generalizing results w with
  | zero => rfl
  | succ fuel ih =>
    refine ⟨trivial, ?_⟩
    show Meets _ _ _ (ite (w.state.manager.pending = []) _ _) _
    rw [if_neg hpending]
    refine ⟨trivial, ?_⟩
    have htaken := takeBatch_pending_ne_nil hsize hpending
    apply (submitBatch_moves Eq.refl Eq.trans config _ _).bind
    intro result w' hsame
    have hleft : w'.state.manager.pending ≠ [] := by
      rw [← hsame]
      exact htaken
    refine ⟨trivial, ?_⟩
    show Meets _ _ _ (ite (w'.state.manager.pending ≠ []) _ _) _
    rw [if_pos hleft]
    intro _ w'' h
    refine ⟨trivial, ih _ _ ?_⟩
    exact fun hnil => hleft (Eq.trans h hnil)

/-- No answer comes in time. -/
def allTimedOut : Oracle BatchInquiry BatchInquiry.Reply
  | _, .sleep _ => ()
  | _, .createAndPostBatchOrder _ => .timedOut ""
  | _, .createAndPostOrder _ => .timedOut ""

lemma not_flushEnds (hsize : config.maxBatchSize < 1) (hpending : s.manager.pending ≠ []) :
    ¬ FlushEnds config s := by
  rintro ⟨fuel, hends⟩
  -- the others do nothing, and the flush goes round and round
  have halone : Meets (PendingMoves Eq) (fun _ _ => True)
      (fun results w => results.isSome ∧ w.state.manager.pending = []) (flush config fuel) ⟨s, []⟩ := by
    apply hends.mono
    · intro q r w w' h
      have hsame : w.state.manager.pending = w'.state.manager.pending := h
      show w'.state.manager.pending.Sublist _
      rw [hsame]
    · exact fun w w' h => h
    · exact fun results w h => h
  have hboth := halone.and (flushLoop_not_ends hsize fuel [] ⟨s, []⟩ hpending)
  obtain ⟨-, ⟨hsome, -⟩, hnone⟩ := hboth.run (fun q r w => rfl) (fun _ => trivial)
    (fun _ _ => trivial) allTimedOut
  rw [hnone] at hsome
  exact absurd hsome (by decide)

/-- A manager with a batch size of 0 and one pending order: the flush does not end. -/
theorem not_flushEnds_zero :
    ¬ FlushEnds (.init .none 0 true) ⟨{ pending := [⟨"up", 1 / 2, 10, "BUY"⟩] }, []⟩ := by
  apply not_flushEnds
  · decide
  · simp

/-- A flush ends exactly when a batch may have an order, or there is nothing to do. -/
theorem flushEnds_iff (clob : BatchClob) (maxBatchSize : ℤ) (dryRun : Bool) (s : BatchRun) :
    FlushEnds (.init clob maxBatchSize dryRun) s ↔ 1 ≤ maxBatchSize ∨ s.manager.pending = [] := by
  have hsize : 1 ≤ (BatchConfig.init clob maxBatchSize dryRun).maxBatchSize ↔ 1 ≤ maxBatchSize := by
    simp [BatchConfig.init, maxBatchSizeLimit]
  rw [← hsize]
  constructor
  · intro hends
    by_contra hnot
    push Not at hnot
    exact not_flushEnds hnot.1 hnot.2 hends
  · rintro (hsize | hpending)
    · exact ⟨_, flushLoop_ends hsize _ [] _ (Nat.lt_succ_self _)⟩
    · refine ⟨1, trivial, ?_⟩
      show Meets _ _ _ (ite (s.manager.pending = []) _ _) _
      rw [if_pos hpending]
      exact ⟨rfl, hpending⟩

end PolyCortex
