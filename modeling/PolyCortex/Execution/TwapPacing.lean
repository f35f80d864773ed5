import PolyCortex.Execution.TwapRuns

/-!
# The pace of a TWAP order

`next_slice` hands out the slices of an order one after the other, and none before the interval has passed
since the one before it. Over any calls, the slice that is `k` places later comes at least `k` intervals
later, however often it was asked for, and after `cancel` there is none (`issues_paced`).
-/

namespace PolyCortex

open Machine

namespace TWAPRun

/-- `cancel`. -/
def cancel (t : TWAPRun) : TWAPRun :=
  { t with
    cancelled := true
    slices := t.slices.map fun s => if s.status = .pending ∨ s.status = .submitted then fail s else s }

inductive PacedCall where
  | call (call : Call)
  | cancel

def pacedStep (t : TWAPRun) : PacedCall → TWAPRun
  | .call call => t.step call
  | .cancel => t.cancel

/-- The slice that a call hands out, with the time. -/
def issued? (t : TWAPRun) : PacedCall → Option (ℚ × ChildOrder)
  | .call (.nextSlice now) => (t.nextSlice now).1.map (now, ·)
  | _ => none

/-- The slices that the calls hand out, in their order. -/
def issues (t : TWAPRun) : List PacedCall → List (ℚ × ChildOrder)
  | [] => []
  | call :: calls => (t.issued? call).toList ++ issues (t.pacedStep call) calls

/-- The monotonic clock has left zero. -/
def PacedCall.Timed : PacedCall → Prop
  | .call (.nextSlice now) => 0 < now
  | _ => True

variable {t : TWAPRun} {now : ℚ} {slice : ChildOrder} {calls : List PacedCall} {call : PacedCall}

/-- A slice is handed out when the interval has passed since the last one. -/
lemma le_of_nextSlice (h : (t.nextSlice now).1 = some slice) (hlast : 0 < t.lastSliceTime) :
    t.lastSliceTime + t.intervalSeconds ≤ now := by
  rw [nextSlice] at h
  split at h
  · cases h
  · split at h
    · cases h
    · split_ifs at h with hearly
      rw [not_and, not_lt] at hearly
      linarith [hearly hlast]

/-! ### After a cancellation -/

lemma cancelled_step (h : t.cancelled = true) (call : PacedCall) :
    (t.pacedStep call).cancelled = true ∧ t.issued? call = none := by
  have hcomplete : t.isComplete = true := by simp [isComplete, status, h]
  cases call with
  | cancel => exact ⟨rfl, rfl⟩
  | call call =>
    cases call with
    | nextSlice now => simp [pacedStep, step, issued?, nextSlice, hcomplete, h]
    | recordFill => exact ⟨h, rfl⟩
    | recordFailure => exact ⟨h, rfl⟩

lemma issues_of_cancelled (h : t.cancelled = true) : issues t calls = [] := by
  induction calls generalizing t with
  | nil => rfl
  | cons call calls ih =>
    obtain ⟨hstep, hissued⟩ := cancelled_step h call
    rw [issues, hissued, ih hstep]
    rfl

lemma issues_cancel : issues (t.pacedStep .cancel) calls = [] := issues_of_cancelled rfl

lemma issues_append (later : List PacedCall) :
    issues t (calls ++ later) = issues t calls ++ issues (calls.foldl pacedStep t) later := by
  induction calls generalizing t with
  | nil => rfl
  | cons call calls ih =>
    rw [List.cons_append, issues, ih, issues, List.append_assoc, List.foldl_cons]

end TWAPRun

namespace TWAPOrder

open TWAPRun

variable {o : TWAPOrder} {t : TWAPRun} {calls : List PacedCall} {call : PacedCall} {now : ℚ}
  {slice next : ChildOrder}

/-- What the issues of a run keep to, from a state on. -/
structure Paced (o : TWAPOrder) (t : TWAPRun) (issues : List (ℚ × ChildOrder)) : Prop where
  length : t.nextSliceIdx + issues.length ≤ o.numSlices
  number : issues.map (·.2.sliceNumber) = List.range' t.nextSliceIdx issues.length
  since : 0 < t.lastSliceTime → ∀ issue ∈ issues,
    t.lastSliceTime + t.intervalSeconds * (issue.2.sliceNumber + 1 - t.nextSliceIdx) ≤ issue.1
  apart : issues.Pairwise fun a b =>
    a.1 + t.intervalSeconds * (b.2.sliceNumber - a.2.sliceNumber) ≤ b.1

lemma paced_nil (h : Tracks o t) : Paced o t [] := ⟨h.nextSliceIdx_le, rfl, by simp, List.Pairwise.nil⟩

/-- A call that hands out the next slice. -/
lemma Paced.submit {issues : List (ℚ × ChildOrder)} (hnow : 0 < now)
    (hlast : 0 < t.lastSliceTime → t.lastSliceTime + t.intervalSeconds ≤ now)
    (hnumber : next.sliceNumber = t.nextSliceIdx) (h : Paced o (t.submit now slice) issues) :
    Paced o t ((now, next) :: issues) where
  length := by
    have hlength : t.nextSliceIdx + 1 + issues.length ≤ o.numSlices := h.length
    rw [List.length_cons]
    omega
  number := by
    rw [List.map_cons, List.length_cons, List.range'_succ, h.number, hnumber]
    rfl
  since hpos := by
    have hfirst := hlast hpos
    rw [List.forall_mem_cons]
    constructor
    · rw [hnumber]
      linarith
    · intro issue hissue
      have hsince := h.since hnow issue hissue
      simp only [TWAPRun.submit, Nat.cast_add, Nat.cast_one] at hsince
      linarith
  apart := by
    refine List.pairwise_cons.mpr ⟨fun issue hissue => ?_, h.apart⟩
    have hsince := h.since hnow issue hissue
    simp only [TWAPRun.submit, Nat.cast_add, Nat.cast_one] at hsince
    rw [hnumber]
    linarith

lemma paced_issues (h : Tracks o t) (htimed : ∀ call ∈ calls, call.Timed) : Paced o t (issues t calls) := by
  induction calls generalizing t with
  | nil => exact paced_nil h
  | cons call calls ih =>
    obtain ⟨hcall, hcalls⟩ := List.forall_mem_cons.mp htimed
    rw [issues]
    cases call with
    | cancel =>
      rw [issues_cancel]
      exact paced_nil h
    | call call =>
      cases call with
      | nextSlice now =>
        rcases nextSlice_cases now t with hnone | ⟨slice, hslice, hsome⟩
        · have hstep : t.pacedStep (.call (.nextSlice now)) = t := congrArg Prod.snd hnone
          rw [hstep, issued?, hnone]
          exact ih h hcalls
        · have hstep : t.pacedStep (.call (.nextSlice now)) = t.submit now slice :=
            congrArg Prod.snd hsome
          have hlast := fun hpos => le_of_nextSlice (congrArg Prod.fst hsome) hpos
          rw [hstep, issued?, hsome]
          exact Paced.submit hcall hlast (h.getElem? hslice).2 (ih (h.submit hslice) hcalls)
      | recordFill sliceId price size =>
        have hpaced := ih (h.record (f := fill price size) sliceId fun _ => rfl) hcalls
        exact ⟨hpaced.length, hpaced.number, hpaced.since, hpaced.apart⟩
      | recordFailure sliceId =>
        have hpaced := ih (h.record (f := fail) sliceId fun _ => rfl) hcalls
        exact ⟨hpaced.length, hpaced.number, hpaced.since, hpaced.apart⟩

/-- The slices come in their order, each once; the later one of two comes an interval later for each place
between them; and none comes after the order was cancelled. -/
theorem issues_paced (o : TWAPOrder) (draws : ℕ → ℚ) (intervalSeconds : ℚ)
    (htimed : ∀ call ∈ calls, call.Timed) :
    let issued := issues (o.start draws intervalSeconds) calls
    issued.map (·.2.sliceNumber) = List.range issued.length ∧ issued.length ≤ o.numSlices ∧
      (issued.Pairwise fun a b => a.1 + intervalSeconds * (b.2.sliceNumber - a.2.sliceNumber) ≤ b.1) ∧
      ∀ before after, calls = before ++ .cancel :: after →
        issued = issues (o.start draws intervalSeconds) before := by
  have hpaced := paced_issues (tracks_start o draws intervalSeconds) htimed
  refine ⟨?_, ?_, hpaced.apart, ?_⟩
  · rw [List.range_eq_range']
    exact hpaced.number
  · have hlength := hpaced.length
    rwa [start, Nat.zero_add] at hlength
  · rintro before after rfl
    rw [issues_append, issues, issues_cancel]
    simp [issued?]

/-- Two slices of 50. -/
def twoSlices : TWAPOrder where
  orderId := "o"
  tokenId := "t"
  side := "BUY"
  totalSize := 100
  priceLimit := 1 / 2
  numSlices := 2

/-- The slices are asked for every 20 seconds. -/
def asks : List PacedCall := [.call (.nextSlice 10), .call (.nextSlice 30), .call (.nextSlice 50)]

theorem issues_paced_twoSlices :
    let issued := issues (twoSlices.start (fun _ => 0) 30) asks
    issued.map (·.2.sliceNumber) = List.range issued.length ∧ issued.length ≤ twoSlices.numSlices ∧
      (issued.Pairwise fun a b => a.1 + (30 : ℚ) * (b.2.sliceNumber - a.2.sliceNumber) ≤ b.1) ∧
      ∀ before after, asks = before ++ .cancel :: after →
        issued = issues (twoSlices.start (fun _ => 0) 30) before := by
  apply issues_paced
  simp [asks, PacedCall.Timed]

end TWAPOrder
end PolyCortex
