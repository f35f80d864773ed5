import PolyCortex.Execution.Twap
import PolyCortex.Machine.History

/-!
# Runs of a TWAP order

`TWAPOrder` with the state of its slices: `next_slice` submits them one by one, `record_fill` and
`record_failure` give each an outcome. The status counts fills alone, so an order with a slice that has
failed is never complete, and the loop `while not is_complete` over it never ends
(`isComplete_iff_filledLast`).
-/

namespace PolyCortex

open Machine

inductive SliceStatus where
  | pending
  | submitted
  | filled
  | failed
  deriving DecidableEq, Repr

/-- A child order with its state. -/
structure ChildOrder extends TWAPSlice where
  status : SliceStatus := .pending
  fillPrice : Option ℚ := none
  fillSize : ℚ := 0
  deriving DecidableEq, Repr

inductive TWAPStatus where
  | cancelled
  | completed
  | inProgress
  | active
  deriving DecidableEq, Repr

/-- An order with its state; times are seconds of the monotonic clock. -/
structure TWAPRun where
  intervalSeconds : ℚ := 30
  slices : List ChildOrder
  nextSliceIdx : ℕ := 0
  lastSliceTime : ℚ := 0
  cancelled : Bool := false

/-- A new order. -/
def TWAPOrder.start (o : TWAPOrder) (draws : ℕ → ℚ) (intervalSeconds : ℚ) : TWAPRun where
  intervalSeconds
  slices := (o.buildSlices draws).map fun slice => { toTWAPSlice := slice }

namespace TWAPRun

def status (t : TWAPRun) : TWAPStatus :=
  if t.cancelled then .cancelled
  else if t.slices.all (·.status = .filled) then .completed
  else if t.slices.any fun s => s.status = .submitted ∨ s.status = .filled then .inProgress
  else .active

def isComplete (t : TWAPRun) : Bool := t.status = .completed ∨ t.status = .cancelled

/-- `next_slice` at a time. -/
def nextSlice (now : ℚ) (t : TWAPRun) : Option ChildOrder × TWAPRun :=
  if t.isComplete then (none, t)
  else
    match t.slices[t.nextSliceIdx]? with
    | none => (none, t)
    | some slice =>
      if 0 < t.lastSliceTime ∧ now - t.lastSliceTime < t.intervalSeconds then (none, t)
      else
        let slice := { slice with status := .submitted }
        (some slice,
          { t with
            slices := t.slices.set t.nextSliceIdx slice
            nextSliceIdx := t.nextSliceIdx + 1
            lastSliceTime := now })

/-- Change the first slice with an id. -/
def updateFirst (sliceId : String) (f : ChildOrder → ChildOrder) :
    List ChildOrder → Bool × List ChildOrder
  | [] => (false, [])
  | s :: slices =>
    if s.sliceId = sliceId then (true, f s :: slices)
    else
      let (found, slices) := updateFirst sliceId f slices
      (found, s :: slices)

/-- What a fill sets. -/
def fill (fillPrice fillSize : ℚ) (s : ChildOrder) : ChildOrder :=
  { s with status := .filled, fillPrice := some fillPrice, fillSize }

/-- What a failure sets. -/
def fail (s : ChildOrder) : ChildOrder := { s with status := .failed }

/-- `record_fill`. -/
def recordFill (sliceId : String) (fillPrice fillSize : ℚ) (t : TWAPRun) : Bool × TWAPRun :=
  let (found, slices) := updateFirst sliceId (fill fillPrice fillSize) t.slices
  (found, { t with slices })

/-- `record_failure`. -/
def recordFailure (sliceId : String) (t : TWAPRun) : Bool × TWAPRun :=
  let (found, slices) := updateFirst sliceId fail t.slices
  (found, { t with slices })

inductive Call where
  | nextSlice (now : ℚ)
  | recordFill (sliceId : String) (fillPrice fillSize : ℚ)
  | recordFailure (sliceId : String)

def step (t : TWAPRun) : Call → TWAPRun
  | .nextSlice now => (t.nextSlice now).2
  | .recordFill sliceId fillPrice fillSize => (t.recordFill sliceId fillPrice fillSize).2
  | .recordFailure sliceId => (t.recordFailure sliceId).2

variable {t : TWAPRun} {sliceId : String} {f : ChildOrder → ChildOrder} {slices : List ChildOrder}
  {s : ChildOrder} {i : ℕ}

lemma isComplete_iff (h : t.cancelled = false) :
    t.isComplete = true ↔ ∀ s ∈ t.slices, s.status = .filled := by
  have hall : t.slices.all (·.status = .filled) = true ↔ ∀ s ∈ t.slices, s.status = .filled := by simp
  rw [← hall, isComplete, status, h]
  generalize t.slices.all _ = all
  generalize t.slices.any _ = any
  cases all <;> cases any <;> simp

lemma updateFirst_of_notMem (h : sliceId ∉ slices.map (·.sliceId)) :
    (updateFirst sliceId f slices).2 = slices := by
  induction slices with
  | nil => rfl
  | cons s slices ih =>
    rw [List.map_cons, List.mem_cons, not_or] at h
    rw [updateFirst, if_neg (Ne.symm h.1)]
    dsimp only
    rw [ih h.2]

/-- Of slices with distinct ids the one with the id is changed. -/
lemma updateFirst_eq (h : (slices.map (·.sliceId)).Nodup) :
    (updateFirst sliceId f slices).2 = slices.map fun s => if s.sliceId = sliceId then f s else s := by
  induction slices with
  | nil => rfl
  | cons s slices ih =>
    rw [List.map_cons, List.nodup_cons] at h
    rw [updateFirst, List.map_cons, ← ih h.2]
    split_ifs with hid
    · rw [updateFirst_of_notMem (hid ▸ h.1)]
    · rfl

/-- The status of a slice. -/
def statusAt (t : TWAPRun) (i : ℕ) : Option SliceStatus := t.slices[i]?.map (·.status)

lemma forall_filled_iff (t : TWAPRun) :
    (∀ s ∈ t.slices, s.status = .filled) ↔ ∀ i < t.slices.length, t.statusAt i = some .filled := by
  constructor
  · intro h i hi
    rw [statusAt, List.getElem?_eq_getElem hi, Option.map_some, h _ (List.getElem_mem hi)]
  · intro h s hs
    obtain ⟨i, hi, rfl⟩ := List.getElem_of_mem hs
    simpa [statusAt, hi] using h i hi

/-- A slice that is submitted. -/
def submit (now : ℚ) (slice : ChildOrder) (t : TWAPRun) : TWAPRun :=
  { t with
    slices := t.slices.set t.nextSliceIdx { slice with status := .submitted }
    nextSliceIdx := t.nextSliceIdx + 1
    lastSliceTime := now }

/-- What `next_slice` can do. -/
lemma nextSlice_cases (now : ℚ) (t : TWAPRun) :
    t.nextSlice now = (none, t) ∨
      ∃ slice, t.slices[t.nextSliceIdx]? = some slice ∧
        t.nextSlice now = (some { slice with status := .submitted }, t.submit now slice) := by
  rw [nextSlice]
  cases hslice : t.slices[t.nextSliceIdx]? with
  | none => exact Or.inl (ite_self _)
  | some slice =>
    dsimp only
    split_ifs
    · exact Or.inl rfl
    · exact Or.inl rfl
    · exact Or.inr ⟨slice, rfl, rfl⟩

lemma statusAt_submit {now : ℚ} {slice : ChildOrder} (hslice : t.slices[t.nextSliceIdx]? = some slice) :
    (t.submit now slice).statusAt i =
      if t.nextSliceIdx = i then some .submitted else t.statusAt i := by
  rw [statusAt, submit, List.getElem?_set]
  split_ifs with hi hlength
  · rfl
  · exact absurd (List.getElem?_eq_some_iff.mp hslice).1 hlength
  · rfl

end TWAPRun

/-! ### The ids of the slices -/

namespace TWAPOrder

variable {o : TWAPOrder} {draws : ℕ → ℚ} {t : TWAPRun}

/-- The id of a slice. -/
def sliceId (o : TWAPOrder) (i : ℕ) : String := s!"{o.orderId}-s{i}"

lemma sliceId_injective (o : TWAPOrder) : Function.Injective o.sliceId := by
  intro i j h
  have hdigits : Nat.toDigits 10 i = Nat.toDigits 10 j := by
    simpa [sliceId, ← String.toList_inj] using h
  simpa using congrArg (Nat.ofDigitChars 10 · 0) hdigits

/-- What the last slice takes up is a matter of its size. -/
lemma map_buildSlices {β : Type} (f : TWAPSlice → β) (hf : ∀ s size, f { s with size } = f s) :
    (o.buildSlices draws).map f = (List.range o.numSlices).map fun i => f (o.slice draws i) := by
  rw [buildSlices]
  cases o.numSlices with
  | zero => rfl
  | succ n =>
    rw [List.range_succ, List.map_append, List.map_singleton, List.modifyLast_concat]
    simp [hf]

/-- A run has the slices of the order. -/
structure Tracks (o : TWAPOrder) (t : TWAPRun) : Prop where
  sliceId : t.slices.map (·.sliceId) = (List.range o.numSlices).map o.sliceId
  sliceNumber : t.slices.map (·.sliceNumber) = List.range o.numSlices
  cancelled : t.cancelled = false
  nextSliceIdx_le : t.nextSliceIdx ≤ o.numSlices

lemma tracks_start (o : TWAPOrder) (draws : ℕ → ℚ) (intervalSeconds : ℚ) :
    Tracks o (o.start draws intervalSeconds) := by
  refine ⟨?_, ?_, rfl, Nat.zero_le _⟩
  · rw [start, List.map_map]
    exact map_buildSlices (·.sliceId) fun _ _ => rfl
  · rw [start, List.map_map]
    exact (map_buildSlices (·.sliceNumber) fun _ _ => rfl).trans (List.map_id _)

lemma Tracks.length (h : Tracks o t) : t.slices.length = o.numSlices := by
  simpa using congrArg List.length h.sliceNumber

lemma Tracks.nodup (h : Tracks o t) : (t.slices.map (·.sliceId)).Nodup := by
  rw [h.sliceId]
  exact List.nodup_range.map o.sliceId_injective

lemma Tracks.getElem? (h : Tracks o t) {i : ℕ} {s : ChildOrder} (hs : t.slices[i]? = some s) :
    s.sliceId = o.sliceId i ∧ s.sliceNumber = i := by
  have hi : i < o.numSlices := h.length ▸ (List.getElem?_eq_some_iff.mp hs).1
  have hid := congrArg (·[i]?) h.sliceId
  have hnumber := congrArg (·[i]?) h.sliceNumber
  simp only [List.getElem?_map, hs, List.getElem?_range hi, Option.map_some, Option.some.injEq]
    at hid hnumber
  exact ⟨hid, hnumber⟩

lemma map_set_of_getElem? {α β : Type} {l : List α} {f : α → β} {i : ℕ} {a b : α} (ha : l[i]? = some a)
    (hb : f b = f a) : (l.set i b).map f = l.map f := by
  rw [List.map_set, hb]
  apply List.ext_getElem?
  intro j
  rw [List.getElem?_set]
  split_ifs with hij hlength
  · rw [← hij, List.getElem?_map, ha, Option.map_some]
  · rw [← hij, List.getElem?_eq_none (not_lt.mp hlength)]
  · rfl

lemma Tracks.submit (h : Tracks o t) {now : ℚ} {slice : ChildOrder}
    (hslice : t.slices[t.nextSliceIdx]? = some slice) : Tracks o (t.submit now slice) := by
  refine ⟨?_, ?_, h.cancelled, ?_⟩
  · exact (map_set_of_getElem? (b := { slice with status := .submitted }) hslice rfl).trans h.sliceId
  · exact (map_set_of_getElem? (b := { slice with status := .submitted }) hslice rfl).trans h.sliceNumber
  · exact h.length ▸ (List.getElem?_eq_some_iff.mp hslice).1

/-- A record of a slice: what it sets leaves the child order as it is. -/
lemma Tracks.record (h : Tracks o t) (sliceId : String) {f : ChildOrder → ChildOrder}
    (hf : ∀ s, (f s).toTWAPSlice = s.toTWAPSlice) :
    Tracks o { t with slices := (TWAPRun.updateFirst sliceId f t.slices).2 } := by
  have hslice : ∀ s : ChildOrder, (if s.sliceId = sliceId then f s else s).toTWAPSlice = s.toTWAPSlice := by
    intro s
    split_ifs
    · exact hf s
    · rfl
  refine ⟨?_, ?_, h.cancelled, h.nextSliceIdx_le⟩
  · rw [TWAPRun.updateFirst_eq h.nodup, List.map_map, ← h.sliceId]
    exact List.map_congr_left fun s _ => congrArg (·.sliceId) (hslice s)
  · rw [TWAPRun.updateFirst_eq h.nodup, List.map_map, ← h.sliceNumber]
    exact List.map_congr_left fun s _ => congrArg (·.sliceNumber) (hslice s)

lemma Tracks.statusAt_record (h : Tracks o t) (sliceId : String) {f : ChildOrder → ChildOrder}
    {status : SliceStatus} (hf : ∀ s, (f s).status = status) {i : ℕ} (hi : i < o.numSlices) :
    TWAPRun.statusAt { t with slices := (TWAPRun.updateFirst sliceId f t.slices).2 } i =
      if sliceId = o.sliceId i then some status else t.statusAt i := by
  obtain ⟨s, hs⟩ : ∃ s, t.slices[i]? = some s := ⟨_, List.getElem?_eq_getElem (h.length ▸ hi)⟩
  rw [TWAPRun.statusAt, TWAPRun.statusAt, TWAPRun.updateFirst_eq h.nodup, List.getElem?_map, hs]
  simp only [Option.map_some, (h.getElem? hs).1, eq_comm (a := sliceId)]
  split_ifs
  · rw [hf]
  · rfl

/-! ### Runs -/

variable (o draws) (intervalSeconds : ℚ)

/-- A new order after some calls. -/
def after (calls : List TWAPRun.Call) : TWAPRun := run TWAPRun.step (o.start draws intervalSeconds) calls

/-- Some call of `next_slice` has returned the slice. -/
def Issued (i : ℕ) : List TWAPRun.Call → Prop :=
  Occurs fun before call => ∃ now slice, call = .nextSlice now ∧
    ((o.after draws intervalSeconds before).nextSlice now).1 = some slice ∧ slice.sliceNumber = i

/-- The slice has been recorded as filled or failed after it was issued. -/
def Recorded (i : ℕ) : List TWAPRun.Call → Prop :=
  Occurs fun before call => o.Issued draws intervalSeconds i before ∧
    ((∃ price size, call = .recordFill (o.sliceId i) price size) ∨ call = .recordFailure (o.sliceId i))

/-- The slice has been filled after it was issued, and has not failed since. -/
def FilledLast (i : ℕ) : List TWAPRun.Call → Prop :=
  Since (fun before call => o.Issued draws intervalSeconds i before ∧
    ∃ price size, call = .recordFill (o.sliceId i) price size)
    fun call => call ≠ .recordFailure (o.sliceId i)

/-- An order whose slices all have an outcome is complete. -/
def Finishes : Prop :=
  ∀ calls, (∀ i < o.numSlices, o.Issued draws intervalSeconds i calls) →
    (∀ i < o.numSlices, o.Recorded draws intervalSeconds i calls) →
    (o.after draws intervalSeconds calls).isComplete = true

/-- What the calls so far say of a run: which slices are issued, and which are filled. -/
structure Agrees (calls : List TWAPRun.Call) : Prop where
  tracks : Tracks o (o.after draws intervalSeconds calls)
  issued : ∀ i, o.Issued draws intervalSeconds i calls ↔
    i < (o.after draws intervalSeconds calls).nextSliceIdx
  filled : ∀ i < o.numSlices, o.FilledLast draws intervalSeconds i calls ↔
    i < (o.after draws intervalSeconds calls).nextSliceIdx ∧
      (o.after draws intervalSeconds calls).statusAt i = some .filled

variable {o draws intervalSeconds} {calls : List TWAPRun.Call}

@[simp] lemma after_concat (call : TWAPRun.Call) :
    o.after draws intervalSeconds (calls ++ [call]) = (o.after draws intervalSeconds calls).step call :=
  run_concat _ _ _ _

lemma issued_concat {i : ℕ} {call : TWAPRun.Call} :
    o.Issued draws intervalSeconds i (calls ++ [call]) ↔
      o.Issued draws intervalSeconds i calls ∨ ∃ now slice, call = .nextSlice now ∧
        ((o.after draws intervalSeconds calls).nextSlice now).1 = some slice ∧ slice.sliceNumber = i :=
  occurs_concat

lemma filledLast_concat {i : ℕ} {call : TWAPRun.Call} :
    o.FilledLast draws intervalSeconds i (calls ++ [call]) ↔
      o.FilledLast draws intervalSeconds i calls ∧ call ≠ .recordFailure (o.sliceId i) ∨
        o.Issued draws intervalSeconds i calls ∧
          ∃ price size, call = .recordFill (o.sliceId i) price size :=
  since_concat

lemma Agrees.start : Agrees o draws intervalSeconds [] := by
  refine ⟨tracks_start o draws intervalSeconds, fun i => ?_, fun i _ => ?_⟩
  · exact iff_of_false not_occurs_nil (Nat.not_lt_zero i)
  · exact iff_of_false not_since_nil fun h => Nat.not_lt_zero i h.1

/-- A call of `next_slice` that submits a slice: it is issued, and not filled. -/
lemma Agrees.nextSlice (h : Agrees o draws intervalSeconds calls) (now : ℚ) :
    Agrees o draws intervalSeconds (calls ++ [.nextSlice now]) := by
  have hfill : ∀ i, o.FilledLast draws intervalSeconds i (calls ++ [.nextSlice now]) ↔
      o.FilledLast draws intervalSeconds i calls := by
    intro i
    simp [filledLast_concat]
  rcases TWAPRun.nextSlice_cases now (o.after draws intervalSeconds calls) with
    hnone | ⟨slice, hslice, hsome⟩
  · have hafter : o.after draws intervalSeconds (calls ++ [.nextSlice now]) =
        o.after draws intervalSeconds calls := by
      rw [after_concat, TWAPRun.step, hnone]
    refine ⟨hafter ▸ h.tracks, fun i => ?_, fun i hi => ?_⟩
    · rw [issued_concat, hafter, ← h.issued]
      simp [hnone]
    · rw [hfill, hafter, h.filled i hi]
  · have hafter : o.after draws intervalSeconds (calls ++ [.nextSlice now]) =
        (o.after draws intervalSeconds calls).submit now slice := by
      rw [after_concat, TWAPRun.step, hsome]
    have hnumber := (h.tracks.getElem? hslice).2
    refine ⟨hafter ▸ h.tracks.submit hslice, fun i => ?_, fun i hi => ?_⟩
    · rw [issued_concat, hafter, h.issued, TWAPRun.submit, Nat.lt_succ_iff_lt_or_eq]
      apply or_congr_right
      constructor
      · rintro ⟨now', issued, hcall, hissued, rfl⟩
        obtain rfl := TWAPRun.Call.nextSlice.inj hcall
        rw [hsome] at hissued
        obtain rfl := Option.some.inj hissued
        exact hnumber
      · rintro rfl
        exact ⟨now, { slice with status := .submitted }, rfl, congrArg Prod.fst hsome, hnumber⟩
    · rw [hfill, hafter, h.filled i hi, TWAPRun.statusAt_submit hslice]
      by_cases heq : (o.after draws intervalSeconds calls).nextSliceIdx = i
      · simp [heq]
      · have hlt : i < (o.after draws intervalSeconds calls).nextSliceIdx + 1 ↔
            i < (o.after draws intervalSeconds calls).nextSliceIdx := by omega
        rw [if_neg heq, TWAPRun.submit, hlt]

lemma Agrees.recordFill (h : Agrees o draws intervalSeconds calls) (sliceId : String) (price size : ℚ) :
    Agrees o draws intervalSeconds (calls ++ [.recordFill sliceId price size]) := by
  have hafter : o.after draws intervalSeconds (calls ++ [.recordFill sliceId price size]) =
      ((o.after draws intervalSeconds calls).recordFill sliceId price size).2 := by
    rw [after_concat, TWAPRun.step]
  refine ⟨?_, fun i => ?_, fun i hi => ?_⟩
  · rw [hafter]
    exact h.tracks.record sliceId fun _ => rfl
  · rw [issued_concat, hafter, h.issued]
    simp [TWAPRun.recordFill]
  · have hstatus := h.tracks.statusAt_record sliceId (f := TWAPRun.fill price size)
      (fun _ => rfl) hi
    rw [filledLast_concat, hafter, h.filled i hi, h.issued]
    simp only [TWAPRun.recordFill, hstatus]
    by_cases hid : sliceId = o.sliceId i
    · simp only [hid, if_true, and_true, ne_eq, reduceCtorEq, not_false_eq_true,
        TWAPRun.Call.recordFill.injEq, true_and, exists_and_left, exists_eq']
      exact or_iff_right_of_imp And.left
    · simp [hid]

lemma Agrees.recordFailure (h : Agrees o draws intervalSeconds calls) (sliceId : String) :
    Agrees o draws intervalSeconds (calls ++ [.recordFailure sliceId]) := by
  have hafter : o.after draws intervalSeconds (calls ++ [.recordFailure sliceId]) =
      ((o.after draws intervalSeconds calls).recordFailure sliceId).2 := by
    rw [after_concat, TWAPRun.step]
  refine ⟨?_, fun i => ?_, fun i hi => ?_⟩
  · rw [hafter]
    exact h.tracks.record sliceId fun _ => rfl
  · rw [issued_concat, hafter, h.issued]
    simp [TWAPRun.recordFailure]
  · have hstatus := h.tracks.statusAt_record sliceId (f := TWAPRun.fail) (fun _ => rfl) hi
    rw [filledLast_concat, hafter, h.filled i hi, h.issued]
    simp only [TWAPRun.recordFailure, hstatus]
    by_cases hid : sliceId = o.sliceId i <;> simp [hid]

lemma agrees (calls : List TWAPRun.Call) : Agrees o draws intervalSeconds calls := by
  induction calls using List.reverseRecOn with
  | nil => exact Agrees.start
  | append_singleton calls call ih =>
    cases call with
    | nextSlice now => exact ih.nextSlice now
    | recordFill sliceId price size => exact ih.recordFill sliceId price size
    | recordFailure sliceId => exact ih.recordFailure sliceId

/-- With all slices issued there is nothing left to submit. -/
lemma nextSlice_of_issued (hissued : ∀ i < o.numSlices, o.Issued draws intervalSeconds i calls) (now : ℚ) :
    (o.after draws intervalSeconds calls).nextSlice now = (none, o.after draws intervalSeconds calls) := by
  rcases TWAPRun.nextSlice_cases now (o.after draws intervalSeconds calls) with
    hnone | ⟨slice, hslice, -⟩
  · exact hnone
  · have hlt : (o.after draws intervalSeconds calls).nextSliceIdx < o.numSlices :=
      (agrees calls).tracks.length ▸ (List.getElem?_eq_some_iff.mp hslice).1
    exact absurd (((agrees calls).issued _).mp (hissued _ hlt)) (lt_irrefl _)

lemma after_polls (hissued : ∀ i < o.numSlices, o.Issued draws intervalSeconds i calls) (nows : List ℚ) :
    o.after draws intervalSeconds (calls ++ nows.map .nextSlice) = o.after draws intervalSeconds calls := by
  induction nows using List.reverseRecOn with
  | nil => simp
  | append_singleton nows now ih =>
    rw [List.map_append, List.map_singleton, ← List.append_assoc, after_concat, TWAPRun.step, ih,
      nextSlice_of_issued hissued]

/-- Once all slices are issued the order is complete just when each has been filled and has not failed
since. Further calls of `next_slice`, all that the loop over it makes, change nothing. -/
theorem isComplete_iff_filledLast (o : TWAPOrder) (draws : ℕ → ℚ) (intervalSeconds : ℚ)
    (calls : List TWAPRun.Call) (hissued : ∀ i < o.numSlices, o.Issued draws intervalSeconds i calls)
    (nows : List ℚ) :
    (o.after draws intervalSeconds (calls ++ nows.map .nextSlice)).isComplete = true ↔
      ∀ i < o.numSlices, o.FilledLast draws intervalSeconds i calls := by
  obtain ⟨htracks, hidx, hfilled⟩ : Agrees o draws intervalSeconds calls := agrees calls
  rw [after_polls hissued, TWAPRun.isComplete_iff htracks.cancelled, TWAPRun.forall_filled_iff,
    htracks.length]
  refine forall₂_congr fun i hi => ?_
  rw [hfilled i hi, and_iff_right ((hidx i).mp (hissued i hi))]

/-- An order of one slice. -/
def oneSlice : TWAPOrder where
  orderId := "twap-1"
  tokenId := "0xabc"
  side := "BUY"
  totalSize := 10
  priceLimit := 11 / 20
  numSlices := 1

lemma issued_oneSlice (calls : List TWAPRun.Call) :
    ∀ i < oneSlice.numSlices, oneSlice.Issued 0 30 i (.nextSlice 1 :: calls) := by
  intro i hi
  obtain rfl : i = 0 := Nat.lt_one_iff.mp hi
  refine ⟨[], _, calls, rfl, ⟨1, _, rfl, rfl, rfl⟩, fun _ _ => trivial⟩

/-- Its only slice fails, and the order is not complete. -/
theorem not_finishes_oneSlice : ¬ oneSlice.Finishes 0 30 := by
  intro h
  have hrecorded : ∀ i < oneSlice.numSlices,
      oneSlice.Recorded 0 30 i [.nextSlice 1, .recordFailure "twap-1-s0"] := by
    intro i hi
    obtain rfl : i = 0 := Nat.lt_one_iff.mp hi
    exact ⟨[.nextSlice 1], _, [], rfl, ⟨issued_oneSlice [] 0 hi, Or.inr rfl⟩, fun _ _ => trivial⟩
  have hcomplete := h _ (issued_oneSlice _) hrecorded
  exact absurd hcomplete (by decide +kernel)

/-- Filled instead, it is. -/
theorem isComplete_iff_filledLast_oneSlice :
    (oneSlice.after 0 30
      ([.nextSlice 1, .recordFill "twap-1-s0" (1 / 2) 10] ++ [2].map .nextSlice)).isComplete = true ↔
    ∀ i < 1, oneSlice.FilledLast 0 30 i [.nextSlice 1, .recordFill "twap-1-s0" (1 / 2) 10] :=
  isComplete_iff_filledLast oneSlice 0 30 _ (issued_oneSlice _) [2]

end TWAPOrder
end PolyCortex
