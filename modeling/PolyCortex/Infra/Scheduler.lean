import PolyCortex.Data.DateTime
import PolyCortex.Data.Dict
import PolyCortex.Machine.History
import PolyCortex.Numeric.Rounding

/-!
# The interval scheduler

`IntervalScheduler`: when each job ran last, in memory and in a JSON file that a new process reads. A
write can fail, before the file is opened or while it is written. As long as each restart finds what was
written last, a job is due again when its interval has passed since it ran, no sooner and no later,
whatever ran or restarted meanwhile (`due_iff`).
-/

namespace PolyCortex

open Machine

/-- The days of the months before one. -/
def daysBefore (year month : ℕ) : ℕ := ((List.range' 1 (month - 1)).map (daysInMonth year)).sum

/-- Microseconds since 1970, which differences of datetimes are counted in. -/
def DateTime.toTime (t : DateTime) : ℤ :=
  let day := newYear t.1.year + daysBefore t.1.year t.1.month + (t.1.day - 1)
  ((day * 24 + t.1.hour) * 3600 + t.1.minute * 60 + t.1.second) * 1000000 + t.1.microsecond

/-- `timedelta(days=days)`. -/
def timedelta (days : ℚ) : ℤ := Rounding.roundHalfEven (days * 86400 * 1000000)

/-- The file of the state: none, one that cannot be decoded, or one with the times of the jobs. -/
abbrev StateFile := Option (Option (Dict String String))

structure IntervalScheduler where
  state : Dict String String
  file : StateFile

namespace IntervalScheduler

/-- `_load`, of a new process. -/
def load (file : StateFile) : IntervalScheduler where
  state := (file.getD none).getD .empty
  file

inductive WriteOutcome where
  | written
  /-- the file is not opened -/
  | failed
  /-- the file is cut off -/
  | torn
  deriving DecidableEq, Repr

/-- `_save`, which raises nothing. -/
def save (outcome : WriteOutcome) (s : IntervalScheduler) : IntervalScheduler :=
  match outcome with
  | .written => { s with file := some (some s.state) }
  | .failed => s
  | .torn => { s with file := some none }

section

variable (others : String → Except PyError DateTime)

/-- `last_run`. -/
def lastRun (jobName : String) (s : IntervalScheduler) : Option DateTime :=
  match s.state.get? jobName with
  | none => none
  | some ts =>
    if ts = "" then none
    else
      match DateTime.fromIsoformat others (.str ts) with
      | .ok last => some last
      | .error _ => none

/-- `due`. -/
def due (jobName : String) (intervalDays : ℚ) (now : DateTime) (s : IntervalScheduler) : Bool :=
  if intervalDays ≤ 0 then false
  else
    match lastRun others jobName s with
    | none => true
    | some last => timedelta intervalDays ≤ now.toTime - last.toTime

end

/-- `mark_ran`. -/
def markRan (jobName : String) (now : DateTime) (outcome : WriteOutcome) (s : IntervalScheduler) :
    IntervalScheduler :=
  save outcome { s with state := s.state.set jobName now.isoformat }

/-! ### Runs -/

inductive SchedulerEvent where
  | markRan (jobName : String) (now : DateTime) (outcome : WriteOutcome)
  /-- a new process reads the file -/
  | restart

def step (s : IntervalScheduler) : SchedulerEvent → IntervalScheduler
  | .markRan jobName now outcome => s.markRan jobName now outcome
  | .restart => load s.file

/-- The first process finds no file. -/
def after (events : List SchedulerEvent) : IntervalScheduler := run step (load none) events

def SchedulerEvent.Marks (jobName : String) : SchedulerEvent → Prop
  | .markRan name _ _ => name = jobName
  | .restart => False

/-- The last write, of those since the job was marked with the first outcome, has succeeded. -/
def Saved (outcome : WriteOutcome) (later : List SchedulerEvent) : Prop :=
  run (fun last event => match event with
    | .markRan _ _ outcome => outcome
    | .restart => last) outcome later = .written

/-- Each restart finds what was written last. -/
def Durable (outcome : WriteOutcome) (later : List SchedulerEvent) : Prop :=
  ∀ before after, later = before ++ .restart :: after → Saved outcome before

variable {others : String → Except PyError DateTime} {jobName : String} {now : DateTime}
  {outcome : WriteOutcome} {later events : List SchedulerEvent} {event : SchedulerEvent}
  {s : IntervalScheduler}

lemma isoformat_ne_empty (t : DateTime) : t.isoformat ≠ "" := by
  intro hempty
  have hchars : t.isoChars = [] := by
    rw [← String.toList_ofList (l := t.isoChars)]
    exact congrArg String.toList hempty
  simp [DateTime.isoChars] at hchars

/-- A time that was written is read back. -/
lemma lastRun_of_get? (h : s.state.get? jobName = some now.isoformat) :
    lastRun others jobName s = some now := by
  simp [lastRun, h, isoformat_ne_empty]

lemma lastRun_of_none (h : s.state.get? jobName = none) : lastRun others jobName s = none := by
  simp [lastRun, h]

lemma due_of_lastRun {intervalDays : ℚ} {now' : DateTime} (h : lastRun others jobName s = some now) :
    due others jobName intervalDays now' s = true ↔
      0 < intervalDays ∧ timedelta intervalDays ≤ now'.toTime - now.toTime := by
  rw [due, h]
  split_ifs with hinterval
  · simp [hinterval.not_gt]
  · simp [not_le.mp hinterval]

lemma due_of_none {intervalDays : ℚ} {now' : DateTime} (h : lastRun others jobName s = none) :
    due others jobName intervalDays now' s = true ↔ 0 < intervalDays := by
  rw [due, h]
  split_ifs with hinterval
  · simp [hinterval.not_gt]
  · simp [not_le.mp hinterval]

/-! ### Steps -/

@[simp] lemma state_save (outcome : WriteOutcome) (s : IntervalScheduler) :
    (save outcome s).state = s.state := by
  cases outcome <;> rfl

@[simp] lemma state_load (d : Dict String String) : (load (some (some d))).state = d := rfl

lemma state_markRan (s : IntervalScheduler) :
    (s.markRan jobName now outcome).state = s.state.set jobName now.isoformat := state_save _ _

lemma file_markRan (s : IntervalScheduler) : (s.markRan jobName now .written).file =
    some (some (s.state.set jobName now.isoformat)) := rfl

/-- The memory has the time, and so has the file when the last write has succeeded. -/
structure Remembers (jobName : String) (now : DateTime) (outcome : WriteOutcome)
    (later : List SchedulerEvent) (s : IntervalScheduler) : Prop where
  state : s.state.get? jobName = some now.isoformat
  file : Saved outcome later → ∃ d, s.file = some (some d) ∧ d.get? jobName = some now.isoformat

lemma remembers_markRan (s : IntervalScheduler) :
    Remembers jobName now outcome [] (s.markRan jobName now outcome) where
  state := by rw [state_markRan, Dict.get?_set_self]
  file := by
    rintro rfl
    exact ⟨_, file_markRan s, Dict.get?_set_self _ _ _⟩

lemma Remembers.step (h : Remembers jobName now outcome later s) (hevent : ¬ event.Marks jobName)
    (hdurable : event = .restart → Saved outcome later) :
    Remembers jobName now outcome (later ++ [event]) (s.step event) := by
  cases event with
  | markRan name time last =>
    have hget : (s.state.set name time.isoformat).get? jobName = some now.isoformat := by
      rw [Dict.get?_set_of_ne _ (Ne.symm hevent), h.state]
    refine ⟨by rw [IntervalScheduler.step, state_markRan, hget], fun hsaved => ?_⟩
    rw [Saved, run_concat] at hsaved
    obtain rfl : last = .written := hsaved
    exact ⟨_, file_markRan s, hget⟩
  | restart =>
    obtain ⟨d, hfile, hget⟩ := h.file (hdurable rfl)
    refine ⟨?_, fun _ => ⟨d, hfile, hget⟩⟩
    rw [IntervalScheduler.step, hfile, state_load, hget]

lemma Remembers.run (h : Remembers jobName now outcome [] s) (hlater : ∀ event ∈ later, ¬ event.Marks jobName)
    (hdurable : Durable outcome later) :
    Remembers jobName now outcome later (Machine.run IntervalScheduler.step s later) := by
  induction later using List.reverseRecOn with
  | nil => exact h
  | append_singleton later event ih =>
    have hbefore : Durable outcome later := fun before after hsplit =>
      hdurable before (after ++ [event]) (by simp [hsplit])
    rw [run_concat]
    refine (ih (fun e he => hlater e (List.mem_append_left _ he)) hbefore).step (hlater event (by simp)) ?_
    rintro rfl
    exact hdurable later [] rfl

/-- Neither the memory nor the file has a time. -/
def Forgets (jobName : String) (s : IntervalScheduler) : Prop :=
  s.state.get? jobName = none ∧ ∀ d, s.file = some (some d) → d.get? jobName = none

lemma Forgets.step (h : Forgets jobName s) (hevent : ¬ event.Marks jobName) :
    Forgets jobName (s.step event) := by
  cases event with
  | markRan name time last =>
    have hget : (s.state.set name time.isoformat).get? jobName = none := by
      rw [Dict.get?_set_of_ne _ (Ne.symm hevent), h.1]
    refine ⟨by rw [IntervalScheduler.step, state_markRan, hget], fun d hfile => ?_⟩
    cases last with
    | written =>
      rw [IntervalScheduler.step, file_markRan] at hfile
      rw [← Option.some.inj (Option.some.inj hfile), hget]
    | failed => exact h.2 d hfile
    | torn => cases Option.some.inj hfile
  | restart =>
    refine ⟨?_, h.2⟩
    rw [IntervalScheduler.step, load]
    rcases hfile : s.file with _ | _ | d
    · rfl
    · rfl
    · exact h.2 d hfile

lemma forgets_after (h : ∀ event ∈ events, ¬ event.Marks jobName) : Forgets jobName (after events) := by
  induction events using List.reverseRecOn with
  | nil => exact ⟨rfl, fun _ hfile => by cases hfile⟩
  | append_singleton events event ih =>
    rw [after, run_concat]
    exact (ih fun e he => h e (List.mem_append_left _ he)).step (h event (by simp))

/-- A job that never ran is due, unless its interval is not positive. -/
theorem due_of_never (others : String → Except PyError DateTime)
    (h : ∀ event ∈ events, ¬ event.Marks jobName) (intervalDays : ℚ) (now : DateTime) :
    due others jobName intervalDays now (after events) = true ↔ 0 < intervalDays :=
  due_of_none (lastRun_of_none (forgets_after h).1)

/-- A job that ran is due again when its interval has passed, whatever happened before, whichever other
jobs ran and however often the process was restarted since. -/
theorem due_iff (others : String → Except PyError DateTime) (events : List SchedulerEvent)
    (last : DateTime) (hlater : ∀ event ∈ later, ¬ event.Marks jobName) (hdurable : Durable outcome later)
    (intervalDays : ℚ) (now : DateTime) :
    due others jobName intervalDays now (after (events ++ .markRan jobName last outcome :: later)) = true ↔
      0 < intervalDays ∧ timedelta intervalDays ≤ now.toTime - last.toTime := by
  have hremembers : Remembers jobName last outcome later _ :=
    (remembers_markRan (after events)).run hlater hdurable
  rw [after, run_append, run_cons]
  exact due_of_lastRun (lastRun_of_get? hremembers.state)

/-- A day of January 2026, counted from 0. -/
def january (day : Fin 31) : DateTime := ⟨⟨2026, 1, day + 1, 0, 0, 0, 0⟩, by decide +revert⟩

theorem due_iff_restarted :
    due (fun _ => .error .valueError) "tcn_retrain" 7 (january 9)
      (after ([] ++ .markRan "tcn_retrain" (january 1) .written ::
        [.restart, .markRan "regime_refit" (january 3) .written, .restart])) = true ↔
      (0 : ℚ) < 7 ∧ timedelta 7 ≤ (january 9).toTime - (january 1).toTime := by
  refine due_iff _ [] (january 1) ?_ ?_ 7 (january 9)
  · simp [SchedulerEvent.Marks]
  · intro before after hsplit
    match before with
    | [] => rfl
    | [_] => simp at hsplit
    | [_, _] =>
      obtain ⟨rfl, rfl, -⟩ := by simpa using hsplit
      rfl
    | _ :: _ :: _ :: before => simp at hsplit

end IntervalScheduler
end PolyCortex
