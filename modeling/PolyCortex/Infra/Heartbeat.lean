import PolyCortex.Infra.Scheduler

/-!
# The heartbeat and its two watchers

`HeartbeatMonitor.beat` writes a record after each cycle of the agent. `is_stale` and the health check of
the container both read it. The monitor is right about the last beat that was written. The health check
takes the timestamp for a number of seconds, while a beat writes a text: it never passes, not even right
after a beat (`watchers_after`).
-/

namespace PolyCortex.HeartbeatMonitor

open Machine IntervalScheduler

/-! ### The monitor -/

/-- The record of a beat. -/
def beatRecord (now : DateTime) (pid : ℤ) (cycleMetrics : PersistedValue) : PersistedValue :=
  .obj [("timestamp", .str now.isoformat), ("pid", .int pid), ("cycle_metrics", cycleMetrics)]

/-- `beat`; errors are logged only. -/
def beat (now : DateTime) (pid : ℤ) (cycleMetrics : PersistedValue) (outcome : WriteOutcome)
    (file : PersistedFile) : PersistedFile :=
  match outcome with
  | .written => some (.ok (beatRecord now pid cycleMetrics))
  | .failed => file
  | .torn => some (.error .jsonDecodeError)

/-- `get_last_beat`. -/
def getLastBeat : PersistedFile → Option PersistedValue
  | some (.ok data) => some data
  | _ => none

/-- `is_stale`, with the minutes since the last beat, `none` for infinity. -/
def isStale (others : String → Except PyError DateTime) (maxStaleMinutes : ℚ) (now : DateTime)
    (file : PersistedFile) : Bool × Option ℚ :=
  match getLastBeat file with
  | none => (true, none)
  | some data =>
    let elapsed : Except PyError ℚ := do
      let last ← DateTime.fromIsoformat others (← data.getItem "timestamp")
      pure ((now.toTime - last.toTime : ℤ) / 60000000)
    match elapsed with
    | .ok elapsed => (maxStaleMinutes < elapsed, some elapsed)
    | .error _ => (true, none)

/-! ### The health check of the container -/

/-- What `os.kill(pid, 0)` does. -/
inductive KillResult where
  | alive
  | processLookupError
  | permissionError
  | otherError

inductive HealthProblem where
  | missing
  | unreadable
  | noTimestamp
  | stale
  | notRunning

/-- What a check returns, or that it raises something. -/
inductive CheckResult where
  | returns (problem : Option HealthProblem)
  | raises

def maxHeartbeatAgeSeconds : ℚ := 30 * 60

/-- `time.time() - ts`, unless it raises. -/
def age (now : ℚ) : PersistedValue → Option PyFloat
  | .int z => if |z| < PersistedValue.floatOverflow then some (.finite (now - z)) else none
  | .float x => some (.finite now - x)
  | .bool b => some (.finite (now - if b then 1 else 0))
  | .str _ => none
  | .null => none
  | .arr _ => none
  | .obj _ => none

/-- The last part of `check_heartbeat`, that the process runs. -/
def checkPid (kill : ℤ → KillResult) : PersistedValue → CheckResult
  | .null => .returns none
  | .int pid =>
    match kill pid with
    | .alive => .returns none
    | .processLookupError => .returns (some .notRunning)
    | .permissionError => .returns none
    | .otherError => .raises
  | .bool b =>
    match kill (if b then 1 else 0) with
    | .alive => .returns none
    | .processLookupError => .returns (some .notRunning)
    | .permissionError => .returns none
    | .otherError => .raises
  | _ => .raises

/-- `check_heartbeat`. -/
def checkHeartbeat (kill : ℤ → KillResult) (now : ℚ) : PersistedFile → CheckResult
  | none => .returns (some .missing)
  | some (.error .jsonDecodeError) => .returns (some .unreadable)
  | some (.error .osError) => .returns (some .unreadable)
  | some (.error _) => .raises
  | some (.ok (.obj fields)) =>
    match (fields.lookup "timestamp").getD .null with
    | .null => .returns (some .noTimestamp)
    | ts =>
      match age now ts with
      | none => .raises
      | some age =>
        if .finite maxHeartbeatAgeSeconds < age then .returns (some .stale)
        else checkPid kill ((fields.lookup "pid").getD .null)
  | some (.ok _) => .raises

/-- The exit code of the script, by its checks in their order. -/
def exitCode (heartbeat database diskSpace : CheckResult) : ℕ :=
  match heartbeat, database, diskSpace with
  | .returns none, .returns none, .returns none => 0
  | _, _, _ => 1

/-! ### Runs -/

structure Beat where
  now : DateTime
  pid : ℤ
  cycleMetrics : PersistedValue
  outcome : WriteOutcome

/-- The file after the beats, from none on. -/
def fileAfter (beats : List Beat) : PersistedFile :=
  run (fun file b => beat b.now b.pid b.cycleMetrics b.outcome file) none beats

/-- The time of the beat that was written last, unless the file has been cut off since. -/
def lastWritten (beats : List Beat) : Option DateTime :=
  run (fun last b => match b.outcome with
    | .written => some b.now
    | .failed => last
    | .torn => none) none beats

/-- The file holds the record of a beat at the time, if there is one, and no record otherwise. -/
def Holds (file : PersistedFile) : Option DateTime → Prop
  | some last => ∃ pid cycleMetrics, file = some (.ok (beatRecord last pid cycleMetrics))
  | none => file = none ∨ file = some (.error .jsonDecodeError)

lemma holds_fileAfter (beats : List Beat) : Holds (fileAfter beats) (lastWritten beats) := by
  induction beats using List.reverseRecOn with
  | nil => exact Or.inl rfl
  | append_singleton beats b ih =>
    rw [fileAfter, lastWritten, run_concat, run_concat]
    obtain ⟨now, pid, cycleMetrics, outcome⟩ := b
    cases outcome with
    | written => exact ⟨pid, cycleMetrics, rfl⟩
    | failed => exact ih
    | torn => exact Or.inr rfl

variable {file : PersistedFile} {kill : ℤ → KillResult}

lemma isStale_beatRecord (others : String → Except PyError DateTime) (maxStaleMinutes : ℚ)
    (now last : DateTime) (pid : ℤ) (cycleMetrics : PersistedValue) :
    isStale others maxStaleMinutes now (some (.ok (beatRecord last pid cycleMetrics))) =
      (decide (maxStaleMinutes < ((now.toTime - last.toTime : ℤ) : ℚ) / 60000000),
        some (((now.toTime - last.toTime : ℤ) : ℚ) / 60000000)) := by
  have hread : (beatRecord last pid cycleMetrics).getItem "timestamp" = .ok (.str last.isoformat) := rfl
  have htime : (DateTime.fromIsoformat others (.str last.isoformat)) = .ok last :=
    DateTime.fromIsoformat_isoformat others last
  rw [isStale, getLastBeat]
  simp only [hread, htime, bind, Except.bind, pure, Except.pure]

/-- Only seconds can be subtracted from the time. -/
lemma checkHeartbeat_beatRecord (now : ℚ) (last : DateTime) (pid : ℤ) (cycleMetrics : PersistedValue) :
    checkHeartbeat kill now (some (.ok (beatRecord last pid cycleMetrics))) = .raises := rfl

/-- A record that has its time in seconds does pass while it is young enough and its process runs. -/
lemma exitCode_of_seconds {now : ℚ} {timestamp pid : ℤ} (hfloat : |timestamp| < PersistedValue.floatOverflow)
    (hage : now - timestamp ≤ maxHeartbeatAgeSeconds) (hkill : kill pid = .alive) :
    exitCode (checkHeartbeat kill now (some (.ok (.obj [("timestamp", .int timestamp), ("pid", .int pid)]))))
      (.returns none) (.returns none) = 0 := by
  have hyoung : ¬ PyFloat.finite maxHeartbeatAgeSeconds < .finite (now - timestamp) := by
    rw [PyFloat.finite_lt]
    exact not_lt.mpr hage
  have hpid : [("timestamp", PersistedValue.int timestamp), ("pid", .int pid)].lookup "pid" = some (.int pid) :=
    rfl
  simp [checkHeartbeat, age, hfloat, hyoung, hpid, checkPid, hkill, exitCode]

/-- What is not healthy ends with 1. -/
lemma exitCode_of_ne {heartbeat : CheckResult} (h : heartbeat ≠ .returns none)
    (database diskSpace : CheckResult) : exitCode heartbeat database diskSpace = 1 := by
  cases heartbeat with
  | raises => rfl
  | returns problem =>
    cases problem with
    | none => exact absurd rfl h
    | some problem => rfl

/-- After any beats the monitor knows how long ago the last one was that was written, while the health
check fails, at any time and whatever else it finds. -/
theorem watchers_after (others : String → Except PyError DateTime) (maxStaleMinutes : ℚ) (beats : List Beat) :
    (∀ now, isStale others maxStaleMinutes now (fileAfter beats) =
      match lastWritten beats with
      | none => (true, none)
      | some last =>
        let minutes : ℚ := (now.toTime - last.toTime : ℤ) / 60000000
        (decide (maxStaleMinutes < minutes), some minutes)) ∧
    ∀ kill now database diskSpace,
      exitCode (checkHeartbeat kill now (fileAfter beats)) database diskSpace = 1 := by
  have hholds := holds_fileAfter beats
  cases hlast : lastWritten beats with
  | none =>
    rw [hlast] at hholds
    rcases hholds with hfile | hfile
    · rw [hfile]
      exact ⟨fun _ => rfl, fun _ _ _ _ => exitCode_of_ne (by simp [checkHeartbeat]) _ _⟩
    · rw [hfile]
      exact ⟨fun _ => rfl, fun _ _ _ _ => exitCode_of_ne (by simp [checkHeartbeat]) _ _⟩
  | some last =>
    rw [hlast] at hholds
    obtain ⟨pid, cycleMetrics, hfile⟩ := hholds
    rw [hfile]
    refine ⟨fun now => isStale_beatRecord others maxStaleMinutes now last pid cycleMetrics, fun kill now _ _ => ?_⟩
    exact exitCode_of_ne (by rw [checkHeartbeat_beatRecord]; simp) _ _

end PolyCortex.HeartbeatMonitor
