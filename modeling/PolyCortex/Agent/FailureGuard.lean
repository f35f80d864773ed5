import PolyCortex.Agent.Halting

/-!
# Failures in a row

`run_forever` runs a cycle at a time, and pauses for an hour instead when `max_consecutive_failures`
cycles have failed; the pause sets the count to zero. What stops the trading is the kill switch: it is
engaged with the failure that reaches the limit and by an emergency drawdown. From then on every cycle is
skipped, whatever the pauses do to the count, until someone else writes or removes the file
(`run_guarded`).
-/

namespace PolyCortex

namespace TradingAgent

variable {d : Deployment} {a : TradingAgent} {events : List AgentEvent} {event : AgentEvent}

/-- What `run_forever` does between two awaits: cycles are run one at a time while there are not too many
failures, and it pauses when there are. Everything else may happen at any time. -/
def Scheduled (d : Deployment) (a : TradingAgent) : AgentEvent → Prop
  | .beginCycle _ => a.inCycle = false ∧ (a.consecutiveFailures : ℤ) < d.maxFailures
  | .endCycle _ _ => a.inCycle = true
  | .pause => a.inCycle = false ∧ d.maxFailures ≤ a.consecutiveFailures
  | .call _ _ _ | .answer _ _ | .changeFile _ _ => True

instance (d : Deployment) (a : TradingAgent) : (event : AgentEvent) → Decidable (a.Scheduled d event)
  | .beginCycle _ | .pause => inferInstanceAs (Decidable (_ ∧ _))
  | .endCycle _ _ => inferInstanceAs (Decidable (_ = _))
  | .call _ _ _ | .answer _ _ | .changeFile _ _ => isTrue trivial

/-- What somebody sees who counts the failed cycles: how many there are in a row, and whether the limit
has been reached or there was an emergency. Both start again when the file of the switch is changed from
outside. -/
structure Watch where
  streak : ℕ := 0
  tripped : Bool := false
  deriving DecidableEq

def Watch.step (d : Deployment) (w : Watch) : AgentEvent → Watch
  | .endCycle .finished _ => { w with streak := 0 }
  | .endCycle .failed _ =>
    ⟨w.streak + 1, w.tripped || decide (d.maxFailures ≤ (w.streak + 1 : ℕ))⟩
  | .endCycle .emergency _ => { w with tripped := true }
  | .changeFile location _ => if location = d.agentSwitch.location d.cwd then {} else w
  | .beginCycle _ | .pause | .call _ _ _ | .answer _ _ => w

def watch (d : Deployment) (events : List AgentEvent) : Watch := events.foldl (Watch.step d) {}

@[simp] lemma watch_concat (events : List AgentEvent) (event : AgentEvent) :
    watch d (events ++ [event]) = (watch d events).step d event := by
  simp [watch]

/-- After the limit or an emergency the switch is active and no cycle is under way. -/
structure Guarded (d : Deployment) (w : Watch) (a : TradingAgent) : Prop where
  halted : w.tripped = true → a.Halted d
  idle : w.tripped = true → a.inCycle = false
  below : w.tripped = false → w.streak = 0 ∨ (w.streak : ℤ) < d.maxFailures

/-- The count of the agent is at least the one from outside wherever it matters. -/
structure Counted (d : Deployment) (w : Watch) (a : TradingAgent) : Prop extends Guarded d w a where
  inCycle : a.inCycle = true →
    (a.consecutiveFailures : ℤ) < d.maxFailures ∧ w.streak ≤ a.consecutiveFailures
  between : a.Halted d ∨ w.streak ≤ a.consecutiveFailures ∧
    (d.maxFailures ≤ a.consecutiveFailures → w.streak = 0)

lemma halted_concludeCycle (timestamp : String) (h : a.Halted d) :
    (a.concludeCycle d timestamp).Halted d := by
  rw [concludeCycle, Halted, Deployment.concludeCycle]
  split_ifs
  · exact d.halted_halt _ _ _
  · exact h

lemma halted_concludeCycle_of_le (timestamp : String) (h : d.maxFailures ≤ a.consecutiveFailures) :
    (a.concludeCycle d timestamp).Halted d := by
  rw [concludeCycle, Halted, Deployment.concludeCycle, if_pos h]
  exact d.halted_halt _ _ _

/-- A change to another file leaves the switch what it is. -/
lemma halted_changeFile {location : Location} {file : Option File}
    (hother : location ≠ d.agentSwitch.location d.cwd) (h : a.Halted d) :
    Halted d { a with files := a.files.set location file } := by
  rw [Halted, Deployment.Halted, KillSwitch.isActive_iff] at h ⊢
  simpa [Files.set, hother.symm] using h

lemma Counted.step {w : Watch} (h : Counted d w a) (hevent : a.Scheduled d event) :
    Counted d (w.step d event) (a.step d event) := by
  cases event with
  | beginCycle timestamp =>
    rw [TradingAgent.step, Watch.step]
    split_ifs with hhalted
    · have hstays := halted_concludeCycle (a := a) timestamp hhalted
      exact {
        halted := fun _ => hstays
        idle := fun _ => rfl
        below := h.below
        inCycle := fun hin => absurd hin (by simp [concludeCycle])
        between := Or.inl hstays }
    · have hrunning := h.between.resolve_left hhalted
      exact {
        halted := h.halted
        idle := fun htripped => absurd (h.halted htripped) hhalted
        below := h.below
        inCycle := fun _ => ⟨hevent.2, hrunning.1⟩
        between := h.between }
  | endCycle ending timestamp =>
    obtain ⟨hbelow, hcount⟩ := h.inCycle hevent
    have hin : a.inCycle = true := hevent
    have huntripped : w.tripped = false := by
      by_contra htripped
      exact absurd hin (by simp [h.idle (by simpa using htripped)])
    cases ending with
    | finished =>
      exact {
        halted := fun htripped => absurd htripped (by simp [Watch.step, huntripped])
        idle := fun _ => rfl
        below := fun _ => Or.inl rfl
        inCycle := fun hin => absurd hin (by simp [TradingAgent.step, concludeCycle])
        between := Or.inr ⟨Nat.zero_le _, fun _ => rfl⟩ }
    | failed =>
      have hhalts : d.maxFailures ≤ (a.consecutiveFailures + 1 : ℕ) →
          (a.step d (.endCycle .failed timestamp)).Halted d := fun hle =>
        halted_concludeCycle_of_le (a := { a with consecutiveFailures := a.consecutiveFailures + 1 }) _ hle
      exact {
        halted := fun htripped => by
          simp only [Watch.step, huntripped, Bool.false_or, decide_eq_true_eq] at htripped
          exact hhalts (by push_cast at htripped ⊢; omega)
        idle := fun _ => rfl
        below := fun htripped => by
          simp only [Watch.step, huntripped, Bool.false_or, decide_eq_false_iff_not, not_le] at htripped
          exact Or.inr htripped
        inCycle := fun hin => absurd hin (by simp [TradingAgent.step, concludeCycle])
        between := by
          by_cases hlimit : d.maxFailures ≤ (a.consecutiveFailures + 1 : ℕ)
          · exact Or.inl (hhalts hlimit)
          · exact Or.inr ⟨Nat.succ_le_succ hcount, fun hle => absurd hle hlimit⟩ }
    | emergency =>
      have hhalts : (a.step d (.endCycle .emergency timestamp)).Halted d :=
        halted_concludeCycle _ (d.halted_halt _ _ _)
      exact {
        halted := fun _ => hhalts
        idle := fun _ => rfl
        below := fun htripped => absurd htripped (by simp [Watch.step])
        inCycle := fun hin => absurd hin (by simp [TradingAgent.step, concludeCycle])
        between := Or.inl hhalts }
  | pause =>
    exact {
      halted := h.halted
      idle := h.idle
      below := h.below
      inCycle := fun hin => absurd hin (by simp [TradingAgent.step, hevent.1])
      between := h.between.imp_right fun hcount => by
        have hzero : w.streak = 0 := hcount.2 hevent.2
        exact ⟨hzero.le, fun _ => hzero⟩ }
  | call op now ledgerWritable =>
    rw [TradingAgent.step]
    split_ifs
    · exact { h with }
    · exact h
  | answer n reply => exact { h with }
  | changeFile location file =>
    rw [TradingAgent.step, Watch.step]
    split_ifs with hswitch
    · exact {
        halted := fun htripped => absurd htripped Bool.false_ne_true
        idle := fun htripped => absurd htripped Bool.false_ne_true
        below := fun _ => Or.inl rfl
        inCycle := fun hin => ⟨(h.inCycle hin).1, Nat.zero_le _⟩
        between := Or.inr ⟨Nat.zero_le _, fun _ => rfl⟩ }
    · exact { h with
        halted := fun htripped => halted_changeFile hswitch (h.halted htripped)
        between := h.between.imp_left (halted_changeFile hswitch) }

/-- However the trading loop and the world around it interleave: once the limit of failures in a row has
been reached, or there was an emergency, the switch is active and no cycle is under way until its file is
changed from outside; until then there were fewer failures in a row than the limit. -/
theorem run_guarded (hstart : a.inCycle = false)
    (hscheduled : a.Along d (Scheduled d) events) : Guarded d (watch d events) (a.run d events) := by
  have hcounted : Counted d (watch d events) (a.run d events) := by
    induction events using List.reverseRecOn with
    | nil =>
      exact {
        halted := nofun
        idle := nofun
        below := fun _ => Or.inl rfl
        inCycle := fun hin => absurd hin (by simp [run, hstart])
        between := Or.inr ⟨Nat.zero_le _, fun _ => rfl⟩ }
    | append_singleton events event ih =>
      obtain ⟨hbefore, hevent, -⟩ := (along_append _ _ _).mp hscheduled
      rw [watch_concat, run_append]
      exact (ih hbefore).step hevent
  exact hcounted.toGuarded

/-- Two failures reach the limit; after the pause the next cycle is skipped. -/
def twoFailures : List AgentEvent :=
  [.beginCycle "t1", .endCycle .failed "t2", .beginCycle "t3", .endCycle .failed "t4", .pause, .beginCycle "t5"]

theorem run_guarded_twoFailures :
    (fresh.run { startedIn ["app"] {} with maxFailures := 2 } twoFailures).inCycle = false :=
  (run_guarded rfl (by decide +kernel)).idle (by decide +kernel)

end TradingAgent
end PolyCortex
