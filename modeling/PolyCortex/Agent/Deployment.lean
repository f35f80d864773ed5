import PolyCortex.Execution.Executor
import PolyCortex.Risk.KillSwitch

/-!
# How the agent is started

The agent and its executor have a kill switch each. The agent's is a file of the project; the
executor's path is looked up from the working directory unless the settings give an absolute one.
-/

namespace PolyCortex

/-- How the agent is set up and started. -/
structure Deployment where
  cfg : Config
  projectRoot : Location
  cwd : Location
  /-- `kill_switch_path`. -/
  killSwitchPath : Path := defaultKillSwitchPath
  /-- `max_consecutive_failures`. -/
  maxFailures : ℤ := 5

namespace Deployment

/-- `TradingAgent.kill_switch`. -/
def agentSwitch (d : Deployment) : KillSwitch := ⟨⟨true, d.projectRoot ++ ["data", "KILL_SWITCH"]⟩⟩

/-- `OrderExecutor.kill_switch`. -/
def executorSwitch (d : Deployment) : KillSwitch := ⟨d.killSwitchPath⟩

/-- The agent's own kill switch is active. -/
def Halted (d : Deployment) (files : Files) : Prop := (d.agentSwitch.isActive d.cwd files).1 = true

instance (d : Deployment) (files : Files) : Decidable (d.Halted files) :=
  inferInstanceAs (Decidable (_ = _))

/-- What the executor reads of the world when it is called. -/
def ambient (d : Deployment) (files : Files) (now : Time) (ledgerWritable : Bool) : Ambient where
  now
  killSwitch :=
    let (active, reason) := d.executorSwitch.isActive d.cwd files
    if active then some reason else none
  ledgerWritable

/-- Engage the agent's kill switch. -/
def halt (d : Deployment) (timestamp reason : String) (files : Files) : Files :=
  d.agentSwitch.activate d.cwd timestamp reason files

/-- The `finally` block of `run_cycle`: too many failures engage the kill switch. -/
def concludeCycle (d : Deployment) (timestamp : String) (consecutiveFailures : ℕ) (files : Files) :
    Files :=
  if d.maxFailures ≤ consecutiveFailures then
    d.halt timestamp ("Auto-triggered: " ++ toString consecutiveFailures ++ " consecutive failures")
      files
  else files

lemma halted_halt (d : Deployment) (timestamp reason : String) (files : Files) :
    d.Halted (d.halt timestamp reason files) := by
  simp [Halted, halt]

end Deployment
end PolyCortex
