import PolyCortex.Data.Dict
import PolyCortex.Machine.History

/-!
# Alerts

`AlertManager`: conditions on markets that are checked at every update. An alert that fires is done with
unless it repeats, and one that repeats rests for its cooldown. Between two firings of an alert that was
not added again it is neither cancelled nor removed, it repeats, and its cooldown has passed
(`fires_again`). A firing at the time 0 is the exception, as the time of it counts as none.
-/

namespace PolyCortex

open Machine

inductive AlertCondition where
  | priceAbove
  | priceBelow
  | volumeAbove
  | spreadAbove
  deriving DecidableEq, Repr

inductive AlertStatus where
  | active
  | triggered
  | expired
  | cancelled
  deriving DecidableEq, Repr

structure Alert where
  alertId : String
  marketId : String
  condition : AlertCondition
  threshold : ℚ
  status : AlertStatus := .active
  repeating : Bool := false
  cooldownSeconds : ℚ := 300
  lastTriggeredAt : Option ℚ := none
  triggerCount : ℕ := 0
  deriving DecidableEq

/-- The arguments of `check`. -/
structure MarketUpdate where
  marketId : String
  price : ℚ := 0
  volume : ℚ := 0
  spread : ℚ := 0

structure AlertManager where
  alerts : Dict String Alert := .empty
  totalTriggered : ℕ := 0

namespace Alert

/-- The value that meets the condition. -/
def currentValue (update : MarketUpdate) (alert : Alert) : Option ℚ :=
  match alert.condition with
  | .priceAbove => if 0 < update.price ∧ alert.threshold ≤ update.price then some update.price else none
  | .priceBelow => if 0 < update.price ∧ update.price ≤ alert.threshold then some update.price else none
  | .volumeAbove => if 0 < update.volume ∧ alert.threshold ≤ update.volume then some update.volume else none
  | .spreadAbove => if 0 < update.spread ∧ alert.threshold ≤ update.spread then some update.spread else none

/-- `alert.last_triggered_at and alert.repeating and now - alert.last_triggered_at < ...`. -/
def cooling (now : ℚ) (alert : Alert) : Bool :=
  match alert.lastTriggeredAt with
  | none => false
  | some last => decide (last ≠ 0) && alert.repeating && decide (now - last < alert.cooldownSeconds)

/-- The value it fires with. -/
def firedValue (now : ℚ) (update : MarketUpdate) (alert : Alert) : Option ℚ :=
  if alert.status ≠ .active then none
  else if alert.marketId ≠ update.marketId then none
  else if alert.cooling now then none
  else alert.currentValue update

def fire (now : ℚ) (alert : Alert) : Alert :=
  { alert with
    triggerCount := alert.triggerCount + 1
    lastTriggeredAt := some now
    status := if alert.repeating then alert.status else .triggered }

variable {now now' value : ℚ} {update : MarketUpdate} {alert : Alert}

lemma firedValue_eq_some (h : alert.firedValue now update = some value) :
    alert.status = .active ∧ alert.marketId = update.marketId ∧ alert.cooling now = false ∧
      alert.currentValue update = some value := by
  rw [firedValue] at h
  split_ifs at h with hstatus hmarket hcooling
  exact ⟨not_not.mp hstatus, not_not.mp hmarket, eq_false_of_ne_true hcooling, h⟩

/-- An alert that fires after it has fired repeats, and its cooldown has passed. -/
lemma firedValue_fire (h : (alert.fire now).firedValue now' update = some value) :
    alert.repeating = true ∧ (now ≠ 0 → alert.cooldownSeconds ≤ now' - now) := by
  obtain ⟨hactive, -, hcooling, -⟩ := firedValue_eq_some h
  have hrepeating : alert.repeating = true := by
    by_contra hnot
    simp [fire, hnot] at hactive
  refine ⟨hrepeating, fun hnow => ?_⟩
  simpa [cooling, fire, hnow, hrepeating] using hcooling

end Alert

namespace AlertManager

def addAlert (alert : Alert) (mgr : AlertManager) : AlertManager :=
  { mgr with alerts := mgr.alerts.set alert.alertId alert }

def removeAlert (alertId : String) (mgr : AlertManager) : AlertManager :=
  { mgr with alerts := mgr.alerts.filter fun key _ => key ≠ alertId }

def cancelAlert (alertId : String) (mgr : AlertManager) : AlertManager :=
  { mgr with alerts := mgr.alerts.modify alertId fun alert => { alert with status := .cancelled } }

/-- `check`, with the alerts that have fired and their values. No alert is checked by what another one
does. -/
def check (now : ℚ) (update : MarketUpdate) (mgr : AlertManager) : AlertManager × List (Alert × ℚ) :=
  let triggered := mgr.alerts.values.filterMap fun alert =>
    (alert.firedValue now update).map (alert.fire now, ·)
  ({ alerts := mgr.alerts.mapValues fun _ alert =>
        if (alert.firedValue now update).isSome then alert.fire now else alert
     totalTriggered := mgr.totalTriggered + triggered.length }, triggered)

/-! ### Runs -/

inductive AlertEvent where
  | add (alert : Alert)
  | remove (alertId : String)
  | cancel (alertId : String)
  | check (now : ℚ) (update : MarketUpdate)

def step (mgr : AlertManager) : AlertEvent → AlertManager
  | .add alert => mgr.addAlert alert
  | .remove alertId => mgr.removeAlert alertId
  | .cancel alertId => mgr.cancelAlert alertId
  | .check now update => (mgr.check now update).1

/-- The alert under an id fires at a check, with the alert before it. -/
def Fires (mgr : AlertManager) (alertId : String) (now : ℚ) (update : MarketUpdate) (alert : Alert) : Prop :=
  mgr.alerts.get? alertId = some alert ∧ (alert.firedValue now update).isSome = true

variable {mgr : AlertManager} {alertId : String} {now now' : ℚ} {update update' : MarketUpdate}
  {alert alert' : Alert} {before later : List AlertEvent} {event : AlertEvent}

/-- What a check returns are the alerts that fire. -/
lemma mem_check {fired : Alert × ℚ} :
    fired ∈ (mgr.check now update).2 ↔
      ∃ alertId alert, Fires mgr alertId now update alert ∧ fired.1 = alert.fire now ∧
        alert.firedValue now update = some fired.2 := by
  simp only [check, List.mem_filterMap, Dict.mem_values_iff, Option.map_eq_some_iff]
  constructor
  · rintro ⟨alert, ⟨alertId, hget⟩, value, hvalue, rfl⟩
    exact ⟨alertId, alert, ⟨hget, by rw [hvalue]; rfl⟩, rfl, hvalue⟩
  · rintro ⟨alertId, alert, ⟨hget, -⟩, hfired, hvalue⟩
    exact ⟨alert, ⟨alertId, hget⟩, fired.2, hvalue, by rw [← hfired]⟩

lemma get?_check_of_fires (h : Fires mgr alertId now update alert) :
    (mgr.check now update).1.alerts.get? alertId = some (alert.fire now) := by
  simp [check, h.1, h.2]

lemma get?_check_of_not_fires (h : ∀ alert, ¬ Fires mgr alertId now update alert) :
    (mgr.check now update).1.alerts.get? alertId = mgr.alerts.get? alertId := by
  simp only [check, Dict.get?_mapValues]
  cases hget : mgr.alerts.get? alertId with
  | none => rfl
  | some alert =>
    have hquiet : ¬ (alert.firedValue now update).isSome = true := fun hfires => h alert ⟨hget, hfires⟩
    rw [Option.map_some, if_neg hquiet]

/-- The event does not register the id. -/
def AlertEvent.Keeps (alertId : String) : AlertEvent → Prop
  | .add alert => alert.alertId ≠ alertId
  | _ => True

/-- The event is a check at which the alert under the id fires. -/
def AlertEvent.IsFiring (alertId : String) (mgr : AlertManager) : AlertEvent → Prop
  | .check now update => ∃ alert, Fires mgr alertId now update alert
  | _ => False

/-- The alert stays what it is, unless it was removed or cancelled; then it is not active. -/
structure Rests (alertId : String) (alert : Alert) (later : List AlertEvent) (mgr : AlertManager) : Prop where
  present : .remove alertId ∉ later → .cancel alertId ∉ later → mgr.alerts.get? alertId = some alert
  stopped : .remove alertId ∈ later ∨ .cancel alertId ∈ later →
    ∀ found, mgr.alerts.get? alertId = some found → found.status ≠ .active

/-- An event that leaves the alert as it is. -/
lemma Rests.of_get?_eq {mgr' : AlertManager} (h : Rests alertId alert later mgr)
    (hget : mgr'.alerts.get? alertId = mgr.alerts.get? alertId) (hremove : event ≠ .remove alertId)
    (hcancel : event ≠ .cancel alertId) : Rests alertId alert (later ++ [event]) mgr' where
  present hremoved hcancelled := by
    rw [hget]
    exact h.present (fun hmem => hremoved (List.mem_append_left _ hmem))
      (fun hmem => hcancelled (List.mem_append_left _ hmem))
  stopped hstopped found hfound := by
    refine h.stopped ?_ found (hget ▸ hfound)
    simpa [hremove.symm, hcancel.symm] using hstopped

lemma Rests.step (h : Rests alertId alert later mgr) (hkeeps : event.Keeps alertId)
    (hquiet : ¬ event.IsFiring alertId mgr) :
    Rests alertId alert (later ++ [event]) (mgr.step event) := by
  cases event with
  | add added =>
    exact h.of_get?_eq (Dict.get?_set_of_ne _ (Ne.symm hkeeps) _) (by simp) (by simp)
  | remove removed =>
    by_cases hsame : removed = alertId
    · subst hsame
      refine ⟨fun hremoved => absurd (by simp) hremoved, fun _ found hfound => ?_⟩
      rw [AlertManager.step, removeAlert, Dict.get?_filter] at hfound
      simp at hfound
    · refine h.of_get?_eq ?_ (by simpa using hsame) (by simp)
      rw [AlertManager.step, removeAlert, Dict.get?_filter]
      cases mgr.alerts.get? alertId <;> simp [Ne.symm hsame]
  | cancel cancelled =>
    by_cases hsame : cancelled = alertId
    · subst hsame
      refine ⟨fun _ hcancelled => absurd (by simp) hcancelled, fun _ found hfound => ?_⟩
      rw [AlertManager.step, cancelAlert, Dict.get?_modify_self, Option.map_eq_some_iff] at hfound
      obtain ⟨_, -, rfl⟩ := hfound
      simp
    · exact h.of_get?_eq (Dict.get?_modify_of_ne _ (Ne.symm hsame) _) (by simp) (by simpa using hsame)
  | check now update =>
    refine h.of_get?_eq (get?_check_of_not_fires fun alert hfires => hquiet ⟨alert, hfires⟩) ?_ ?_ <;> simp

/-- The checks of a run at which the alert under the id does not fire. -/
def Quiet (alertId : String) (mgr : AlertManager) (events : List AlertEvent) : Prop :=
  Along step mgr (fun _ mgr event => ¬ event.IsFiring alertId mgr) events

lemma rests_run (hget : mgr.alerts.get? alertId = some alert)
    (hkeeps : ∀ event ∈ later, event.Keeps alertId) (hquiet : Quiet alertId mgr later) :
    Rests alertId alert later (run step mgr later) := by
  induction later using List.reverseRecOn with
  | nil => exact ⟨fun _ _ => hget, by simp⟩
  | append_singleton later event ih =>
    obtain ⟨hbefore, hlast⟩ := along_concat.mp hquiet
    rw [run_concat]
    exact (ih (fun e he => hkeeps e (List.mem_append_left _ he)) hbefore).step (hkeeps event (by simp)) hlast

/-- An alert that fires again, without having been added again, was neither removed nor cancelled in
between; it repeats, its cooldown has passed, and it has counted the firing. -/
theorem fires_again (mgr : AlertManager) (hfirst : Fires mgr alertId now update alert)
    (hkeeps : ∀ event ∈ later, event.Keeps alertId)
    (hquiet : Quiet alertId (mgr.check now update).1 later)
    (hagain : Fires (run step (mgr.check now update).1 later) alertId now' update' alert') :
    .remove alertId ∉ later ∧ .cancel alertId ∉ later ∧ alert.repeating = true ∧
      (now ≠ 0 → alert.cooldownSeconds ≤ now' - now) ∧ alert' = alert.fire now := by
  have hrests := rests_run (get?_check_of_fires hfirst) hkeeps hquiet
  obtain ⟨hget, hsome⟩ := hagain
  obtain ⟨value, hvalue⟩ := Option.isSome_iff_exists.mp hsome
  have hactive := (Alert.firedValue_eq_some hvalue).1
  have hremove : .remove alertId ∉ later := fun hmem => hrests.stopped (Or.inl hmem) alert' hget hactive
  have hcancel : .cancel alertId ∉ later := fun hmem => hrests.stopped (Or.inr hmem) alert' hget hactive
  have hsame : alert' = alert.fire now :=
    Option.some.inj (hget.symm.trans (hrests.present hremove hcancel))
  rw [hsame] at hvalue
  obtain ⟨hrepeating, hcooldown⟩ := Alert.firedValue_fire hvalue
  exact ⟨hremove, hcancel, hrepeating, hcooldown, hsame⟩

/-- An alert on a drop to 0.4, which repeats. -/
def dropAlert : Alert where
  alertId := "drop"
  marketId := "m"
  condition := .priceBelow
  threshold := 2 / 5
  repeating := true

def dropManager : AlertManager := (AlertManager.mk .empty 0).addAlert dropAlert

def dropUpdate : MarketUpdate where
  marketId := "m"
  price := 3 / 8

theorem fires_again_drop :
    .remove "drop" ∉ [AlertEvent.cancel "rise"] ∧ .cancel "drop" ∉ [AlertEvent.cancel "rise"] ∧
      dropAlert.repeating = true ∧ ((100 : ℚ) ≠ 0 → dropAlert.cooldownSeconds ≤ 500 - 100) ∧
      dropAlert.fire 100 = dropAlert.fire 100 := by
  have hfirst : Fires dropManager "drop" 100 dropUpdate dropAlert := ⟨rfl, by decide +kernel⟩
  have hget : (run step (dropManager.check 100 dropUpdate).1 [.cancel "rise"]).alerts.get? "drop" =
      some (dropAlert.fire 100) := by
    decide +kernel
  refine fires_again dropManager hfirst (by simp [AlertEvent.Keeps]) ?_
    (⟨hget, by decide +kernel⟩ : Fires _ "drop" 500 dropUpdate _)
  exact along_cons.mpr ⟨by simp [AlertEvent.IsFiring], along_nil⟩

end AlertManager
end PolyCortex
