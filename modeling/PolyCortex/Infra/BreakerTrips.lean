import PolyCortex.Infra.CircuitBreaker
import PolyCortex.Machine.Leaky

/-!
# When a circuit breaker opens

Its constructor says that consecutive failures trip a `CircuitBreaker`. Its count is a leaky one: a
success takes one failure off it. So it opens when some stretch of the outcomes has enough more failures
than successes, be they consecutive or not (`hasOpened_iff`), which is what the constructor says just
when every such stretch comes with as many failures in a row (`tripsOnRuns_iff`).
-/

namespace PolyCortex

open Machine

namespace CircuitBreaker

/-- The outcomes that are recorded; a failure is `true`. -/
def outcomes (events : List BreakerEvent) : List Bool :=
  events.filterMap fun
    | .read _ => none
    | .success _ _ => some false
    | .failure _ => some true

/-- The breaker is or has been open. -/
def HasOpened (b : CircuitBreaker) (events : List BreakerEvent) : Prop :=
  ∃ before, before <+: events ∧ (b.after before).state = .opened

/-- At every moment the breaker has opened just when there has been one at which the last outcomes, as
many as the threshold, were all failures. -/
def TripsOnRuns (settings : BreakerSettings) (events : List BreakerEvent) : Prop :=
  ∀ moment, moment <+: events → (HasOpened (new settings) moment ↔
    ∃ before, before <+: moment ∧ List.replicate settings.failureThreshold true <:+ outcomes before)

variable {settings : BreakerSettings} {b : CircuitBreaker} {events : List BreakerEvent}
  {event : BreakerEvent}

lemma exists_prefix_concat {α : Type} {P : List α → Prop} {l : List α} {a : α} :
    (∃ before, before <+: l ++ [a] ∧ P before) ↔ (∃ before, before <+: l ∧ P before) ∨ P (l ++ [a]) := by
  simp only [List.prefix_concat_iff, or_and_right, exists_or, exists_eq_left]
  exact or_comm

/-- A stretch of the outcomes so far ends some prefix of the events. -/
lemma exists_prefix_suffix_iff (events : List BreakerEvent) {P : List Bool → Prop} :
    (∃ before, before <+: events ∧ ∃ stretch, stretch <:+ outcomes before ∧ P stretch) ↔
      ∃ stretch, stretch <:+: outcomes events ∧ P stretch := by
  constructor
  · rintro ⟨before, hbefore, stretch, hstretch, hP⟩
    exact ⟨stretch, List.infix_iff_suffix_prefix.mpr ⟨_, hstretch, hbefore.filterMap _⟩, hP⟩
  · rintro ⟨stretch, hinfix, hP⟩
    obtain ⟨middle, hsuffix, hprefix⟩ := List.infix_iff_suffix_prefix.mp hinfix
    obtain ⟨before, hbefore, rfl⟩ := List.prefix_filterMap_iff.mp hprefix
    exact ⟨before, hbefore, stretch, hsuffix, hP⟩

lemma hasOpened_concat : HasOpened b (events ++ [event]) ↔
    HasOpened b events ∨ (b.after (events ++ [event])).state = .opened :=
  exists_prefix_concat

lemma outcomes_concat (events : List BreakerEvent) (event : BreakerEvent) :
    outcomes (events ++ [event]) = outcomes events ++ outcomes [event] := List.filterMap_append

/-- What an event does to a closed breaker whose count is below the threshold. -/
lemma step_of_closed (event : BreakerEvent) (hclosed : b.state = .closed)
    (hlt : b.failureCount < b.failureThreshold) :
    (b.step event).failureCount = run leak b.failureCount (outcomes [event]) ∧
      (b.step event).state =
        if b.failureThreshold ≤ (b.step event).failureCount then .opened else .closed := by
  have hread : ∀ now, b.readState now = b := fun now =>
    readState_of_not fun hopen => by simp [hclosed] at hopen
  cases event with
  | read now =>
    rw [step, hread, if_neg (not_le.mpr hlt)]
    exact ⟨rfl, hclosed⟩
  | success now later =>
    rw [step, recordSuccess_of_ne (by simp [hread, hclosed]), if_pos hclosed]
    refine ⟨rfl, ?_⟩
    rw [if_neg (not_le.mpr ((Nat.sub_le _ _).trans_lt hlt))]
    exact hclosed
  | failure now =>
    rw [step, recordFailure]
    dsimp only
    split_ifs with hreached
    · exact ⟨rfl, rfl⟩
    · exact ⟨rfl, hclosed⟩

/-- A breaker that has not opened yet is closed, and has counted the outcomes; it opens with the count. -/
lemma opens_iff (hthreshold : 1 ≤ settings.failureThreshold) (events : List BreakerEvent) :
    (HasOpened (new settings) events ↔
      ∃ before, before <+: events ∧ settings.failureThreshold ≤ leaky (outcomes before)) ∧
    (¬ HasOpened (new settings) events →
      ((new settings).after events).state = .closed ∧
        ((new settings).after events).failureCount = leaky (outcomes events)) := by
  induction events using List.reverseRecOn with
  | nil =>
    refine ⟨iff_of_false ?_ ?_, fun _ => ⟨rfl, rfl⟩⟩
    · rintro ⟨before, hbefore, hopen⟩
      obtain rfl := List.prefix_nil.mp hbefore
      cases hopen
    · rintro ⟨before, hbefore, hreached⟩
      obtain rfl := List.prefix_nil.mp hbefore
      exact absurd hreached (not_le.mpr hthreshold)
  | append_singleton events event ih =>
    obtain ⟨hopened, hcounted⟩ := ih
    rw [hasOpened_concat, exists_prefix_concat, ← hopened, after_concat]
    by_cases hbefore : HasOpened (new settings) events
    · simp [hbefore]
    · obtain ⟨hclosed, hcount⟩ := hcounted hbefore
      have hsettings : ((new settings).after events).toBreakerSettings = settings :=
        (consistent settings events).settings
      have hlt : leaky (outcomes events) < settings.failureThreshold := by
        refine not_le.mp fun hreached => hbefore (hopened.mpr ⟨events, List.prefix_rfl, hreached⟩)
      obtain ⟨hstep, hstate⟩ := step_of_closed event hclosed (by rw [hcount, hsettings]; exact hlt)
      rw [hcount, ← leaky_append, ← outcomes_concat] at hstep
      rw [hstep, hsettings] at hstate
      simp only [hbefore, false_or, hstate, hstep]
      split_ifs with hreached
      · simp [hreached]
      · simp [hreached]

theorem hasOpened_iff (hthreshold : 1 ≤ settings.failureThreshold) (events : List BreakerEvent) :
    HasOpened (new settings) events ↔
      ∃ stretch, stretch <:+: outcomes events ∧ Surplus settings.failureThreshold stretch := by
  rw [(opens_iff hthreshold events).1, ← exists_prefix_suffix_iff]
  simp only [le_leaky_iff]

/-- The breaker trips on failures in a row alone, just when there are as many of these whenever the
failures of some stretch outnumber its successes by the threshold. -/
theorem tripsOnRuns_iff (settings : BreakerSettings) (events : List BreakerEvent) :
    TripsOnRuns settings events ↔ 1 ≤ settings.failureThreshold ∧
      ∀ moment, moment <+: events →
        (∃ stretch, stretch <:+: outcomes moment ∧ Surplus settings.failureThreshold stretch) →
          List.replicate settings.failureThreshold true <:+: outcomes moment := by
  have hrun : ∀ moment, (∃ before, before <+: moment ∧
      List.replicate settings.failureThreshold true <:+ outcomes before) ↔
        List.replicate settings.failureThreshold true <:+: outcomes moment := by
    intro moment
    simpa using exists_prefix_suffix_iff moment (P := (· = List.replicate settings.failureThreshold true))
  constructor
  · intro htrips
    have hthreshold : 1 ≤ settings.failureThreshold := by
      by_contra hzero
      obtain ⟨before, hbefore, hopen⟩ := (htrips [] List.nil_prefix).mpr
        ⟨[], List.prefix_rfl, by simp [Nat.eq_zero_of_not_pos hzero]⟩
      obtain rfl := List.prefix_nil.mp hbefore
      cases hopen
    refine ⟨hthreshold, fun moment hmoment hstretch => ?_⟩
    rw [← hrun, ← htrips moment hmoment, hasOpened_iff hthreshold]
    exact hstretch
  · rintro ⟨hthreshold, hruns⟩ moment hmoment
    rw [hrun, hasOpened_iff hthreshold]
    exact ⟨hruns moment hmoment, fun hrow => ⟨_, hrow, surplus_replicate _⟩⟩

/-- Two failures, a success and two failures open a breaker that takes three failures. -/
theorem not_tripsOnRuns_three :
    ¬ TripsOnRuns { failureThreshold := 3 }
      [.failure 1, .failure 2, .success 3 3, .failure 4, .failure 5] := by
  intro htrips
  obtain ⟨before, hbefore, hrow⟩ := (htrips _ List.prefix_rfl).mp ⟨_, List.prefix_rfl, by decide +kernel⟩
  have hinfix : List.replicate 3 true <:+: [true, true, false, true, true] :=
    List.infix_iff_suffix_prefix.mpr ⟨_, hrow, hbefore.filterMap _⟩
  exact absurd hinfix (by decide)

end CircuitBreaker
end PolyCortex
