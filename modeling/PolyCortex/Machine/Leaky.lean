import PolyCortex.Machine.History

/-!
# Leaky counters

A counter that a success drains by one and does not clear. It is at least `n` just when a last stretch of
the outcomes has `n` more failures than successes (`le_leaky_iff`), so that it can reach `n` without `n`
failures in a row; the other way round these always bring it there.
-/

namespace Machine

/-- A failure counts up, a success down. -/
def leak (count : ℕ) (failed : Bool) : ℕ := if failed then count + 1 else count - 1

/-- The count of some outcomes. -/
def leaky (outcomes : List Bool) : ℕ := run leak 0 outcomes

variable {outcomes : List Bool} {n : ℕ}

@[simp] lemma leaky_concat (failed : Bool) :
    leaky (outcomes ++ [failed]) = leak (leaky outcomes) failed := run_concat _ _ _ _

lemma leaky_append (later : List Bool) : leaky (outcomes ++ later) = run leak (leaky outcomes) later :=
  run_append _ _ _ _

/-- The outcomes have at least `n` more failures than successes. -/
def Surplus (n : ℕ) (outcomes : List Bool) : Prop := n + outcomes.count false ≤ outcomes.count true

lemma surplus_concat_true : Surplus (n + 1) (outcomes ++ [true]) ↔ Surplus n outcomes := by
  simp [Surplus, List.count_append]
  omega

lemma surplus_concat_false : Surplus n (outcomes ++ [false]) ↔ Surplus (n + 1) outcomes := by
  simp [Surplus, List.count_append]
  omega

lemma surplus_replicate (n : ℕ) : Surplus n (List.replicate n true) := by
  simp [Surplus, List.count_replicate]

theorem le_leaky_iff (outcomes : List Bool) (n : ℕ) :
    n ≤ leaky outcomes ↔ ∃ stretch, stretch <:+ outcomes ∧ Surplus n stretch := by
  induction outcomes using List.reverseRecOn generalizing n with
  | nil => simp [leaky, Surplus]
  | append_singleton outcomes failed ih =>
    cases n with
    | zero => simpa using ⟨[], List.nil_suffix, by simp [Surplus]⟩
    | succ n =>
      have hstretch : (∃ stretch, stretch <:+ outcomes ++ [failed] ∧ Surplus (n + 1) stretch) ↔
          ∃ stretch, stretch <:+ outcomes ∧ Surplus (n + 1) (stretch ++ [failed]) := by
        constructor
        · rintro ⟨stretch, hsuffix, hsurplus⟩
          rcases List.suffix_concat_iff.mp hsuffix with rfl | ⟨before, rfl, hbefore⟩
          · simp [Surplus] at hsurplus
          · exact ⟨before, hbefore, hsurplus⟩
        · rintro ⟨stretch, hsuffix, hsurplus⟩
          exact ⟨_, List.suffix_concat_iff.mpr (Or.inr ⟨stretch, rfl, hsuffix⟩), hsurplus⟩
      rw [hstretch, leaky_concat]
      cases failed with
      | true => simp only [surplus_concat_true, ← ih, leak, if_true, Nat.succ_le_succ_iff]
      | false =>
        simp only [surplus_concat_false, ← ih, leak, Bool.false_eq_true, if_false]
        omega

end Machine
