import Mathlib.Data.List.Infix
import Mathlib.Order.Bounds.Lattice
import Mathlib.Tactic

/-!
# Runs in a list

The stretches of a list on which a predicate holds throughout, and those of them that reach its end. A
list that grows by one element gains only stretches of the second kind (`runLengths_concat`), so both
maxima can be kept while the list is read. Updates of one element of a list are at the end.
-/

variable {α : Type} {p : α → Prop} {l : List α} {a : α} {n : ℕ}

/-- The lengths of the contiguous parts of `l` in which `p` holds. -/
def runLengths (p : α → Prop) (l : List α) : Set ℕ :=
  {n | ∃ run, run <:+: l ∧ (∀ a ∈ run, p a) ∧ run.length = n}

/-- The lengths of the parts at the end of `l` in which `p` holds. -/
def finalRunLengths (p : α → Prop) (l : List α) : Set ℕ :=
  {n | ∃ run, run <:+ l ∧ (∀ a ∈ run, p a) ∧ run.length = n}

lemma zero_mem_finalRunLengths (p : α → Prop) (l : List α) : 0 ∈ finalRunLengths p l :=
  ⟨[], List.nil_suffix, by simp, rfl⟩

lemma isGreatest_runLengths_nil (p : α → Prop) : IsGreatest (runLengths p []) 0 := by
  constructor
  · exact ⟨[], List.nil_infix, by simp, rfl⟩
  · rintro n ⟨run, hrun, -, rfl⟩
    rw [List.infix_nil.mp hrun, List.length_nil]

lemma isGreatest_finalRunLengths_nil (p : α → Prop) : IsGreatest (finalRunLengths p []) 0 := by
  constructor
  · exact zero_mem_finalRunLengths p []
  · rintro n ⟨run, hrun, -, rfl⟩
    rw [List.suffix_nil.mp hrun, List.length_nil]

/-- One more element adds the runs that end with it. -/
lemma runLengths_concat (p : α → Prop) (l : List α) (a : α) :
    runLengths p (l ++ [a]) = runLengths p l ∪ finalRunLengths p (l ++ [a]) := by
  ext n
  constructor
  · rintro ⟨run, hrun, hp, rfl⟩
    rcases List.infix_concat_iff.mp hrun with hrun | hrun
    · exact Or.inr ⟨run, hrun, hp, rfl⟩
    · exact Or.inl ⟨run, hrun, hp, rfl⟩
  · rintro (⟨run, hrun, hp, rfl⟩ | ⟨run, hrun, hp, rfl⟩)
    · exact ⟨run, List.infix_concat_iff.mpr (Or.inr hrun), hp, rfl⟩
    · exact ⟨run, hrun.isInfix, hp, rfl⟩

/-- An element that satisfies `p` makes the run at the end longer. -/
lemma isGreatest_finalRunLengths_concat (h : IsGreatest (finalRunLengths p l) n) (ha : p a) :
    IsGreatest (finalRunLengths p (l ++ [a])) (n + 1) := by
  constructor
  · obtain ⟨run, hrun, hp, rfl⟩ := h.1
    refine ⟨run ++ [a], List.suffix_concat_iff.mpr (Or.inr ⟨run, rfl, hrun⟩), ?_, by simp⟩
    intro b hb
    rcases List.mem_append.mp hb with hb | hb
    · exact hp b hb
    · rwa [List.mem_singleton.mp hb]
  · rintro m ⟨run, hrun, hp, rfl⟩
    rcases List.suffix_concat_iff.mp hrun with rfl | ⟨before, rfl, hbefore⟩
    · exact Nat.zero_le _
    · have hle : before.length ≤ n :=
        h.2 ⟨before, hbefore, fun b hb => hp b (List.mem_append_left _ hb), rfl⟩
      simpa using hle

/-- Any other element ends the run. -/
lemma isGreatest_finalRunLengths_concat_of_not (l : List α) (ha : ¬ p a) :
    IsGreatest (finalRunLengths p (l ++ [a])) 0 := by
  constructor
  · exact zero_mem_finalRunLengths p _
  · rintro m ⟨run, hrun, hp, rfl⟩
    rcases List.suffix_concat_iff.mp hrun with rfl | ⟨before, rfl, -⟩
    · exact le_rfl
    · exact absurd (hp a (by simp)) ha

lemma isGreatest_runLengths_concat {m : ℕ} (h : IsGreatest (runLengths p l) m)
    (hfinal : IsGreatest (finalRunLengths p (l ++ [a])) n) :
    IsGreatest (runLengths p (l ++ [a])) (max m n) := by
  rw [runLengths_concat]
  exact h.union hfinal

lemma isGreatest_runLengths_concat_of_not (h : IsGreatest (runLengths p l) n) (ha : ¬ p a) :
    IsGreatest (runLengths p (l ++ [a])) n := by
  have hmax := isGreatest_runLengths_concat h (isGreatest_finalRunLengths_concat_of_not l ha)
  rwa [Nat.max_zero] at hmax

/-! ### Updates of one element -/

namespace List

variable {α : Type}

lemma forall_mem_modify {l : List α} {P : α → Prop} {f : α → α} {k : ℕ} (h : ∀ a ∈ l, P a)
    (hf : ∀ a, l[k]? = some a → P (f a)) : ∀ a ∈ l.modify k f, P a := by
  intro a ha
  obtain ⟨j, hj⟩ := List.mem_iff_getElem?.mp ha
  rw [List.getElem?_modify] at hj
  obtain ⟨b, hb, rfl⟩ := Option.map_eq_some_iff.mp hj
  split
  case isTrue hjk => exact hf b (hjk ▸ hb)
  case isFalse => exact h b (List.mem_of_getElem? hb)

/-- An element is related to what is left of it. -/
lemma exists_mem_modify {R : α → α → Prop} {l : List α} {f : α → α} {k : ℕ} (hrefl : ∀ a, R a a)
    (hf : ∀ a, l[k]? = some a → R a (f a)) : ∀ a ∈ l, ∃ b ∈ l.modify k f, R a b := by
  intro a ha
  obtain ⟨j, hj⟩ := List.mem_iff_getElem?.mp ha
  by_cases hk : k = j
  · subst hk
    exact ⟨f a, List.mem_iff_getElem?.mpr ⟨k, by simp [hj]⟩, hf a hj⟩
  · exact ⟨a, List.mem_iff_getElem?.mpr ⟨j, by simp [hj, hk]⟩, hrefl a⟩

lemma map_modify_of_eq {β : Type} {g : α → β} {f : α → α} {k : ℕ} {l : List α}
    (h : ∀ a, l[k]? = some a → g (f a) = g a) : (l.modify k f).map g = l.map g := by
  apply List.ext_getElem?
  intro j
  rw [List.getElem?_map, List.getElem?_map, List.getElem?_modify]
  rcases hj : l[j]? with - | a
  · rfl
  · by_cases hk : k = j
    · simp [hk, h a (hk ▸ hj)]
    · simp [hk]

lemma sum_map_modify {g : α → ℕ} {f : α → α} {k : ℕ} {l : List α} {a : α} (h : l[k]? = some a) :
    ((l.modify k f).map g).sum + g a = (l.map g).sum + g (f a) := by
  induction l generalizing k with
  | nil => simp at h
  | cons b l ih =>
    cases k with
    | zero =>
      obtain rfl : b = a := by simpa using h
      simp only [List.modify_zero_cons, List.map_cons, List.sum_cons]
      omega
    | succ k =>
      have hsum := ih (by simpa using h)
      simp only [List.modify_succ_cons, List.map_cons, List.sum_cons]
      omega

end List
