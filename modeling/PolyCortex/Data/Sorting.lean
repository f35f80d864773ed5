import Mathlib.Data.List.Sort
import Mathlib.Order.Bounds.Basic
import Mathlib.Tactic

/-!
# Sorting by a key

A stable sort by a key of a linear order; with a key of the dual order the greatest come first.
-/

variable {α β : Type} [LinearOrder β] (key : α → β) (l : List α)

/-- `sorted(l, key=key)`. -/
def sortBy : List α := l.mergeSort fun a b => decide (key a ≤ key b)

lemma sortBy_perm : (sortBy key l).Perm l := List.mergeSort_perm _ _

lemma sortBy_pairwise : (sortBy key l).Pairwise fun a b => key a ≤ key b := by
  have hsorted := @List.pairwise_mergeSort α (fun a b => decide (key a ≤ key b))
    (fun a b c hab hbc => by simp at *; exact hab.trans hbc) (fun a b => by simp [le_total]) l
  simpa [sortBy] using hsorted

@[simp] lemma mem_sortBy {a : α} : a ∈ sortBy key l ↔ a ∈ l := (sortBy_perm key l).mem_iff

@[simp] lemma sortBy_eq_nil : sortBy key l = [] ↔ l = [] := by
  rw [← List.length_eq_zero_iff, ← List.length_eq_zero_iff, (sortBy_perm key l).length_eq]

variable {key l}

/-- The first one has the least key. -/
lemma isLeast_head_sortBy {a : α} {rest : List α} (h : sortBy key l = a :: rest) :
    IsLeast {k | ∃ b ∈ l, key b = k} (key a) := by
  have hsorted := sortBy_pairwise key l
  have hmem : ∀ b, b ∈ l ↔ b = a ∨ b ∈ rest := by
    intro b
    rw [← mem_sortBy key l, h, List.mem_cons]
  rw [h, List.pairwise_cons] at hsorted
  constructor
  · exact ⟨a, (hmem a).mpr (Or.inl rfl), rfl⟩
  · rintro _ ⟨b, hb, rfl⟩
    rcases (hmem b).mp hb with rfl | hb
    · exact le_rfl
    · exact hsorted.1 b hb

/-- A permutation whose keys increase is the sorted list. -/
lemma sortBy_eq_of_perm {l' : List α} (hperm : l'.Perm l)
    (hlt : l'.Pairwise fun a b => key a < key b) : sortBy key l = l' := by
  have hnodup : (l'.map key).Nodup := by
    rw [List.Nodup, List.pairwise_map]
    exact hlt.imp ne_of_lt
  have hsame : (sortBy key l).Perm l' := (sortBy_perm key l).trans hperm.symm
  refine hsame.eq_of_pairwise (fun a b ha hb hle hge => ?_) (sortBy_pairwise key l) (hlt.imp le_of_lt)
  exact List.inj_on_of_nodup_map hnodup (hsame.mem_iff.mp ha) hb (le_antisymm hle hge)

variable {n : ℕ}

lemma take_sortBy_eq_nil (hn : n ≠ 0) : (sortBy key l).take n = [] ↔ l = [] := by
  rw [List.take_eq_nil_iff, sortBy_eq_nil, or_iff_right hn]

lemma mem_of_mem_take_sortBy {a : α} (h : a ∈ (sortBy key l).take n) : a ∈ l :=
  (mem_sortBy key l).mp (List.mem_of_mem_take h)

/-- The first one of the `n` least is one of the list, with the least key. -/
lemma head_take_sortBy {a : α} {rest : List α} (h : (sortBy key l).take n = a :: rest) :
    a ∈ l ∧ ∀ b ∈ l, key a ≤ key b := by
  constructor
  · have hmem : a ∈ (sortBy key l).take n := by simp [h]
    exact mem_of_mem_take_sortBy hmem
  · have hsort : sortBy key l = a :: (rest ++ (sortBy key l).drop n) := by
      conv_lhs => rw [← List.take_append_drop n (sortBy key l), h, List.cons_append]
    exact fun b hb => (isLeast_head_sortBy hsort).2 ⟨b, hb, rfl⟩
