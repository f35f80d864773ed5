import PolyCortex.Data.Series

/-!
# Functions on series with a bounded reach

A function on series reaches back `n` rows when what it gives at a row is settled by the last `n` rows up
to it, wherever the series starts. Reaches add up when functions are composed, and a function of a
bounded reach gives on the end of a series what it gives on the whole, as soon as it is far enough from
where the end was cut off.
-/

namespace Series

variable {α β γ δ : Type} {xs ys : List α} {i j n m p q : ℕ}

/-- The row `p` rows before row `i`, if the series has started by then. -/
def ago (xs : List α) (i p : ℕ) : Option α := if p ≤ i then xs[i - p]? else none

@[simp] lemma ago_zero (xs : List α) (i : ℕ) : ago xs i 0 = xs[i]? := by
  simp [ago]

lemma ago_of_le (h : p ≤ i) : ago xs i p = xs[i - p]? := if_pos h

lemma ago_of_lt (h : i < p) : ago xs i p = none := if_neg (by omega)

lemma ago_isSome (hi : i < xs.length) : (ago xs i p).isSome ↔ p ≤ i := by
  by_cases h : p ≤ i
  · rw [ago_of_le h, List.getElem?_eq_getElem (by omega)]
    simp [h]
  · rw [ago_of_lt (by omega)]
    simp [h]

lemma ago_ago (h : p ≤ i) : ago xs (i - p) q = ago xs i (p + q) := by
  by_cases hq : q ≤ i - p
  · rw [ago_of_le hq, ago_of_le (by omega), Nat.sub_sub]
  · rw [ago_of_lt (by omega), ago_of_lt (by omega)]

@[simp] lemma ago_map (g : α → β) : ago (xs.map g) i p = (ago xs i p).map g := by
  by_cases h : p ≤ i
  · rw [ago_of_le h, ago_of_le h, List.getElem?_map]
  · rw [ago_of_lt (by omega), ago_of_lt (by omega), Option.map_none]

lemma ago_drop (h : p ≤ i) : ago (xs.drop m) i p = ago xs (m + i) p := by
  rw [ago_of_le h, ago_of_le (by omega), List.getElem?_drop, Nat.add_sub_assoc h]

/-- Where one of the series has started, so has the other. -/
lemma le_of_ago_eq (hi : i < xs.length) (hj : j < ys.length) (h : ago xs i p = ago ys j p) :
    p ≤ i ↔ p ≤ j := by
  rw [← ago_isSome hi, h, ago_isSome hj]

/-- What `f` gives at a row is settled by the last `n` rows up to it. -/
structure Reaches (n : ℕ) (f : List α → List β) : Prop where
  length_eq (xs : List α) : (f xs).length = xs.length
  agree {xs ys : List α} {i j : ℕ} (hi : i < xs.length) (hj : j < ys.length)
    (h : ∀ p < n, ago xs i p = ago ys j p) : (f xs)[i]? = (f ys)[j]?

namespace Reaches

variable {f : List α → List β}

lemma id : Reaches 1 (id : List α → List α) where
  length_eq _ := rfl
  agree _ _ h := by simpa using h 0 Nat.one_pos

lemma map (g : α → β) : Reaches 1 (List.map g) where
  length_eq _ := List.length_map _
  agree _ _ h := by
    rw [List.getElem?_map, List.getElem?_map]
    exact congrArg (Option.map g) (by simpa using h 0 Nat.one_pos)

lemma mono (hf : Reaches n f) (hle : n ≤ m) : Reaches m f where
  length_eq := hf.length_eq
  agree hi hj h := hf.agree hi hj fun p hp => h p (hp.trans_le hle)

lemma zipWith {g : List α → List γ} (hf : Reaches n f) (hg : Reaches n g) (h : β → γ → δ) :
    Reaches n fun xs => List.zipWith h (f xs) (g xs) where
  length_eq xs := by simp [hf.length_eq, hg.length_eq]
  agree hi hj hrows := by
    simp only [List.getElem?_zipWith, hf.agree hi hj hrows, hg.agree hi hj hrows]

/-- What `f` gives some rows ago. -/
lemma ago_agree (hf : Reaches n f) (hn : 0 < n) (hi : i < xs.length) (hj : j < ys.length)
    (h : ∀ p < m + n, ago xs i p = ago ys j p) (hp : p ≤ m) : ago (f xs) i p = ago (f ys) j p := by
  have hstarted := le_of_ago_eq hi hj (h p (by omega))
  by_cases hle : p ≤ i
  · have hle' := hstarted.mp hle
    rw [ago_of_le hle, ago_of_le hle']
    apply hf.agree (by omega) (by omega)
    intro q hq
    rw [ago_ago hle, ago_ago hle']
    exact h (p + q) (by omega)
  · rw [ago_of_lt (by omega), ago_of_lt (by omega)]

/-- Reaches add up, the row itself counted once. -/
lemma comp {g : List β → List γ} (hg : Reaches (m + 1) g) (hf : Reaches (n + 1) f) :
    Reaches (m + n + 1) fun xs => g (f xs) where
  length_eq xs := by rw [hg.length_eq, hf.length_eq]
  agree hi hj h := by
    apply hg.agree (by rwa [hf.length_eq]) (by rwa [hf.length_eq])
    intro p hp
    exact hf.ago_agree n.succ_pos hi hj (fun q hq => h q (by omega)) (Nat.le_of_lt_succ hp)

/-- It does not look ahead. -/
lemma causal (hf : Reaches n f) : Causal f := by
  intro xs k
  refine List.ext_getElem? fun i => ?_
  rw [List.getElem?_take]
  by_cases hi : i < k ∧ i < xs.length
  · rw [if_pos hi.1]
    apply hf.agree (by rw [List.length_take]; omega) hi.2
    intro p _
    by_cases hp : p ≤ i
    · rw [ago_of_le hp, ago_of_le hp, List.getElem?_take_of_lt (by omega)]
    · rw [ago_of_lt (by omega), ago_of_lt (by omega)]
  · rw [List.getElem?_eq_none (by rw [hf.length_eq, List.length_take]; omega)]
    split_ifs
    · rw [List.getElem?_eq_none (by rw [hf.length_eq]; omega)]
    · rfl

/-- On the end of a series it gives what it gives on the whole, far enough from the cut. -/
lemma getElem?_drop (hf : Reaches n f) (hfar : n ≤ i + 1) (hi : m + i < xs.length) :
    (f (xs.drop m))[i]? = (f xs)[m + i]? := by
  apply hf.agree (by rw [List.length_drop]; omega) hi
  intro p hp
  exact ago_drop (by omega)

/-- The rows that are far enough from the cut are those of the whole. -/
lemma drop_drop (hf : Reaches (n + 1) f) (xs : List α) (m : ℕ) :
    (f (xs.drop m)).drop n = (f xs).drop (m + n) := by
  refine List.ext_getElem? fun i => ?_
  rw [List.getElem?_drop, List.getElem?_drop]
  by_cases hi : m + n + i < xs.length
  · rw [hf.getElem?_drop (by omega) (by omega), Nat.add_assoc]
  · rw [List.getElem?_eq_none (by rw [hf.length_eq, List.length_drop]; omega),
      List.getElem?_eq_none (by rw [hf.length_eq]; omega)]

end Reaches
end Series
