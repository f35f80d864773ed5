import Mathlib.Data.List.DropRight
import Mathlib.Data.List.Infix

/-!
# Causal functions on series

A function on series is causal when what it gives up to a row depends on the rows up to it only. What is
computed row by row, from the rows before, or over windows that end at the row is causal, and causal
functions compose.
-/

namespace Series

variable {α β γ δ : Type}

/-- The start of the result is the result on the start. -/
def Causal (f : List α → List β) : Prop := ∀ (xs : List α) (n : ℕ), f (xs.take n) = (f xs).take n

/-- What `g` gives on the rows up to each one. -/
def expanding (g : List α → β) (xs : List α) : List β :=
  (List.range xs.length).map fun i => g (xs.take (i + 1))

/-- What `g` gives on the windows of length `n`, the first ones cut short. -/
def rolling (n : ℕ) (g : List α → β) (xs : List α) : List β := expanding (fun pre => g (pre.rtake n)) xs

@[simp] lemma length_expanding (g : List α → β) (xs : List α) : (expanding g xs).length = xs.length := by
  simp [expanding]

@[simp] lemma getElem?_expanding (g : List α → β) {xs : List α} {i : ℕ} (hi : i < xs.length) :
    (expanding g xs)[i]? = some (g (xs.take (i + 1))) := by
  simp [expanding, hi]

@[simp] lemma getElem?_rolling (n : ℕ) (g : List α → β) {xs : List α} {i : ℕ} (hi : i < xs.length) :
    (rolling n g xs)[i]? = some (g ((xs.take (i + 1)).rtake n)) :=
  getElem?_expanding _ hi

lemma causal_map (g : α → β) : Causal (List.map g) := fun _ _ => List.map_take

lemma causal_expanding (g : List α → β) : Causal (expanding g) := by
  intro xs n
  refine List.ext_getElem? fun i => ?_
  rw [List.getElem?_take]
  by_cases hi : i < n
  · rw [if_pos hi]
    by_cases hlength : i < xs.length
    · rw [getElem?_expanding g (by rw [List.length_take]; omega), getElem?_expanding g hlength,
        List.take_take, min_eq_left (by omega)]
    · rw [List.getElem?_eq_none (by rw [length_expanding, List.length_take]; omega),
        List.getElem?_eq_none (by rw [length_expanding]; omega)]
  · rw [if_neg hi, List.getElem?_eq_none (by rw [length_expanding, List.length_take]; omega)]

lemma causal_rolling (n : ℕ) (g : List α → β) : Causal (rolling n g) := causal_expanding _

namespace Causal

variable {f : List α → List β}

lemma comp {g : List β → List γ} (hg : Causal g) (hf : Causal f) : Causal fun xs => g (f xs) := by
  intro xs n
  dsimp only
  rw [hf xs n, hg (f xs) n]

lemma zipWith {g : List α → List γ} (hf : Causal f) (hg : Causal g) (h : β → γ → δ) :
    Causal fun xs => List.zipWith h (f xs) (g xs) := by
  intro xs n
  dsimp only
  rw [hf xs n, hg xs n, List.take_zipWith]

/-- A value of the result does not depend on the rows after it. -/
lemma getElem?_take (hf : Causal f) (xs : List α) {n i : ℕ} (hi : i < n) :
    (f (xs.take n))[i]? = (f xs)[i]? := by
  rw [hf xs n, List.getElem?_take_of_lt hi]

end Causal
end Series
