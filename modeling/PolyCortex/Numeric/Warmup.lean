import PolyCortex.Numeric.NumpyFloat

/-!
# Series that are numbers after a warm-up

The rolling functions of `pandas` give NaN until their windows are full. What is computed from series
that are numbers from some row on is a number from some row on, and properties of the numbers that means
keep are kept.
-/

namespace NumpyFloat

variable {K : Type} {p q r : K → Prop} {xs ys : List (NumpyFloat K)} {k m n i : ℕ}

/-- From row `k` on the values are numbers that satisfy `p`. -/
def NumbersFrom (p : K → Prop) (k : ℕ) (xs : List (NumpyFloat K)) : Prop :=
  ∀ i, k ≤ i → i < xs.length → ∃ a, p a ∧ xs[i]? = some (finite a)

namespace NumbersFrom

lemma mono (h : NumbersFrom p k xs) (hk : k ≤ m) : NumbersFrom p m xs :=
  fun i hi hlt => h i (hk.trans hi) hlt

lemma imp (h : NumbersFrom p k xs) (hpq : ∀ a, p a → q a) : NumbersFrom q k xs := by
  intro i hi hlt
  obtain ⟨a, ha, hget⟩ := h i hi hlt
  exact ⟨a, hpq a ha, hget⟩

lemma of_forall_mem {α : Type} {f : α → NumpyFloat K} {l : List α}
    (h : ∀ x ∈ l, ∃ a, p a ∧ f x = finite a) : NumbersFrom p 0 (l.map f) := by
  intro i _ hlt
  rw [List.length_map] at hlt
  obtain ⟨a, ha, hf⟩ := h _ (List.getElem_mem hlt)
  exact ⟨a, ha, by rw [List.getElem?_map, List.getElem?_eq_getElem hlt, Option.map_some, hf]⟩

lemma map (h : NumbersFrom p k xs) {g : NumpyFloat K → NumpyFloat K}
    (hg : ∀ a, p a → ∃ b, q b ∧ g (finite a) = finite b) : NumbersFrom q k (xs.map g) := by
  intro i hi hlt
  rw [List.length_map] at hlt
  obtain ⟨a, ha, hget⟩ := h i hi hlt
  obtain ⟨b, hb, heq⟩ := hg a ha
  exact ⟨b, hb, by rw [List.getElem?_map, hget, Option.map_some, heq]⟩

lemma zipWith (hx : NumbersFrom p k xs) (hy : NumbersFrom q k ys)
    {g : NumpyFloat K → NumpyFloat K → NumpyFloat K}
    (hg : ∀ a b, p a → q b → ∃ c, r c ∧ g (finite a) (finite b) = finite c) :
    NumbersFrom r k (List.zipWith g xs ys) := by
  intro i hi hlt
  rw [List.length_zipWith, lt_min_iff] at hlt
  obtain ⟨a, ha, hgeta⟩ := hx i hi hlt.1
  obtain ⟨b, hb, hgetb⟩ := hy i hi hlt.2
  obtain ⟨c, hc, heq⟩ := hg a b ha hb
  exact ⟨c, hc, List.getElem?_zipWith_eq_some.mpr ⟨_, _, hgeta, hgetb, heq⟩⟩

/-! ### Windows -/

/-- The window of `n` rows up to row `i`. -/
lemma rtake_take (hn : n ≤ i + 1) (hi : i < xs.length) :
    (xs.take (i + 1)).rtake n = (xs.drop (i + 1 - n)).take n := by
  rw [List.rtake, List.length_take, min_eq_left (by omega), List.drop_take]
  congr 1
  omega

lemma valid_map_finite (l : List K) : valid (l.map finite) = l := by
  induction l with
  | nil => rfl
  | cons a l ih =>
    rw [List.map_cons, ← List.singleton_append, valid_append, ih]
    rfl

lemma exists_eq_map_finite {window : List (NumpyFloat K)} (h : ∀ v ∈ window, ∃ a, p a ∧ v = finite a) :
    ∃ l : List K, window = l.map finite ∧ ∀ a ∈ l, p a := by
  induction window with
  | nil => exact ⟨[], rfl, by simp⟩
  | cons v window ih =>
    obtain ⟨a, ha, rfl⟩ := h v List.mem_cons_self
    obtain ⟨l, rfl, hl⟩ := ih fun w hw => h w (List.mem_cons_of_mem _ hw)
    exact ⟨a :: l, rfl, List.forall_mem_cons.mpr ⟨ha, hl⟩⟩

/-- A window after the warm-up holds as many numbers as it has rows. -/
lemma window (h : NumbersFrom p k xs) (hn : k + n ≤ i + 1) (hi : i < xs.length) :
    ∃ l : List K, (xs.take (i + 1)).rtake n = l.map finite ∧ l.length = n ∧ ∀ a ∈ l, p a := by
  have hnumber : ∀ v ∈ (xs.drop (i + 1 - n)).take n, ∃ a, p a ∧ v = finite a := by
    intro v hv
    obtain ⟨j, hj, rfl⟩ := List.mem_iff_getElem.mp hv
    rw [List.length_take, List.length_drop] at hj
    obtain ⟨a, ha, hget⟩ := h (i + 1 - n + j) (by omega) (by omega)
    refine ⟨a, ha, ?_⟩
    rw [List.getElem_take, List.getElem_drop]
    exact (List.getElem_eq_iff _).mpr hget
  obtain ⟨l, hl, hp⟩ := exists_eq_map_finite hnumber
  have hlength : l.length = n := by
    rw [← List.length_map (f := finite), ← hl, List.length_take, List.length_drop]
    omega
  exact ⟨l, by rw [rtake_take (by omega) hi, hl], hlength, hp⟩

variable [Field K]

/-- A difference takes one row more. -/
lemma diff (h : NumbersFrom p k xs) : NumbersFrom (fun _ => True) (k + 1) (diff xs) := by
  intro i hi hlt
  rw [NumpyFloat.diff, Series.rolling, Series.length_expanding] at hlt
  obtain ⟨l, hwindow, hlength, -⟩ := h.window (n := 2) (by omega) hlt
  match l, hlength with
  | [before, last], _ =>
    refine ⟨last - before, trivial, ?_⟩
    rw [NumpyFloat.diff, Series.getElem?_rolling 2 _ hlt, hwindow]
    exact congrArg some (finite_sub last before)

/-- A rolling mean is a number as soon as its window is full, and has the properties that means keep. -/
lemma rollingMean (h : NumbersFrom p k xs) (hn : 0 < n)
    (hmean : ∀ l : List K, l.length = n → (∀ a ∈ l, p a) → p (l.sum / l.length)) :
    NumbersFrom p (k + n - 1) (rollingMean n n xs) := by
  intro i hi hlt
  rw [NumpyFloat.rollingMean, Series.rolling, Series.length_expanding] at hlt
  obtain ⟨l, hwindow, hlength, hl⟩ := h.window (n := n) (by omega) hlt
  refine ⟨l.sum / l.length, hmean l hlength hl, ?_⟩
  rw [NumpyFloat.rollingMean, Series.getElem?_rolling n _ hlt, hwindow, mean, valid_map_finite,
    if_neg (by omega)]

end NumbersFrom
end NumpyFloat
