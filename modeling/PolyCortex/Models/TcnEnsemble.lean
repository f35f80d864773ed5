import Mathlib
import PolyCortex.Models.Tcn
import PolyCortex.Numeric.WeightedMean

/-!
# The ensemble of networks

The heads of a `PolymarketTCN` are the parameters of a beta distribution, of which it returns the mean and
the variance. The ensemble weighs its three members by their meta-weights and the inverse of their
variances. Its prediction lies between theirs, and its uncertainty is not above the one that the
meta-weights alone would give (`ensemble_forward`).
-/

namespace PolyCortex

section Forward

variable {φ ι K A : Type} [Fintype φ] [Fintype ι] [Field K] [LinearOrder K]

/-- `nn.AdaptiveAvgPool1d(1)`. -/
def gap (xs : List (ι → K)) : ι → K := fun channel => (xs.map (· channel)).sum / xs.length

namespace PolymarketTCN

/-- The features of the last pooling, and the weights of the attention. -/
def pooled (fn : Activations K) (m : PolymarketTCN φ ι K A) (xs : List (φ → K)) : (ι → K) × A :=
  let x := m.backbone fn xs
  let (attnOut, attnWeights) := m.attention x
  (gap ((List.zipWith (· + ·) x attnOut).map m.norm), attnWeights)

/-- The parameters of the beta distribution. -/
def alpha (fn : Activations K) (m : PolymarketTCN φ ι K A) (xs : List (φ → K)) : K :=
  m.alphaHead.forward fn (m.pooled fn xs).1 + 1

def beta (fn : Activations K) (m : PolymarketTCN φ ι K A) (xs : List (φ → K)) : K :=
  m.betaHead.forward fn (m.pooled fn xs).1 + 1

/-- The predicted probability, the uncertainty and the weights of the attention. -/
def forward (fn : Activations K) (m : PolymarketTCN φ ι K A) (xs : List (φ → K)) : K × K × A :=
  let alpha := m.alpha fn xs
  let beta := m.beta fn xs
  (alpha / (alpha + beta), alpha * beta / ((alpha + beta) ^ 2 * (alpha + beta + 1)), (m.pooled fn xs).2)

end PolymarketTCN

/-- Three networks, each with a number of channels of its own, and the learned meta-weights. -/
structure PolymarketEnsemble (φ K A : Type) where
  models : Fin 3 → Σ n_channels, PolymarketTCN φ (Fin n_channels) K A
  metaWeights : Fin 3 → K

/-- `F.softmax`. -/
def softmax (fn : Activations K) (weights : Fin 3 → K) (i : Fin 3) : K :=
  fn.exp (weights i) / ∑ j, fn.exp (weights j)

namespace PolymarketEnsemble

variable (fn : Activations K) (e : PolymarketEnsemble φ K A) (xs : List (φ → K))

def prob (i : Fin 3) : K := ((e.models i).2.forward fn xs).1

def unc (i : Fin 3) : K := ((e.models i).2.forward fn xs).2.1

/-- What is added to an uncertainty before it is inverted, `1e-8`. -/
def uncEpsilon : K := 1 / (10 ^ 8 : ℕ)

/-- The inverse of the uncertainty times the meta-weight. -/
def combinedWeight (i : Fin 3) : K := 1 / (e.unc fn xs i + uncEpsilon) * softmax fn e.metaWeights i

/-- The weights that add up to one. -/
def normalWeight (i : Fin 3) : K := e.combinedWeight fn xs i / ∑ j, e.combinedWeight fn xs j

def forward : K × K :=
  (∑ i, e.prob fn xs i * e.normalWeight fn xs i, ∑ i, e.unc fn xs i * e.normalWeight fn xs i)

end PolymarketEnsemble

end Forward

/-! ### The beta distribution -/

section Beta

variable {φ ι K A : Type} [Fintype φ] [Fintype ι] [Field K] [LinearOrder K] [IsStrictOrderedRing K]
  {fn : Activations K} {a b : K}

/-- With both parameters at least one the variance of a beta distribution is at most that of the uniform
one. -/
lemma beta_variance_le (ha : 1 ≤ a) (hb : 1 ≤ b) :
    a * b / ((a + b) ^ 2 * (a + b + 1)) ≤ 1 / 12 := by
  have hsum : 0 < (a + b) ^ 2 * (a + b + 1) := by positivity
  have hmean : 4 * (a * b) ≤ (a + b) ^ 2 := by linarith [sq_nonneg (a - b), sq (a - b), sq (a + b)]
  have hscale : (a + b) ^ 2 * 3 ≤ (a + b) ^ 2 * (a + b + 1) :=
    mul_le_mul_of_nonneg_left (by linarith) (sq_nonneg _)
  rw [div_le_div_iff₀ hsum (by norm_num)]
  linarith

namespace PolymarketTCN

variable (m : PolymarketTCN φ ι K A) (xs : List (φ → K))

lemma one_le_alpha : 1 ≤ m.alpha fn xs := le_add_of_nonneg_left (fn.softplus_nonneg _)

lemma one_le_beta : 1 ≤ m.beta fn xs := le_add_of_nonneg_left (fn.softplus_nonneg _)

lemma prob_mem : 0 < (m.forward fn xs).1 ∧ (m.forward fn xs).1 < 1 := by
  have halpha : 0 < m.alpha fn xs := one_pos.trans_le (m.one_le_alpha xs)
  have hbeta : 0 < m.beta fn xs := one_pos.trans_le (m.one_le_beta xs)
  refine ⟨div_pos halpha (add_pos halpha hbeta), ?_⟩
  apply (div_lt_one (add_pos halpha hbeta)).mpr
  exact lt_add_of_pos_right _ hbeta

lemma unc_mem : 0 < (m.forward fn xs).2.1 ∧ (m.forward fn xs).2.1 ≤ 1 / 12 := by
  have halpha : 0 < m.alpha fn xs := one_pos.trans_le (m.one_le_alpha xs)
  have hbeta : 0 < m.beta fn xs := one_pos.trans_le (m.one_le_beta xs)
  refine ⟨?_, beta_variance_le (m.one_le_alpha xs) (m.one_le_beta xs)⟩
  dsimp only [forward]
  positivity

end PolymarketTCN

end Beta

/-! ### The combination -/

section Ensemble

open Weighted

variable {φ K A : Type} [Fintype φ] [Field K] [LinearOrder K] [IsStrictOrderedRing K]

lemma softmax_pos (fn : Activations K) (weights : Fin 3 → K) (i : Fin 3) : 0 < softmax fn weights i :=
  div_pos (fn.exp_pos _) (Finset.sum_pos (fun _ _ => fn.exp_pos _) Finset.univ_nonempty)

lemma sum_softmax (fn : Activations K) (weights : Fin 3 → K) : ∑ i, softmax fn weights i = 1 := by
  have hsum : 0 < ∑ j, fn.exp (weights j) :=
    Finset.sum_pos (fun _ _ => fn.exp_pos _) Finset.univ_nonempty
  simp only [softmax, ← Finset.sum_div]
  exact div_self hsum.ne'

/-- Values with weights, as parts. -/
def partsOf (w x : Fin 3 → K) : List (K × K) := (List.finRange 3).map fun i => (w i, x i)

variable {w x : Fin 3 → K}

omit [LinearOrder K] [IsStrictOrderedRing K] in
lemma weight_partsOf : weight (partsOf w x) = ∑ i, w i := by
  rw [weight, partsOf, List.map_map, Fin.sum_univ_def]
  rfl

omit [LinearOrder K] [IsStrictOrderedRing K] in
lemma total_partsOf : total (partsOf w x) = ∑ i, w i * x i := by
  rw [total, partsOf, List.map_map, Fin.sum_univ_def]
  rfl

omit [LinearOrder K] [IsStrictOrderedRing K] in
/-- The weighted sum with the weights divided by their sum is a mean. -/
lemma sum_mul_div (w x : Fin 3 → K) : ∑ i, x i * (w i / ∑ j, w j) = mean (partsOf w x) := by
  rw [mean, weight_partsOf, total_partsOf, Finset.sum_div]
  exact Finset.sum_congr rfl fun i _ => by rw [mul_div_assoc', mul_comm]

omit [Field K] [LinearOrder K] [IsStrictOrderedRing K] in
lemma forall_mem_partsOf {P : K × K → Prop} :
    (∀ part ∈ partsOf w x, P part) ↔ ∀ i, P (w i, x i) := by
  simp [partsOf]

omit [Field K] [LinearOrder K] [IsStrictOrderedRing K] in
lemma partsOf_ne_nil : partsOf w x ≠ [] := by
  simp [partsOf]

/-- A mean lies between two of its values. -/
lemma mean_partsOf_mem (hpos : ∀ i, 0 < w i) :
    ∃ i j, x i ≤ mean (partsOf w x) ∧ mean (partsOf w x) ≤ x j := by
  obtain ⟨low, hlow, hle⟩ := exists_le_mean (forall_mem_partsOf.mpr hpos) (partsOf_ne_nil (x := x))
  obtain ⟨high, hhigh, hge⟩ := exists_mean_le (forall_mem_partsOf.mpr hpos) (partsOf_ne_nil (x := x))
  obtain ⟨i, -, rfl⟩ := List.mem_map.mp hlow
  obtain ⟨j, -, rfl⟩ := List.mem_map.mp hhigh
  exact ⟨i, j, hle, hge⟩

namespace PolymarketEnsemble

variable (fn : Activations K) (e : PolymarketEnsemble φ K A) (xs : List (φ → K))

lemma unc_pos (i : Fin 3) : 0 < e.unc fn xs i := ((e.models i).2.unc_mem xs).1

lemma uncEpsilon_pos : 0 < (uncEpsilon : K) := by
  unfold uncEpsilon
  positivity

lemma combinedWeight_pos (i : Fin 3) : 0 < e.combinedWeight fn xs i :=
  mul_pos (one_div_pos.mpr (add_pos (e.unc_pos fn xs i) uncEpsilon_pos)) (softmax_pos fn _ i)

/-- The uncertainty that the meta-weights alone would give is not smaller. -/
lemma unc_le : mean (partsOf (e.combinedWeight fn xs) (e.unc fn xs)) ≤
    ∑ i, softmax fn e.metaWeights i * e.unc fn xs i := by
  have hparts : partsOf (e.combinedWeight fn xs) (e.unc fn xs) =
      (partsOf (softmax fn e.metaWeights) (e.unc fn xs)).map
        fun part => (part.1 * (1 / (part.2 + uncEpsilon)), part.2) := by
    simp [partsOf, combinedWeight, mul_comm]
  have hmean : mean (partsOf (softmax fn e.metaWeights) (e.unc fn xs)) =
      ∑ i, softmax fn e.metaWeights i * e.unc fn xs i := by
    rw [mean, weight_partsOf, total_partsOf, sum_softmax, div_one]
  rw [hparts, ← hmean]
  apply mean_favouring_le (g := fun u => 1 / (u + uncEpsilon)) _ _ partsOf_ne_nil
  · intro u hu
    exact one_div_pos.mpr (add_pos hu uncEpsilon_pos)
  · intro u v hu hle
    exact one_div_le_one_div_of_le (add_pos hu uncEpsilon_pos) (add_le_add_left hle _)
  · exact forall_mem_partsOf.mpr (softmax_pos fn _)
  · exact forall_mem_partsOf.mpr (e.unc_pos fn xs)

end PolymarketEnsemble

/-- The prediction of the ensemble is a probability between those of two members, and its uncertainty lies
between those of two members, is at most `1/12`, and is not above that of the meta-weights alone. -/
theorem ensemble_forward (fn : Activations K) (e : PolymarketEnsemble φ K A) (xs : List (φ → K)) :
    let (prob, unc) := e.forward fn xs
    (∃ i j, e.prob fn xs i ≤ prob ∧ prob ≤ e.prob fn xs j) ∧ (0 < prob ∧ prob < 1) ∧
      (∃ i j, e.unc fn xs i ≤ unc ∧ unc ≤ e.unc fn xs j) ∧ (0 < unc ∧ unc ≤ 1 / 12) ∧
      unc ≤ ∑ i, softmax fn e.metaWeights i * e.unc fn xs i := by
  have hforward : e.forward fn xs = (mean (partsOf (e.combinedWeight fn xs) (e.prob fn xs)),
      mean (partsOf (e.combinedWeight fn xs) (e.unc fn xs))) := by
    simp only [PolymarketEnsemble.forward, PolymarketEnsemble.normalWeight, sum_mul_div]
  have hpos := e.combinedWeight_pos fn xs
  rw [hforward]
  obtain ⟨i, j, hlow, hhigh⟩ := mean_partsOf_mem (x := e.prob fn xs) hpos
  obtain ⟨k, l, hleast, hmost⟩ := mean_partsOf_mem (x := e.unc fn xs) hpos
  have hprob : ∀ i, 0 < e.prob fn xs i ∧ e.prob fn xs i < 1 := fun i => (e.models i).2.prob_mem xs
  have hunc : ∀ i, 0 < e.unc fn xs i ∧ e.unc fn xs i ≤ 1 / 12 := fun i => (e.models i).2.unc_mem xs
  exact ⟨⟨i, j, hlow, hhigh⟩, ⟨(hprob i).1.trans_le hlow, hhigh.trans_lt (hprob j).2⟩,
    ⟨k, l, hleast, hmost⟩, ⟨(hunc k).1.trans_le hleast, hmost.trans (hunc l).2⟩, e.unc_le fn xs⟩

end Ensemble

/-- An ensemble with the sizes of the source and equal meta-weights. -/
def addingEnsemble (K : Type) [Field K] : PolymarketEnsemble (Fin 10) K Unit where
  models := ![⟨32, addingTcn 3 4⟩, ⟨24, addingTcn 5 6⟩, ⟨48, addingTcn 7 3⟩]
  metaWeights _ := 1 / 3

theorem ensemble_forward_real :
    ((addingEnsemble ℝ).forward realActivations (List.replicate 64 1)).2 ≤ 1 / 12 :=
  (ensemble_forward realActivations (addingEnsemble ℝ) (List.replicate 64 1)).2.2.2.1.2

end PolyCortex
