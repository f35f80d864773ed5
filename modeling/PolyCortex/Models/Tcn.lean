import Mathlib.Algebra.BigOperators.Fin
import Mathlib.Algebra.Order.BigOperators.Ring.Finset
import Mathlib.Probability.CDF
import Mathlib.Probability.Distributions.Gaussian.Real
import Mathlib.Tactic
import PolyCortex.Data.Reach

/-!
# The temporal convolutional network

A `PolymarketTCN` in evaluation mode: a projection of the features, blocks of dilated convolutions with
residuals, attention, and two heads for the parameters of a beta distribution. A row of the backbone's
output is settled by the last `receptiveField` rows of the features and by no other ones, and that bound
is exact (`backbone_receptiveField`).
-/

namespace PolyCortex

open Series

/-- What the network takes from the library besides linear maps: the nonlinear functions, with what is
known of them. -/
structure Activations (K : Type) [Field K] [LinearOrder K] where
  gelu : K → K
  softplus : K → K
  exp : K → K
  gelu_zero : gelu 0 = 0
  gelu_pos : ∀ x, 0 < x → 0 < gelu x
  softplus_nonneg : ∀ x, 0 ≤ softplus x
  exp_pos : ∀ x, 0 < exp x

section Layers

variable {ι κ φ K A : Type}

/-- `nn.Conv1d`: `kernel` rows of input channels, `dilation` apart, to a row of output channels. -/
structure Conv1d (ι κ K : Type) (kernel : ℕ) where
  weight : κ → ι → Fin kernel → K
  bias : κ → K
  dilation : ℕ := 1
  padding : ℕ := 0

/-- `nn.BatchNorm1d` in evaluation mode, with the running statistics. -/
structure BatchNorm1d (ι K : Type) where
  mean : ι → K
  deviation : ι → K
  weight : ι → K
  bias : ι → K

/-- `nn.Linear`. -/
structure Linear (ι κ K : Type) where
  weight : κ → ι → K
  bias : κ → K

variable [Field K]

namespace Conv1d

variable {kernel : ℕ} (c : Conv1d ι κ K kernel)

/-- Rows of zeros on both sides. -/
def padded (xs : List (ι → K)) : List (ι → K) :=
  List.replicate c.padding 0 ++ xs ++ List.replicate c.padding 0

variable [Fintype ι]

/-- The output where tap `j` of the kernel reads `row j`. -/
def apply (row : Fin kernel → ι → K) : κ → K := fun out =>
  c.bias out + ∑ channel, ∑ j, c.weight out channel j * row j channel

def forward (xs : List (ι → K)) : List (κ → K) :=
  (List.range ((c.padded xs).length - c.dilation * (kernel - 1))).map fun t =>
    c.apply fun j => (c.padded xs).getD (t + j * c.dilation) 0

/-- The convolution that reads no later row: tap `j` is `kernel - 1 - j` dilations behind, and reads zeros
before the start. -/
def causal (xs : List (ι → K)) : List (κ → K) :=
  (List.range xs.length).map fun t =>
    c.apply fun j => (ago xs t ((kernel - 1 - j) * c.dilation)).getD 0

end Conv1d

/-- One normalised value, `(x - mean) / sqrt(var + eps) * weight + bias`. -/
def BatchNorm1d.forward (norm : BatchNorm1d ι K) (x : ι → K) : ι → K := fun channel =>
  (x channel - norm.mean channel) / norm.deviation channel * norm.weight channel + norm.bias channel

def Linear.forward [Fintype ι] (l : Linear ι κ K) (x : ι → K) : κ → K := fun out =>
  l.bias out + ∑ channel, l.weight out channel * x channel

/-- A block of the backbone; its dropout is off in evaluation mode. -/
structure Block (ι K : Type) (kernel : ℕ) where
  conv : Conv1d ι ι K kernel
  norm : BatchNorm1d ι K

/-- The weights of a block, before it has been given its dilation. -/
structure BlockWeights (ι K : Type) (kernel : ℕ) where
  weight : ι → ι → Fin kernel → K
  bias : ι → K
  norm : BatchNorm1d ι K

def makeBlock {kernel : ℕ} (w : BlockWeights ι K kernel) (dilation : ℕ) : Block ι K kernel where
  conv := { weight := w.weight, bias := w.bias, dilation, padding := (kernel - 1) * dilation }
  norm := w.norm

/-- A normalisation that changes nothing. -/
def plainNorm : BatchNorm1d ι K where
  mean := 0
  deviation := 1
  weight := 1
  bias := 0

lemma plainNorm_forward (x : ι → K) : (plainNorm : BatchNorm1d ι K).forward x = x := by
  funext channel
  simp [BatchNorm1d.forward, plainNorm]

variable [LinearOrder K]

def Block.forward [Fintype ι] {kernel : ℕ} (fn : Activations K) (block : Block ι K kernel)
    (xs : List (ι → K)) : List (ι → K) :=
  ((block.conv.forward xs).map block.norm.forward).map fun x channel => fn.gelu (x channel)

/-- One pass of the loop over the layers: the causal trim and the residual. -/
def Block.residual [Fintype ι] {kernel : ℕ} (fn : Activations K) (block : Block ι K kernel)
    (xs : List (ι → K)) : List (ι → K) :=
  List.zipWith (· + ·) ((block.forward fn xs).take xs.length) xs

/-- `nn.Sequential(Linear, ReLU, Linear, Softplus)`. -/
structure Head (ι K : Type) where
  hidden : Linear ι (Fin 16) K
  output : Linear (Fin 16) Unit K

def Head.forward [Fintype ι] (fn : Activations K) (head : Head ι K) (x : ι → K) : K :=
  fn.softplus (head.output.forward (fun unit => max (head.hidden.forward x unit) 0) ())

/-- The network for features `φ` and channels `ι`, with a block for each layer. The attention and the layer
norm are what the library has made of their weights. -/
structure PolymarketTCN (φ ι K A : Type) where
  kernelSize : ℕ
  inputWeight : ι → φ → Fin 1 → K
  inputBias : ι → K
  blocks : List (BlockWeights ι K kernelSize)
  attention : List (ι → K) → List (ι → K) × A
  norm : (ι → K) → ι → K
  alphaHead : Head ι K
  betaHead : Head ι K

end Layers

/-! ### The causal trim -/

section Conv1d

variable {φ κ K : Type} [Fintype φ] [Field K] {kernel : ℕ} {c : Conv1d φ κ K kernel}

lemma Conv1d.length_forward (hpadding : c.padding = (kernel - 1) * c.dilation) (xs : List (φ → K)) :
    (c.forward xs).length = xs.length + c.padding := by
  simp only [forward, padded, List.length_map, List.length_range, List.length_append,
    List.length_replicate, hpadding, mul_comm c.dilation]
  omega

omit [Fintype φ] in
/-- What a tap reads of the padded rows. -/
lemma Conv1d.getD_padded (hpadding : c.padding = (kernel - 1) * c.dilation) {xs : List (φ → K)} {t : ℕ}
    (ht : t < xs.length) (j : Fin kernel) :
    (c.padded xs).getD (t + j * c.dilation) 0 = (ago xs t ((kernel - 1 - j) * c.dilation)).getD 0 := by
  have hsplit : (kernel - 1 - j) * c.dilation + j * c.dilation = c.padding := by
    rw [← Nat.add_mul, Nat.sub_add_cancel (by omega), hpadding]
  rw [padded, List.append_assoc, List.getD_eq_getElem?_getD]
  by_cases hstarted : (kernel - 1 - j) * c.dilation ≤ t
  · rw [ago_of_le hstarted, List.getElem?_append_right (by rw [List.length_replicate]; omega),
      List.length_replicate, List.getElem?_append_left (by omega)]
    congr 2
    omega
  · rw [ago_of_lt (by omega), List.getElem?_append_left (by rw [List.length_replicate]; omega),
      List.getElem?_replicate_of_lt (by omega)]
    rfl

/-- Padded on both sides and trimmed to its input, the convolution is causal. -/
lemma Conv1d.take_forward (hpadding : c.padding = (kernel - 1) * c.dilation) (xs : List (φ → K)) :
    (c.forward xs).take xs.length = c.causal xs := by
  refine List.ext_getElem? fun t => ?_
  rw [List.getElem?_take]
  by_cases ht : t < xs.length
  · have hforward := c.length_forward hpadding xs
    rw [if_pos ht, forward, causal, List.getElem?_map, List.getElem?_map,
      List.getElem?_range (by simpa [forward] using hforward.ge.trans_lt' (by omega)),
      List.getElem?_range ht]
    simp only [Option.map_some, c.getD_padded hpadding ht]
  · rw [if_neg ht, List.getElem?_eq_none (by rw [causal, List.length_map, List.length_range]; omega)]

lemma Conv1d.getElem?_causal {xs : List (φ → K)} {t : ℕ} (ht : t < xs.length) :
    (c.causal xs)[t]? = some (c.apply fun j => (ago xs t ((kernel - 1 - j) * c.dilation)).getD 0) := by
  rw [causal, List.getElem?_map, List.getElem?_range ht, Option.map_some]

lemma Conv1d.reaches_causal : Reaches ((kernel - 1) * c.dilation + 1) c.causal where
  length_eq xs := by rw [causal, List.length_map, List.length_range]
  agree hi hj h := by
    rw [getElem?_causal hi, getElem?_causal hj]
    congr 2
    funext j
    rw [h _ (Nat.lt_succ_of_le (Nat.mul_le_mul_right _ (Nat.sub_le _ _)))]

/-- Without padding and with one tap there is nothing to trim. -/
lemma Conv1d.forward_eq_causal {c : Conv1d φ κ K 1} (hpadding : c.padding = 0) : c.forward = c.causal := by
  have htrim : c.padding = (1 - 1) * c.dilation := by rw [hpadding, Nat.zero_mul]
  funext xs
  rw [← c.take_forward htrim, List.take_of_length_le]
  rw [c.length_forward htrim, hpadding, Nat.add_zero]

lemma Conv1d.apply_adding (hweight : c.weight = 1) (hbias : c.bias = 0) (row : Fin kernel → φ → K)
    (out : κ) : c.apply row out = ∑ channel, ∑ j, row j channel := by
  simp [apply, hweight, hbias]

end Conv1d

section Network

variable {φ ι K A : Type} [Fintype φ] [Fintype ι] [Field K] [LinearOrder K]

namespace PolymarketTCN

def inputProj (m : PolymarketTCN φ ι K A) : Conv1d φ ι K 1 where
  weight := m.inputWeight
  bias := m.inputBias

/-- Layer `i` has the dilation `2**i`. -/
def layers (m : PolymarketTCN φ ι K A) : List (Block ι K m.kernelSize) :=
  m.blocks.zipIdx.map fun (block, i) => makeBlock block (2 ^ i)

/-- The projection and the loop over the layers. -/
def backbone (fn : Activations K) (m : PolymarketTCN φ ι K A) (xs : List (φ → K)) : List (ι → K) :=
  m.layers.foldl (fun x layer => layer.residual fn x) (m.inputProj.forward xs)

/-- The rows that the backbone reads for a row: 31, 253 and 43 in the networks of the ensemble. -/
def receptiveField (m : PolymarketTCN φ ι K A) : ℕ :=
  (m.kernelSize - 1) * (2 ^ m.blocks.length - 1) + 1

end PolymarketTCN

/-! ### The receptive field -/

section Backbone

variable {fn : Activations K} {kernel : ℕ} {layer : Block ι K kernel}

/-- The convolution of the layer is padded for the causal trim. -/
def Block.Trimmed (layer : Block ι K kernel) : Prop :=
  layer.conv.padding = (kernel - 1) * layer.conv.dilation

omit [Fintype ι] [Field K] [LinearOrder K] in
lemma trimmed_makeBlock (w : BlockWeights ι K kernel) (dilation : ℕ) :
    (makeBlock w dilation).Trimmed := rfl

lemma Block.residual_eq (h : layer.Trimmed) (xs : List (ι → K)) :
    layer.residual fn xs =
      List.zipWith (· + ·)
        ((layer.conv.causal xs).map fun x channel => fn.gelu (layer.norm.forward x channel)) xs := by
  rw [residual, forward, List.map_map, ← List.map_take, layer.conv.take_forward h]
  rfl

variable (fn) in
lemma Block.reaches_residual (h : layer.Trimmed) :
    Reaches ((kernel - 1) * layer.conv.dilation + 1) (layer.residual fn) := by
  have hout : Reaches ((kernel - 1) * layer.conv.dilation + 1) fun xs : List (ι → K) =>
      (layer.conv.causal xs).map fun x channel => fn.gelu (layer.norm.forward x channel) := by
    simpa using (Reaches.map _).comp layer.conv.reaches_causal
  simpa only [funext (layer.residual_eq h), id] using
    hout.zipWith (Reaches.id.mono (Nat.le_add_left 1 _)) (· + ·)

variable (fn) in
/-- The reaches of the layers add up. -/
lemma reaches_foldl (layers : List (Block ι K kernel)) (h : ∀ layer ∈ layers, layer.Trimmed) :
    Reaches ((layers.map fun layer => (kernel - 1) * layer.conv.dilation).sum + 1)
      fun xs => layers.foldl (fun x layer => layer.residual fn x) xs := by
  induction layers with
  | nil => exact Reaches.id
  | cons layer layers ih =>
    rw [List.forall_mem_cons] at h
    have hcomp := (ih h.2).comp (Block.reaches_residual fn h.1)
    rwa [List.map_cons, List.sum_cons, Nat.add_comm _ (List.sum _)]

namespace PolymarketTCN

variable (m : PolymarketTCN φ ι K A)

omit [Fintype φ] [Fintype ι] [Field K] [LinearOrder K] in
lemma trimmed_of_mem_layers {layer : Block ι K m.kernelSize} (h : layer ∈ m.layers) : layer.Trimmed := by
  obtain ⟨⟨block, i⟩, -, rfl⟩ := List.mem_map.mp h
  exact trimmed_makeBlock block (2 ^ i)

omit [Fintype ι] [Field K] [LinearOrder K] in
/-- The dilations double from layer to layer. -/
lemma sum_dilations {kernel : ℕ} (blocks : List (BlockWeights ι K kernel)) (first : ℕ) :
    ((blocks.zipIdx first).map fun (block, i) => (kernel - 1) * (makeBlock block (2 ^ i)).conv.dilation).sum
      + (kernel - 1) * 2 ^ first = (kernel - 1) * 2 ^ (first + blocks.length) := by
  induction blocks generalizing first with
  | nil => simp
  | cons block blocks ih =>
    have hnext := ih (first + 1)
    simp only [List.zipIdx_cons, List.map_cons, List.sum_cons, List.length_cons, makeBlock] at hnext ⊢
    rw [show first + (blocks.length + 1) = first + 1 + blocks.length by omega, ← hnext, pow_succ]
    ring

omit [Fintype φ] [Fintype ι] [Field K] [LinearOrder K] in
lemma sum_layers :
    (m.layers.map fun layer => (m.kernelSize - 1) * layer.conv.dilation).sum + 1 = m.receptiveField := by
  have hsum := sum_dilations m.blocks 0
  rw [pow_zero, mul_one, Nat.zero_add] at hsum
  rw [layers, List.map_map, receptiveField, Nat.mul_sub, mul_one, ← hsum, Nat.add_sub_cancel]
  rfl

lemma reaches_backbone : Reaches m.receptiveField (m.backbone fn) := by
  have hlayers := reaches_foldl fn m.layers fun _ => m.trimmed_of_mem_layers
  have hinput : Reaches (0 + 1) m.inputProj.forward := by
    simpa [Conv1d.forward_eq_causal (c := m.inputProj) rfl] using m.inputProj.reaches_causal
  rw [m.sum_layers] at hlayers
  exact hlayers.comp hinput

end PolymarketTCN

end Backbone
end Network

/-! ### The receptive field is exact -/

section Lit

variable {φ K : Type} [Field K] [LinearOrder K] {i t p : ℕ} {xs ys : List (φ → K)}

/-- No row is negative, and row `i` is positive. -/
structure Lit (i : ℕ) (xs : List (φ → K)) : Prop where
  nonneg : ∀ x ∈ xs, ∀ channel, 0 ≤ x channel
  pos : ∃ x, xs[i]? = some x ∧ ∀ channel, 0 < x channel

lemma ago_nonneg (h : ∀ x ∈ xs, ∀ channel, 0 ≤ x channel) (channel : φ) :
    0 ≤ (ago xs t p).getD 0 channel := by
  cases hrow : ago xs t p with
  | none => exact le_rfl
  | some x =>
    by_cases hle : p ≤ t
    · rw [ago_of_le hle] at hrow
      exact h x (List.mem_of_getElem? hrow) channel
    · simp [ago_of_lt (Nat.lt_of_not_le hle)] at hrow

namespace Lit

lemma lt_length (h : Lit i xs) : i < xs.length := by
  obtain ⟨x, hx, -⟩ := h.pos
  exact (List.getElem?_eq_some_iff.mp hx).1

lemma map_gelu (fn : Activations K) (h : Lit i xs) :
    Lit i (xs.map fun x channel => fn.gelu (x channel)) where
  nonneg := by
    intro y hy channel
    obtain ⟨x, hx, rfl⟩ := List.mem_map.mp hy
    rcases (h.nonneg x hx channel).eq_or_lt with hzero | hpos
    · simp [← hzero, fn.gelu_zero]
    · exact (fn.gelu_pos _ hpos).le
  pos := by
    obtain ⟨x, hx, hpos⟩ := h.pos
    exact ⟨_, by rw [List.getElem?_map, hx, Option.map_some], fun channel => fn.gelu_pos _ (hpos channel)⟩

variable [IsStrictOrderedRing K]

lemma add (h : Lit i xs) (hlength : xs.length = ys.length)
    (hys : ∀ y ∈ ys, ∀ channel, 0 ≤ y channel) : Lit i (List.zipWith (· + ·) xs ys) where
  nonneg := by
    intro z hz channel
    obtain ⟨t, ht⟩ := List.mem_iff_getElem?.mp hz
    obtain ⟨x, y, hx, hy, rfl⟩ := List.getElem?_zipWith_eq_some.mp ht
    exact add_nonneg (h.nonneg x (List.mem_of_getElem? hx) channel)
      (hys y (List.mem_of_getElem? hy) channel)
  pos := by
    obtain ⟨x, hx, hpos⟩ := h.pos
    have hi : i < ys.length := hlength ▸ h.lt_length
    have hy := List.getElem?_eq_getElem hi
    refine ⟨x + ys[i], List.getElem?_zipWith_eq_some.mpr ⟨x, ys[i], hx, hy, rfl⟩, fun channel => ?_⟩
    exact add_pos_of_pos_of_nonneg (hpos channel) (hys _ (List.getElem_mem hi) channel)

/-- The first tap reads the positive row, the others nothing negative. -/
lemma causal [Fintype φ] [Nonempty φ] {κ : Type} {kernel : ℕ} {c : Conv1d φ κ K kernel}
    (hweight : c.weight = 1) (hbias : c.bias = 0) (hkernel : 0 < kernel) (h : Lit i xs)
    (hi : i + (kernel - 1) * c.dilation < xs.length) :
    Lit (i + (kernel - 1) * c.dilation) (c.causal xs) where
  nonneg := by
    intro x hx out
    obtain ⟨t, -, rfl⟩ := List.mem_map.mp hx
    rw [c.apply_adding hweight hbias]
    exact Finset.sum_nonneg fun channel _ => Finset.sum_nonneg fun j _ => ago_nonneg h.nonneg channel
  pos := by
    obtain ⟨x, hx, hpos⟩ := h.pos
    refine ⟨_, c.getElem?_causal hi, fun out => ?_⟩
    rw [c.apply_adding hweight hbias]
    apply Finset.sum_pos _ Finset.univ_nonempty
    intro channel _
    apply Finset.sum_pos' fun j _ => ago_nonneg h.nonneg channel
    refine ⟨⟨0, hkernel⟩, Finset.mem_univ _, ?_⟩
    rw [Nat.sub_zero, ago_of_le (Nat.le_add_left _ _), Nat.add_sub_cancel, hx]
    exact hpos channel

end Lit
end Lit

section Adding

variable {φ ι K : Type} [Fintype φ] [Fintype ι] [Field K] [LinearOrder K] {fn : Activations K}
  {kernel i : ℕ}

/-- A block that adds up all that its taps read. -/
def addingBlock (kernel : ℕ) : BlockWeights ι K kernel where
  weight := 1
  bias := 0
  norm := plainNorm

/-- A network whose convolutions add up all that they read. -/
def addingTcn (kernelSize n_layers : ℕ) : PolymarketTCN φ ι K Unit where
  kernelSize
  inputWeight := 1
  inputBias := 0
  blocks := List.replicate n_layers (addingBlock kernelSize)
  attention xs := (xs, ())
  norm := id
  alphaHead := ⟨⟨0, 0⟩, ⟨0, 0⟩⟩
  betaHead := ⟨⟨0, 0⟩, ⟨0, 0⟩⟩

omit [LinearOrder K] in
lemma causal_zero {κ : Type} {c : Conv1d φ κ K kernel} (hbias : c.bias = 0) {xs : List (φ → K)}
    (h : ∀ x ∈ xs, x = 0) : ∀ y ∈ c.causal xs, y = 0 := by
  have hrow : ∀ t p, (ago xs t p).getD 0 = 0 := by
    intro t p
    rw [ago]
    split_ifs
    · cases hx : xs[t - p]? with
      | none => rfl
      | some x => exact h x (List.mem_of_getElem? hx)
    · rfl
  intro y hy
  obtain ⟨t, -, rfl⟩ := List.mem_map.mp hy
  funext out
  simp [Conv1d.apply, hbias, hrow]

/-- Rows of zeros stay what they are. -/
lemma foldl_zero (layers : List (Block ι K kernel))
    (h : ∀ layer ∈ layers, ∃ dilation, layer = makeBlock (addingBlock kernel) dilation)
    {xs : List (ι → K)} (hxs : ∀ x ∈ xs, x = 0) :
    ∀ y ∈ layers.foldl (fun x layer => layer.residual fn x) xs, y = 0 := by
  induction layers generalizing xs with
  | nil => exact hxs
  | cons layer layers ih =>
    rw [List.forall_mem_cons] at h
    obtain ⟨⟨dilation, rfl⟩, hlayers⟩ := h
    apply ih hlayers
    intro z hz
    dsimp only at hz
    rw [Block.residual_eq (trimmed_makeBlock _ _)] at hz
    obtain ⟨t, ht⟩ := List.mem_iff_getElem?.mp hz
    obtain ⟨y, x, hy, hx, rfl⟩ := List.getElem?_zipWith_eq_some.mp ht
    obtain ⟨row, hrow, rfl⟩ := List.mem_map.mp (List.mem_of_getElem? hy)
    have hzero : row = 0 := causal_zero rfl hxs row hrow
    funext channel
    simp [hxs x (List.mem_of_getElem? hx), hzero, makeBlock, addingBlock, plainNorm_forward, fn.gelu_zero]

variable [IsStrictOrderedRing K] [Nonempty φ] [Nonempty ι]

/-- The positive row moves by the lag of the layer. -/
lemma Lit.residual {dilation : ℕ} {xs : List (ι → K)} (hkernel : 0 < kernel) (h : Lit i xs)
    (hi : i + (kernel - 1) * dilation < xs.length) :
    Lit (i + (kernel - 1) * dilation)
      ((makeBlock (addingBlock kernel) dilation : Block ι K kernel).residual fn xs) := by
  have hcausal := h.causal (c := (makeBlock (addingBlock kernel) dilation).conv) rfl rfl hkernel hi
  rw [Block.residual_eq (trimmed_makeBlock _ _)]
  apply Lit.add _ (by simp [Conv1d.causal]) h.nonneg
  simpa [makeBlock, addingBlock, plainNorm_forward] using hcausal.map_gelu fn

variable (fn) in
/-- The positive row moves by the lags of all layers. -/
lemma Lit.foldl (first n_layers : ℕ) {xs : List (ι → K)} (hkernel : 0 < kernel) (h : Lit i xs)
    (hi : i + (kernel - 1) * (2 ^ first * (2 ^ n_layers - 1)) < xs.length) :
    Lit (i + (kernel - 1) * (2 ^ first * (2 ^ n_layers - 1)))
      ((((List.replicate n_layers (addingBlock kernel : BlockWeights ι K kernel)).zipIdx first).map
        fun (block, i) => makeBlock block (2 ^ i)).foldl (fun x layer => layer.residual fn x) xs) := by
  induction n_layers generalizing first i xs with
  | zero => simpa using h
  | succ n_layers ih =>
    have hlags : (kernel - 1) * (2 ^ first * (2 ^ (n_layers + 1) - 1)) =
        (kernel - 1) * 2 ^ first + (kernel - 1) * (2 ^ (first + 1) * (2 ^ n_layers - 1)) := by
      obtain ⟨k, hk⟩ := Nat.exists_eq_add_of_le (Nat.one_le_two_pow (n := n_layers))
      rw [← Nat.mul_add, pow_succ 2 n_layers, pow_succ 2 first, hk, Nat.add_sub_cancel_left,
        show (1 + k) * 2 - 1 = 2 * k + 1 by omega]
      ring
    rw [hlags, ← Nat.add_assoc] at hi ⊢
    rw [List.replicate_succ, List.zipIdx_cons, List.map_cons, List.foldl_cons]
    have hlayer : Lit (i + (kernel - 1) * 2 ^ first)
        ((makeBlock (addingBlock kernel) (2 ^ first) : Block ι K kernel).residual fn xs) :=
      h.residual hkernel (by omega)
    apply ih (first + 1) hlayer
    rwa [(Block.reaches_residual fn (trimmed_makeBlock _ _)).length_eq]

/-- The network that adds up what it reads sees its first row as far away as the receptive field goes. -/
lemma addingTcn_not_reaches (kernelSize n_layers : ℕ) :
    let m : PolymarketTCN φ ι K Unit := addingTcn (kernelSize + 1) n_layers
    ¬ Reaches (m.receptiveField - 1) (m.backbone fn) := by
  intro m hreaches
  have hfield : m.receptiveField - 1 = kernelSize * (2 ^ n_layers - 1) := by
    simp [m, PolymarketTCN.receptiveField, addingTcn]
  obtain ⟨far, hfar⟩ : ∃ far, kernelSize * (2 ^ n_layers - 1) = far := ⟨_, rfl⟩
  rw [hfield, hfar] at hreaches
  have hbackbone : ∀ xs, m.backbone fn xs =
      m.layers.foldl (fun x layer => layer.residual fn x) (m.inputProj.causal xs) := fun xs => by
    rw [PolymarketTCN.backbone, Conv1d.forward_eq_causal rfl]
  have hlength : ∀ xs, (m.inputProj.causal xs).length = xs.length := m.inputProj.reaches_causal.length_eq
  -- a first row of ones that is followed by zeros
  have hlit : Lit far (m.backbone fn (1 :: List.replicate far 0)) := by
    have hfirst : Lit 0 (1 :: List.replicate far 0 : List (φ → K)) := by
      refine ⟨fun x hx channel => ?_, 1, rfl, fun _ => one_pos⟩
      rcases List.mem_cons.mp hx with rfl | hx
      · exact zero_le_one
      · rw [List.eq_of_mem_replicate hx, Pi.zero_apply]
    have hinput : Lit 0 (m.inputProj.causal (1 :: List.replicate far 0)) := by
      simpa using hfirst.causal (c := m.inputProj) rfl rfl Nat.one_pos (by simp)
    rw [hbackbone]
    simpa [m, PolymarketTCN.layers, addingTcn, hfar] using
      hinput.foldl fn 0 n_layers kernelSize.succ_pos (by simp [hlength, hfar])
  -- the same with a row of zeros in its place
  have hdark : ∀ y ∈ m.backbone fn (List.replicate (far + 1) 0), y = 0 := by
    rw [hbackbone]
    apply foldl_zero
    · intro layer hlayer
      obtain ⟨⟨block, i⟩, hblock, rfl⟩ := List.mem_map.mp hlayer
      have hadding := List.eq_of_mem_replicate (List.fst_mem_of_mem_zipIdx hblock)
      exact ⟨2 ^ i, congrArg (makeBlock · (2 ^ i)) hadding⟩
    · exact causal_zero rfl fun x hx => List.eq_of_mem_replicate hx
  obtain ⟨x, hx, hpos⟩ := hlit.pos
  have hrows : ∀ p < far, ago (1 :: List.replicate far (0 : φ → K)) far p =
      ago (List.replicate (far + 1) 0) far p := by
    intro p hp
    rw [ago_of_le (by omega), ago_of_le (by omega), List.replicate_succ,
      List.getElem?_cons, List.getElem?_cons, if_neg (by omega), if_neg (by omega)]
  rw [hreaches.agree (by simp) (by simp) hrows] at hx
  obtain ⟨channel⟩ := ‹Nonempty ι›
  have hzero : x = 0 := hdark x (List.mem_of_getElem? hx)
  exact absurd (hpos channel) (by simp [hzero])

/-- The backbone reads the last `receptiveField` rows up to a row and no others, so that a window of the
history gives, from the row on that is that far from its start, what the whole history gives. No smaller
number of rows would do for networks of this size. -/
theorem backbone_receptiveField {A : Type} (fn : Activations K) :
    (∀ m : PolymarketTCN φ ι K A, Reaches m.receptiveField (m.backbone fn) ∧
      ∀ (xs : List (φ → K)) (n : ℕ), (m.backbone fn (xs.drop n)).drop (m.receptiveField - 1) =
        (m.backbone fn xs).drop (n + (m.receptiveField - 1))) ∧
    ∀ kernelSize n_layers : ℕ, ∃ m : PolymarketTCN φ ι K Unit,
      m.kernelSize = kernelSize + 1 ∧ m.blocks.length = n_layers ∧
        ¬ Reaches (m.receptiveField - 1) (m.backbone fn) := by
  refine ⟨fun m => ⟨m.reaches_backbone, fun xs n => m.reaches_backbone.drop_drop xs n⟩, ?_⟩
  intro kernelSize n_layers
  exact ⟨addingTcn (kernelSize + 1) n_layers, rfl, List.length_replicate,
    addingTcn_not_reaches kernelSize n_layers⟩

end Adding

/-! ### Over the reals -/

section Real

open ProbabilityTheory

/-- The functions of the library: `x * Φ(x)`, `log(1 + exp(x))` and `exp(x)`. -/
noncomputable def realActivations : Activations ℝ where
  gelu x := x * cdf (gaussianReal 0 1) x
  softplus x := Real.log (1 + Real.exp x)
  exp := Real.exp
  gelu_zero := zero_mul _
  gelu_pos x hx := by
    apply mul_pos hx
    rw [cdf_eq_real, MeasureTheory.measureReal_def, ENNReal.toReal_pos_iff]
    refine ⟨pos_iff_ne_zero.mpr fun hnull => ?_, MeasureTheory.measure_lt_top _ _⟩
    have hvolume := gaussianReal_absolutelyContinuous' 0 one_ne_zero hnull
    simp at hvolume
  softplus_nonneg x := Real.log_nonneg (by linarith [Real.exp_pos x])
  exp_pos := Real.exp_pos

theorem backbone_receptiveField_real :
    Reaches 31 ((addingTcn 3 4 : PolymarketTCN (Fin 10) (Fin 32) ℝ Unit).backbone realActivations) :=
  ((backbone_receptiveField realActivations).1 (addingTcn 3 4)).1

end Real

end PolyCortex
