import PolyCortex.Data.Persisted
import PolyCortex.Risk.KillSwitch

/-!
# Wallets

`WalletManager`: the wallets of a list of private keys with their shares of the capital, from arguments
or from the environment. The shares are normalised before the blank keys are dropped, and only their
total is checked, so they are a distribution for some of the lists that are accepted and not for others
(`isDistribution_iff`).
-/

namespace PolyCortex

/-- A wallet; `N` are the numbers of its share and of what it has been used for. -/
structure WalletEntry (N : Type) where
  address : String
  privateKey : String
  allocation : N
  utilization : N
  tradeCount : ℕ := 0
  deriving DecidableEq, Repr

/-- The wallets, at least one, and the next one in turn. -/
structure WalletManager (N : Type) where
  wallets : List (WalletEntry N)
  rrIndex : ℕ := 0
  wallets_ne_nil : wallets ≠ []

/-! ### The constructor -/

/-- The library that derives the address of a key, and `float` of a text, `none` for a `ValueError`. -/
structure WalletLibrary where
  deriveAddress : String → Except PyError String
  float : String → Option PyFloat

def isBlank (key : String) : Bool := strip key = ""

namespace WalletManager

variable (lib : WalletLibrary)

/-- The loop over the keys and their shares. -/
def loadWallets : List (String × PyFloat) → Except PyError (List (WalletEntry PyFloat))
  | [] => .ok []
  | (pk, alloc) :: rest =>
    if isBlank pk then loadWallets rest
    else do
      let addr ← lib.deriveAddress (strip pk)
      let wallets ← loadWallets rest
      return { address := addr, privateKey := strip pk, allocation := alloc, utilization := 0 } :: wallets

/-- `[1.0 / len(private_keys)] * len(private_keys)`. -/
def equalAllocations (privateKeys : List String) : List PyFloat :=
  List.replicate privateKeys.length (.finite (1 / privateKeys.length))

/-- `sum(allocations)`. -/
def totalAllocation (allocations : List PyFloat) : PyFloat := allocations.foldl (· + ·) 0

/-- `WalletManager(private_keys, allocations)`. -/
def new (privateKeys : List String) (allocations : Option (List PyFloat)) :
    Except PyError (WalletManager PyFloat) :=
  if privateKeys = [] then .error .valueError
  else
    let allocations := allocations.getD (equalAllocations privateKeys)
    if allocations.length ≠ privateKeys.length then .error .valueError
    else
      let total := totalAllocation allocations
      if total ≤ 0 then .error .valueError
      else do
        let wallets ← loadWallets lib (privateKeys.zip (allocations.map (· / total)))
        if h : wallets = [] then .error .valueError else .ok { wallets, wallets_ne_nil := h }

/-! ### The environment -/

/-- A token of the variable: a key, and the weight after the first colon. -/
def readToken (token : List Char) : String × PyFloat :=
  if ':' ∈ token then
    (strip (String.ofList (token.takeWhile (· ≠ ':'))),
      (lib.float (String.ofList ((token.dropWhile (· ≠ ':')).drop 1))).getD (.finite 1))
  else (String.ofList token, .finite 1)

/-- The keys and weights in the text of the variable. -/
def readTokens (raw : String) : List (String × PyFloat) :=
  (((raw.toList.splitOn ',').map fun token => (strip (String.ofList token)).toList).filter
    (· ≠ [])).map (readToken lib)

/-- `from_env`, given the values of the two variables. -/
def fromEnv (raw single : String) : Except PyError (WalletManager PyFloat) :=
  if raw = "" then
    if single = "" then .error .valueError else new lib [single] none
  else new lib ((readTokens lib raw).map (·.1)) (some ((readTokens lib raw).map (·.2)))

/-- What a manager is made of. -/
inductive Source where
  | keys (privateKeys : List String) (allocations : Option (List PyFloat))
  | env (raw single : String)

def ofSource : Source → Except PyError (WalletManager PyFloat)
  | .keys privateKeys allocations => new lib privateKeys allocations
  | .env raw single => fromEnv lib raw single

/-! ### Distributions -/

/-- The keys with the weights given to them, equal ones if none are given. -/
def Source.given : Source → List (String × PyFloat)
  | .keys privateKeys allocations =>
    privateKeys.zip (allocations.getD (equalAllocations privateKeys))
  | .env raw single => if raw = "" then [(single, .finite 1)] else readTokens lib raw

/-- Numbers between 0 and 1 whose sum is 1. -/
def IsDistribution (allocations : List PyFloat) : Prop :=
  ∃ shares : List ℚ, allocations = shares.map .finite ∧ (∀ q ∈ shares, 0 ≤ q ∧ q ≤ 1) ∧ shares.sum = 1

/-- All weights are finite, those of the keys that are kept are not negative, and those of the blank
keys add up to nothing. -/
def ProperlyWeighted (given : List (String × PyFloat)) : Prop :=
  ∃ weights : List (String × ℚ), given = weights.map (fun w => (w.1, .finite w.2)) ∧
    (∀ w ∈ weights, isBlank w.1 = false → 0 ≤ w.2) ∧
    ((weights.filter fun w => isBlank w.1).map (·.2)).sum = 0

variable {lib} {given : List (String × PyFloat)} {wallets : List (WalletEntry PyFloat)}

/-- The wallets keep the shares of the keys that are not blank. -/
lemma allocation_loadWallets (h : loadWallets lib given = .ok wallets) :
    wallets.map (·.allocation) = (given.filter fun g => !isBlank g.1).map (·.2) := by
  induction given generalizing wallets with
  | nil =>
    obtain rfl := Except.ok.inj h
    rfl
  | cons g given ih =>
    unfold loadWallets at h
    split_ifs at h with hblank
    · rw [ih h]
      simp [hblank]
    · obtain ⟨addr, -, h⟩ := exists_of_bind_eq_ok h
      obtain ⟨rest, hrest, h⟩ := exists_of_bind_eq_ok h
      obtain rfl := Except.ok.inj h
      simp [hblank, ih hrest]

lemma isFinite_totalAllocation (allocations : List PyFloat) :
    (totalAllocation allocations).isFinite = allocations.all PyFloat.isFinite := by
  induction allocations using List.reverseRecOn with
  | nil => rfl
  | append_singleton allocations a ih =>
    rw [totalAllocation, List.foldl_concat, PyFloat.isFinite_add]
    simp [← ih, totalAllocation]

lemma totalAllocation_finite (weights : List ℚ) :
    totalAllocation (weights.map .finite) = .finite weights.sum := by
  induction weights using List.reverseRecOn with
  | nil => rfl
  | append_singleton weights q ih =>
    rw [totalAllocation, List.map_append, List.map_singleton, List.foldl_concat]
    rw [totalAllocation] at ih
    rw [ih, PyFloat.finite_add, List.sum_append, List.sum_singleton]

/-- The shares of the keys that are not blank. -/
def keptShares (given : List (String × PyFloat)) : List PyFloat :=
  (given.filter fun g => !isBlank g.1).map fun g => g.2 / totalAllocation (given.map (·.2))

/-- What the constructor has checked, and what it has kept. -/
lemma new_ok {privateKeys : List String} {allocations : Option (List PyFloat)}
    {m : WalletManager PyFloat} (h : new lib privateKeys allocations = .ok m)
    (hgiven : given = privateKeys.zip (allocations.getD (equalAllocations privateKeys))) :
    ¬ totalAllocation (given.map (·.2)) ≤ 0 ∧ m.wallets.map (·.allocation) = keptShares given := by
  unfold new at h
  split_ifs at h with hkeys
  dsimp only at h
  revert h hgiven
  generalize allocations.getD (equalAllocations privateKeys) = weights
  intro hgiven h
  split_ifs at h with hlength htotal
  have hweights : given.map (·.2) = weights := by
    rw [hgiven]
    exact List.map_snd_zip (not_not.mp hlength).le
  obtain ⟨wallets, hwallets, h⟩ := exists_of_bind_eq_ok h
  split_ifs at h
  obtain rfl := Except.ok.inj h
  refine ⟨by rwa [hweights], ?_⟩
  rw [allocation_loadWallets hwallets, keptShares, hweights, hgiven, List.zip_map_right,
    List.filter_map, List.map_map]
  rfl

lemma ofSource_ok {source : Source} {m : WalletManager PyFloat} (h : ofSource lib source = .ok m) :
    ¬ totalAllocation ((source.given lib).map (·.2)) ≤ 0 ∧
      m.wallets.map (·.allocation) = keptShares (source.given lib) := by
  cases source with
  | keys privateKeys allocations => exact new_ok h rfl
  | env raw single =>
    have henv : fromEnv lib raw single = .ok m := h
    unfold fromEnv at henv
    split_ifs at henv with hraw hsingle
    · apply new_ok henv
      simp [Source.given, hraw, equalAllocations]
    · apply new_ok henv
      simp [Source.given, hraw, List.zip_map']

/-! ### When the shares are a distribution -/

lemma isFinite_of_isDistribution (h : IsDistribution (keptShares given)) :
    (given.map (·.2)).all PyFloat.isFinite = true := by
  obtain ⟨shares, hshares, -, hsum⟩ := h
  by_contra hnot
  rw [← isFinite_totalAllocation, Bool.not_eq_true] at hnot
  have hzero : ∀ q ∈ shares, q = 0 := by
    intro q hq
    have hmem : PyFloat.finite q ∈ keptShares given := by
      rw [hshares]
      exact List.mem_map_of_mem hq
    obtain ⟨g, -, hg⟩ := List.mem_map.mp hmem
    rcases PyFloat.div_of_not_isFinite g.2 hnot with hdiv | hdiv
    · exact PyFloat.finite.inj (hg.symm.trans hdiv)
    · rw [hg] at hdiv
      exact absurd hdiv (by simp [PyFloat.isFinite])
  rw [List.sum_eq_zero hzero] at hsum
  exact zero_ne_one hsum

/-- Finite weights are numbers. -/
lemma exists_weights (h : (given.map (·.2)).all PyFloat.isFinite = true) :
    ∃ weights : List (String × ℚ), given = weights.map fun w => (w.1, .finite w.2) := by
  induction given with
  | nil => exact ⟨[], rfl⟩
  | cons g given ih =>
    rw [List.map_cons, List.all_cons, Bool.and_eq_true] at h
    obtain ⟨weights, rfl⟩ := ih h.2
    obtain ⟨key, weight⟩ := g
    cases weight with
    | finite q => exact ⟨(key, q) :: weights, rfl⟩
    | infinite n => exact absurd h.1 (by simp [PyFloat.isFinite])
    | nan => exact absurd h.1 (by simp [PyFloat.isFinite])

variable {weights : List (String × ℚ)}

/-- The weights of the keys that are kept. -/
def keptWeights (weights : List (String × ℚ)) : List ℚ :=
  (weights.filter fun w => !isBlank w.1).map (·.2)

def blankWeights (weights : List (String × ℚ)) : List ℚ :=
  (weights.filter fun w => isBlank w.1).map (·.2)

lemma sum_keptWeights (weights : List (String × ℚ)) :
    (blankWeights weights).sum + (keptWeights weights).sum = (weights.map (·.2)).sum := by
  induction weights with
  | nil => simp [blankWeights, keptWeights]
  | cons w weights ih =>
    rw [List.map_cons, List.sum_cons, ← ih]
    cases hblank : isBlank w.1 with
    | true =>
      simp only [blankWeights, keptWeights, List.filter_cons, hblank, Bool.not_true, if_true,
        Bool.false_eq_true, if_false, List.map_cons, List.sum_cons]
      ring
    | false =>
      simp only [blankWeights, keptWeights, List.filter_cons, hblank, Bool.not_false, if_true,
        Bool.false_eq_true, if_false, List.map_cons, List.sum_cons]
      ring

/-- The shares of finite weights, by their total. -/
lemma keptShares_finite (htotal : (weights.map (·.2)).sum ≠ 0) :
    keptShares (weights.map fun w => (w.1, .finite w.2)) =
      ((keptWeights weights).map (· / (weights.map (·.2)).sum)).map .finite := by
  have hmap : (weights.map fun w => (w.1, PyFloat.finite w.2)).map (·.2) =
      (weights.map (·.2)).map .finite := by
    simp
  rw [keptShares, hmap, totalAllocation_finite, List.filter_map, keptWeights]
  simp only [List.map_map]
  refine List.map_congr_left fun w _ => ?_
  exact PyFloat.finite_div w.2 htotal

lemma isDistribution_finite {shares : List ℚ} :
    IsDistribution (shares.map .finite) ↔ (∀ q ∈ shares, 0 ≤ q ∧ q ≤ 1) ∧ shares.sum = 1 := by
  constructor
  · rintro ⟨shares', heq, hmem, hsum⟩
    obtain rfl := List.map_injective_iff.mpr (fun _ _ => PyFloat.finite.inj) heq
    exact ⟨hmem, hsum⟩
  · rintro ⟨hmem, hsum⟩
    exact ⟨shares, rfl, hmem, hsum⟩

lemma properlyWeighted_finite :
    ProperlyWeighted (weights.map fun w => (w.1, .finite w.2)) ↔
      (∀ q ∈ keptWeights weights, 0 ≤ q) ∧ (blankWeights weights).sum = 0 := by
  have hinj : Function.Injective fun w : String × ℚ => (w.1, PyFloat.finite w.2) := by
    rintro ⟨key, q⟩ ⟨key', q'⟩ h
    obtain ⟨hkey, hq⟩ := Prod.mk.inj h
    exact Prod.ext hkey (PyFloat.finite.inj hq)
  have hkept (weights : List (String × ℚ)) : (∀ q ∈ keptWeights weights, 0 ≤ q) ↔
      ∀ w ∈ weights, isBlank w.1 = false → 0 ≤ w.2 := by
    simp only [keptWeights, List.forall_mem_map, List.mem_filter, and_imp, Bool.not_eq_true']
  constructor
  · rintro ⟨weights', heq, hpos, hsum⟩
    obtain rfl := List.map_injective_iff.mpr hinj heq
    exact ⟨(hkept weights).mpr hpos, hsum⟩
  · rintro ⟨hpos, hsum⟩
    exact ⟨weights, rfl, (hkept weights).mp hpos, hsum⟩

/-- Parts of a positive total are shares of one when none is negative and nothing is missing. -/
lemma shares_iff {kept : List ℚ} {blank total : ℚ} (htotal : 0 < total)
    (hsum : blank + kept.sum = total) :
    ((∀ q ∈ kept.map (· / total), 0 ≤ q ∧ q ≤ 1) ∧ (kept.map (· / total)).sum = 1) ↔
      (∀ q ∈ kept, 0 ≤ q) ∧ blank = 0 := by
  have hshares : (kept.map (· / total)).sum = 1 ↔ blank = 0 := by
    have hsumDiv : (kept.map (· / total)).sum = kept.sum / total := by
      simp only [div_eq_mul_inv]
      rw [List.sum_map_mul_right, List.map_id']
    rw [hsumDiv, div_eq_one_iff_eq htotal.ne']
    constructor
    · intro h
      linarith
    · intro h
      linarith
  rw [hshares, List.forall_mem_map]
  refine and_congr_left fun hblank => ?_
  constructor
  · intro h q hq
    have hdiv := mul_nonneg (h q hq).1 htotal.le
    rwa [div_mul_cancel₀ _ htotal.ne'] at hdiv
  · intro h q hq
    have hle : q ≤ kept.sum := List.single_le_sum h q hq
    constructor
    · exact div_nonneg (h q hq) htotal.le
    · rw [div_le_one htotal]
      linarith

lemma isDistribution_keptShares_iff (htotal : ¬ totalAllocation (given.map (·.2)) ≤ 0) :
    IsDistribution (keptShares given) ↔ ProperlyWeighted given := by
  have hweights : (IsDistribution (keptShares given) ∨ ProperlyWeighted given) →
      ∃ weights : List (String × ℚ), given = weights.map fun w => (w.1, .finite w.2) := by
    rintro (h | ⟨weights, heq, -⟩)
    · exact exists_weights (isFinite_of_isDistribution h)
    · exact ⟨weights, heq⟩
  suffices hfinite : ∀ weights : List (String × ℚ),
      given = weights.map (fun w => (w.1, .finite w.2)) →
        (IsDistribution (keptShares given) ↔ ProperlyWeighted given) by
    constructor
    · intro h
      obtain ⟨weights, heq⟩ := hweights (Or.inl h)
      exact (hfinite weights heq).mp h
    · intro h
      obtain ⟨weights, heq⟩ := hweights (Or.inr h)
      exact (hfinite weights heq).mpr h
  rintro weights rfl
  have hpos : 0 < (weights.map (·.2)).sum := by
    have hmap : (weights.map fun w => (w.1, PyFloat.finite w.2)).map (·.2) =
        (weights.map (·.2)).map .finite := by
      simp
    rw [hmap, totalAllocation_finite] at htotal
    exact not_le.mp fun hle => htotal (PyFloat.finite_le.mpr hle)
  rw [keptShares_finite hpos.ne', isDistribution_finite, properlyWeighted_finite]
  exact shares_iff hpos (sum_keptWeights weights)

/-- The keys of the numbers 1 and 2. -/
def keyOne : String := "0x0000000000000000000000000000000000000000000000000000000000000001"

def keyTwo : String := "0x0000000000000000000000000000000000000000000000000000000000000002"

/-- A library that knows the addresses of the two keys, and two numbers. -/
def twoKeys : WalletLibrary where
  deriveAddress key :=
    if key = keyOne then .ok "0x7E5F4552091A69125d5DfCb7b8C2659029395Bdf"
    else if key = keyTwo then .ok "0x2B5AD5c4795c026514f8317c7a215E218DcCD6cF"
    else .error .valueError
  float text := if text = "0.7" then some 0.7 else if text = "0.3" then some 0.3 else none

/-- The shares a source leads to, if it is accepted. -/
def sharesOf (lib : WalletLibrary) (source : Source) : Option (List PyFloat) :=
  (ofSource lib source).toOption.map fun m => m.wallets.map (·.allocation)

lemma exists_of_sharesOf {source : Source} {shares : List PyFloat}
    (h : sharesOf lib source = some shares) :
    ∃ m, ofSource lib source = .ok m ∧ m.wallets.map (·.allocation) = shares := by
  unfold sharesOf at h
  cases hsource : ofSource lib source with
  | error e =>
    rw [hsource] at h
    exact absurd h (by simp [Except.toOption])
  | ok m =>
    rw [hsource] at h
    exact ⟨m, rfl, Option.some.inj h⟩

/-- The tokens of a variable with the two keys. -/
lemma readTokens_twoKeys : readTokens twoKeys (keyOne ++ ":0.7, " ++ keyTwo ++ ":0.3") =
    [(keyOne, 7 / 10), (keyTwo, 3 / 10)].map fun w => (w.1, .finite w.2) := by
  decide +kernel

end WalletManager

end PolyCortex
