import PolyCortex.Infra.WalletManager
import PolyCortex.Machine.History

/-!
# Routing over wallets

The choice of a wallet for a trade, and the record of what the trade has used. The weighted choice takes
the wallet with the least use for its share, so no wallet gets ahead of another by more than one trade
(`Balanced.routeTrade`, and `balanced_run` for any number of trades).
-/

namespace PolyCortex

namespace WalletManager

/-! ### Choosing a wallet -/

/-- The small number of `get_wallet`. -/
def tiny : ℚ := 1 / 10 ^ 9

/-- `_ratio` of `get_wallet`. -/
def ratio (w : WalletEntry ℚ) : ℚ := (w.utilization + tiny) / max w.allocation tiny

def nextInTurn (m : WalletManager ℚ) : WalletEntry ℚ :=
  m.wallets.get ⟨m.rrIndex % m.wallets.length, Nat.mod_lt _ (List.length_pos_of_ne_nil m.wallets_ne_nil)⟩

/-- The first wallet with the least ratio. -/
def leastRatio (m : WalletManager ℚ) : WalletEntry ℚ := m.wallets.minOn ratio m.wallets_ne_nil

/-- `get_wallet`: an address, and the manager with the turn taken. -/
def getWallet (m : WalletManager ℚ) (strategy : String) : Except PyError (String × WalletManager ℚ) :=
  if strategy = "round_robin" then .ok (m.nextInTurn.address, { m with rrIndex := m.rrIndex + 1 })
  else if strategy = "min_utilization" then
    .ok ((m.wallets.minOn (·.utilization) m.wallets_ne_nil).address, m)
  else if strategy = "weighted" then .ok (m.leastRatio.address, m)
  else .error .valueError

/-! ### Recording a trade -/

/-- A wallet after a trade. -/
def use (amount : ℚ) (w : WalletEntry ℚ) : WalletEntry ℚ :=
  { w with utilization := w.utilization + amount, tradeCount := w.tradeCount + 1 }

/-- The loop of `record_utilization`: the first wallet with the address, in whatever case. -/
def recordLoop (address : String) (amount : ℚ) : List (WalletEntry ℚ) → List (WalletEntry ℚ)
  | [] => []
  | w :: wallets =>
    if w.address.toLower = address.toLower then use amount w :: wallets
    else w :: recordLoop address amount wallets

lemma recordLoop_ne_nil {wallets : List (WalletEntry ℚ)} (h : wallets ≠ []) (address : String)
    (amount : ℚ) : recordLoop address amount wallets ≠ [] := by
  cases wallets with
  | nil => exact absurd rfl h
  | cons w wallets =>
    unfold recordLoop
    split_ifs <;> simp

/-- `record_utilization`. -/
def recordUtilization (m : WalletManager ℚ) (address : String) (amount : ℚ) : WalletManager ℚ :=
  { m with
    wallets := recordLoop address amount m.wallets
    wallets_ne_nil := recordLoop_ne_nil m.wallets_ne_nil address amount }

/-- A trade that is routed by the shares and then recorded. -/
def routeTrade (m : WalletManager ℚ) (amount : ℚ) : WalletManager ℚ :=
  match m.getWallet "weighted" with
  | .ok (address, m') => m'.recordUtilization address amount
  | .error _ => m

/-! ### Addresses -/

/-- The addresses are the checksummed ones of their digits, as `deriveAddress` gives them. -/
def Checksummed (checksum : String → String) (wallets : List (WalletEntry ℚ)) : Prop :=
  ∀ w ∈ wallets, w.address = checksum w.address.toLower

variable {wallets : List (WalletEntry ℚ)} {w w' chosen : WalletEntry ℚ} {m : WalletManager ℚ}
  {amount A : ℚ}

/-- Distinct addresses differ in more than the case of their letters. -/
lemma nodup_lower {checksum : String → String} (hchecksum : Checksummed checksum wallets)
    (hnodup : (wallets.map (·.address)).Nodup) : (wallets.map (·.address.toLower)).Nodup := by
  have hmap : wallets.map (·.address) = (wallets.map (·.address.toLower)).map checksum := by
    rw [List.map_map]
    exact List.map_congr_left fun w hw => hchecksum w hw
  rw [hmap] at hnodup
  exact hnodup.of_map checksum

/-- With distinct addresses only the wallet that was chosen is used. -/
lemma recordLoop_eq (hnodup : (wallets.map (·.address.toLower)).Nodup) (hmem : chosen ∈ wallets)
    (amount : ℚ) :
    recordLoop chosen.address amount wallets =
      wallets.map fun w => if w = chosen then use amount w else w := by
  induction wallets with
  | nil => rfl
  | cons w wallets ih =>
    rw [List.map_cons, List.nodup_cons] at hnodup
    unfold recordLoop
    rcases List.mem_cons.mp hmem with rfl | hmem
    · have hrest : wallets.map (fun w => if w = chosen then use amount w else w) = wallets := by
        refine List.map_congr_left (fun w hw => if_neg ?_) |>.trans (List.map_id _)
        rintro rfl
        exact hnodup.1 (List.mem_map_of_mem hw)
      rw [if_pos rfl, List.map_cons, if_pos rfl, hrest]
    · have hne : w.address.toLower ≠ chosen.address.toLower := by
        intro heq
        rw [heq] at hnodup
        exact hnodup.1 (List.mem_map_of_mem hmem)
      have hne' : w ≠ chosen := fun heq => hne (by rw [heq])
      rw [if_neg hne, List.map_cons, if_neg hne', ih hnodup.2 hmem]

/-! ### Balance -/

/-- The use of a wallet for its share. -/
def level (w : WalletEntry ℚ) : ℚ := (w.utilization + tiny) / w.allocation

/-- No wallet is ahead of another by more than a trade of the amount `A`. -/
structure Balanced (A : ℚ) (m : WalletManager ℚ) : Prop where
  nodup : (m.wallets.map (·.address.toLower)).Nodup
  allocation : ∀ w ∈ m.wallets, tiny ≤ w.allocation
  level_le : ∀ w ∈ m.wallets, ∀ w' ∈ m.wallets, level w ≤ level w' + A / w.allocation

lemma tiny_pos : 0 < tiny := by
  norm_num [tiny]

lemma Balanced.allocation_pos (h : Balanced A m) (hw : w ∈ m.wallets) : 0 < w.allocation :=
  tiny_pos.trans_le (h.allocation w hw)

lemma leastRatio_mem (m : WalletManager ℚ) : m.leastRatio ∈ m.wallets := List.minOn_mem

/-- With shares that are not too small the choice goes by the level. -/
lemma Balanced.level_leastRatio_le (h : Balanced A m) (hw : w ∈ m.wallets) :
    level m.leastRatio ≤ level w := by
  have hratio : ∀ w ∈ m.wallets, ratio w = level w := fun w hw => by
    rw [ratio, max_eq_left (h.allocation w hw), level]
  rw [← hratio w hw, ← hratio _ m.leastRatio_mem]
  exact List.apply_minOn_le_of_mem hw

lemma level_use (amount : ℚ) (w : WalletEntry ℚ) :
    level (use amount w) = level w + amount / w.allocation := by
  rw [level, use, level, ← add_div]
  ring_nf

/-- A routed trade uses the wallet with the least level. -/
lemma wallets_routeTrade (hnodup : (m.wallets.map (·.address.toLower)).Nodup) (amount : ℚ) :
    (m.routeTrade amount).wallets =
      m.wallets.map fun w => if w = m.leastRatio then use amount w else w :=
  recordLoop_eq hnodup m.leastRatio_mem amount

/-- A trade keeps the balance, whichever of two wallets it used. -/
lemma Balanced.routeTrade (h : Balanced A m) (hpos : 0 ≤ amount) (hle : amount ≤ A) :
    Balanced A (m.routeTrade amount) := by
  have hwallets := wallets_routeTrade h.nodup amount
  constructor
  · have hmap : (m.routeTrade amount).wallets.map (·.address.toLower) =
        m.wallets.map (·.address.toLower) := by
      rw [hwallets, List.map_map]
      refine List.map_congr_left fun w _ => ?_
      dsimp only [Function.comp_apply]
      split_ifs <;> rfl
    rw [hmap]
    exact h.nodup
  · rw [hwallets, List.forall_mem_map]
    intro w hw
    split_ifs
    · exact h.allocation w hw
    · exact h.allocation w hw
  · rw [hwallets, List.forall_mem_map]
    intro w hw
    rw [List.forall_mem_map]
    intro w' hw'
    have hw₀ := h.allocation_pos hw
    have hw'₀ := h.allocation_pos hw'
    have hstep : amount / w.allocation ≤ A / w.allocation := div_le_div_of_nonneg_right hle hw₀.le
    have hstep' : 0 ≤ amount / w'.allocation := div_nonneg hpos hw'₀.le
    have hlevel := h.level_le w hw w' hw'
    split_ifs with heq heq' heq'
    · subst heq heq'
      rw [level_use]
      have hsame : (use amount m.leastRatio).allocation = m.leastRatio.allocation := rfl
      rw [hsame]
      linarith
    · have hleast := h.level_leastRatio_le hw'
      subst heq
      rw [level_use]
      have hsame : (use amount m.leastRatio).allocation = m.leastRatio.allocation := rfl
      rw [hsame]
      linarith
    · rw [level_use]
      linarith
    · exact hlevel

/-- Wallets that have not been used are balanced. -/
lemma balanced_start {checksum : String → String} (hchecksum : Checksummed checksum m.wallets)
    (hnodup : (m.wallets.map (·.address)).Nodup) (halloc : ∀ w ∈ m.wallets, tiny ≤ w.allocation)
    (hstart : ∀ w ∈ m.wallets, w.utilization = 0) (hA : tiny ≤ A) : Balanced A m where
  nodup := nodup_lower hchecksum hnodup
  allocation := halloc
  level_le w hw w' hw' := by
    have hw₀ : 0 < w.allocation := tiny_pos.trans_le (halloc w hw)
    have hw'₀ : 0 < w'.allocation := tiny_pos.trans_le (halloc w' hw')
    have hfirst : tiny / w.allocation ≤ A / w.allocation := div_le_div_of_nonneg_right hA hw₀.le
    have hsecond : 0 ≤ tiny / w'.allocation := (div_pos tiny_pos hw'₀).le
    rw [level, level, hstart w hw, hstart w' hw', zero_add]
    linarith

lemma Balanced.run (h : Balanced A m) {amounts : List ℚ}
    (hamounts : ∀ amount ∈ amounts, 0 ≤ amount ∧ amount ≤ A) :
    Balanced A (Machine.run WalletManager.routeTrade m amounts) := by
  induction amounts using List.reverseRecOn with
  | nil => exact h
  | append_singleton amounts amount ih =>
    rw [List.forall_mem_append, List.forall_mem_singleton] at hamounts
    rw [Machine.run_concat]
    exact (ih hamounts.1).routeTrade hamounts.2.1 hamounts.2.2

/-- Every trade is recorded, to one wallet. -/
lemma sum_utilization_routeTrade (hnodup : (m.wallets.map (·.address.toLower)).Nodup) (amount : ℚ) :
    ((m.routeTrade amount).wallets.map (·.utilization)).sum =
      (m.wallets.map (·.utilization)).sum + amount := by
  have hnodup' : m.wallets.Nodup := hnodup.of_map _
  have hmap : (m.routeTrade amount).wallets.map (·.utilization) =
      m.wallets.map fun w => w.utilization + if w = m.leastRatio then amount else 0 := by
    rw [wallets_routeTrade hnodup, List.map_map]
    refine List.map_congr_left fun w _ => ?_
    dsimp only [Function.comp_apply]
    split_ifs
    · rfl
    · rw [add_zero]
  have hone : (m.wallets.map fun w => if w = m.leastRatio then amount else 0).sum = amount := by
    rw [List.sum_map_ite_eq, hnodup'.count, if_pos m.leastRatio_mem, one_smul]
    simp
  rw [hmap, List.sum_map_add, hone]

/-- What the wallets have been used for is what was traded. -/
theorem Balanced.sum_utilization_run (h : Balanced A m) {amounts : List ℚ}
    (hamounts : ∀ amount ∈ amounts, 0 ≤ amount ∧ amount ≤ A) :
    ((Machine.run WalletManager.routeTrade m amounts).wallets.map (·.utilization)).sum =
      (m.wallets.map (·.utilization)).sum + amounts.sum := by
  induction amounts using List.reverseRecOn with
  | nil => simp
  | append_singleton amounts amount ih =>
    rw [List.forall_mem_append, List.forall_mem_singleton] at hamounts
    rw [Machine.run_concat, sum_utilization_routeTrade (h.run hamounts.1).nodup, ih hamounts.1,
      List.sum_append, List.sum_singleton, add_assoc]

/-- From unused wallets, after any number of routed trades. -/
theorem level_le_run {checksum : String → String} (hchecksum : Checksummed checksum m.wallets)
    (hnodup : (m.wallets.map (·.address)).Nodup) (halloc : ∀ w ∈ m.wallets, tiny ≤ w.allocation)
    (hstart : ∀ w ∈ m.wallets, w.utilization = 0) (hA : tiny ≤ A) {amounts : List ℚ}
    (hamounts : ∀ amount ∈ amounts, 0 ≤ amount ∧ amount ≤ A) :
    ∀ w ∈ (Machine.run routeTrade m amounts).wallets,
      ∀ w' ∈ (Machine.run routeTrade m amounts).wallets,
        (w.utilization + tiny) / w.allocation ≤
          (w'.utilization + tiny) / w'.allocation + A / w.allocation :=
  ((balanced_start hchecksum hnodup halloc hstart hA).run hamounts).level_le

/-- Two wallets with a fifth and four fifths of the capital. -/
def fifths : WalletManager ℚ where
  wallets :=
    [{ address := "0x7E5F4552091A69125d5DfCb7b8C2659029395Bdf", privateKey := keyOne,
       allocation := 1 / 5, utilization := 0 },
     { address := "0x2B5AD5c4795c026514f8317c7a215E218DcCD6cF", privateKey := keyTwo,
       allocation := 4 / 5, utilization := 0 }]
  wallets_ne_nil := by simp

/-- The checksummed form of the two addresses. -/
def checksumOfTwo (address : String) : String :=
  if address = "0x7e5f4552091a69125d5dfcb7b8c2659029395bdf" then
    "0x7E5F4552091A69125d5DfCb7b8C2659029395Bdf"
  else if address = "0x2b5ad5c4795c026514f8317c7a215e218dccd6cf" then
    "0x2B5AD5c4795c026514f8317c7a215E218DcCD6cF"
  else address

theorem level_le_run_fifths :
    fifths.wallets.map (·.allocation) = [1 / 5, 4 / 5] ∧
      ∀ w ∈ (Machine.run routeTrade fifths [100, 40]).wallets,
        ∀ w' ∈ (Machine.run routeTrade fifths [100, 40]).wallets,
          (w.utilization + tiny) / w.allocation ≤
            (w'.utilization + tiny) / w'.allocation + 100 / w.allocation := by
  have hchecksum : ∀ w ∈ fifths.wallets, w.address = checksumOfTwo w.address.toLower := by
    decide +kernel
  have halloc : ∀ w ∈ fifths.wallets, tiny ≤ w.allocation := by decide +kernel
  refine ⟨rfl, ?_⟩
  apply level_le_run hchecksum (by decide +kernel) halloc (by decide +kernel)
  · norm_num [tiny]
  · decide +kernel

end WalletManager

end PolyCortex
