import PolyCortex.Data.Grouping
import PolyCortex.Numeric.Rounding
import PolyCortex.Tracking.Tracker

/-!
# Fee summary

`record_fee` adds an amount to the row of a trade, and `get_fee_summary` adds up the rows with a fee. A
trade whose fees were all 0 is no such row, and what it paid for gas is lost with it
(`getFeeSummary_accounts_iff`).
-/

namespace PolyCortex

open Rounding

/-- The columns of a row that the fees are kept in; `none` is NULL. -/
structure FeeRow where
  feeUsdc : Option ℚ := some 0
  isMaker : Option Bool := none
  gasCostUsdc : Option ℚ := some 0
  deriving DecidableEq, Repr

/-- The arguments of a `record_fee`. -/
structure FeeRecord where
  tradeId : TradeId
  feeUsdc : ℚ
  isMaker : Bool
  gasCostUsdc : ℚ := 0
  deriving DecidableEq, Repr

/-- The row after a `record_fee`. -/
def FeeRow.charge (record : FeeRecord) (row : FeeRow) : FeeRow where
  feeUsdc := some (row.feeUsdc.getD 0 + record.feeUsdc)
  isMaker := some record.isMaker
  gasCostUsdc := some (row.gasCostUsdc.getD 0 + record.gasCostUsdc)

/-- `record_fee`. -/
def recordFee (rows : List FeeRow) (record : FeeRecord) : List FeeRow :=
  rows.modify record.tradeId (·.charge record)

/-- The result of `get_fee_summary`. -/
structure FeeSummary where
  totalFeesUsdc : ℚ
  totalGasUsdc : ℚ
  totalCostUsdc : ℚ
  makerCount : ℕ
  takerCount : ℕ
  makerRatio : ℚ
  deriving DecidableEq, Repr

/-- `fee_usdc IS NOT NULL AND fee_usdc > 0`. -/
def FeeRow.isCharged (row : FeeRow) : Bool := row.feeUsdc.any (0 < ·)

/-- `get_fee_summary`. -/
def getFeeSummary (rows : List FeeRow) : FeeSummary :=
  let charged := rows.filter (·.isCharged)
  let totalFees := (charged.map (·.feeUsdc.getD 0)).sum
  let totalGas := (charged.map (·.gasCostUsdc.getD 0)).sum
  let makerCount := charged.countP (·.isMaker = some true)
  let takerCount := charged.countP (·.isMaker = some false)
  let total := makerCount + takerCount
  { totalFeesUsdc := roundTo 4 totalFees
    totalGasUsdc := roundTo 4 totalGas
    totalCostUsdc := roundTo 4 (totalFees + totalGas)
    makerCount
    takerCount
    makerRatio := if 0 < total then roundTo 4 (makerCount / total) else 0 }

/-! ### The rows -/

variable {rows : List FeeRow} {records : List FeeRecord} {record : FeeRecord} {k n : TradeId}

/-- The amounts of a row are those the ledger has. -/
def FeeRow.AmountsOf (row : FeeRow) (trade : Trade) : Prop :=
  row.feeUsdc.getD 0 = trade.feeUsdc ∧ row.gasCostUsdc.getD 0 = trade.gasCostUsdc

lemma FeeRow.AmountsOf.charge {row : FeeRow} {trade : Trade} (h : row.AmountsOf trade)
    (record : FeeRecord) :
    (row.charge record).AmountsOf (trade.chargeFee record.feeUsdc record.gasCostUsdc) :=
  ⟨congrArg (· + record.feeUsdc) h.1, congrArg (· + record.gasCostUsdc) h.2⟩

/-- The ledger charges the same rows. -/
lemma recordFee_amounts {t : Tracker} (h : List.Forall₂ FeeRow.AmountsOf rows t.trades)
    (record : FeeRecord) :
    List.Forall₂ FeeRow.AmountsOf (recordFee rows record)
      (t.recordFee record.tradeId record.feeUsdc record.gasCostUsdc).trades := by
  rw [List.forall₂_iff_get] at h ⊢
  obtain ⟨hlength, hrows⟩ := h
  refine ⟨by simpa [recordFee, Tracker.recordFee, Tracker.modifyTrade] using hlength, fun i hi hi' => ?_⟩
  simp only [recordFee, Tracker.recordFee, Tracker.modifyTrade, List.length_modify] at hi hi'
  simp only [recordFee, Tracker.recordFee, Tracker.modifyTrade, List.get_eq_getElem, List.getElem_modify]
  split_ifs with heq
  · exact (hrows i hi hi').charge record
  · exact hrows i hi hi'

/-- The records of a trade. -/
def recordsOf (records : List FeeRecord) (k : TradeId) : List FeeRecord :=
  records.filter (·.tradeId = k)

/-- The fees that were recorded for a trade. -/
def feesOf (records : List FeeRecord) (k : TradeId) : ℚ := ((recordsOf records k).map (·.feeUsdc)).sum

/-- The row of a trade, from the records. -/
def rowOf (records : List FeeRecord) (k : TradeId) : FeeRow where
  feeUsdc := some (feesOf records k)
  isMaker := (recordsOf records k).getLast?.map (·.isMaker)
  gasCostUsdc := some ((recordsOf records k).map (·.gasCostUsdc)).sum

lemma rowOf_append (records : List FeeRecord) (record : FeeRecord) (k : TradeId) :
    rowOf (records ++ [record]) k =
      if record.tradeId = k then (rowOf records k).charge record else rowOf records k := by
  by_cases hk : record.tradeId = k
  · simp [rowOf, feesOf, recordsOf, hk, FeeRow.charge]
  · simp [rowOf, feesOf, recordsOf, hk]

/-- The rows follow from the records. -/
lemma foldl_recordFee (n : ℕ) (records : List FeeRecord) :
    records.foldl recordFee (List.replicate n {}) = (List.range n).map (rowOf records) := by
  induction records using List.reverseRecOn with
  | nil =>
    have hrow : rowOf [] = fun _ => {} := rfl
    rw [List.foldl_nil, hrow, List.map_const', List.length_range]
  | append_singleton records record ih =>
    rw [List.foldl_append, List.foldl_cons, List.foldl_nil, ih]
    refine List.ext_getElem (by simp [recordFee]) fun i hi hi' => ?_
    simp [recordFee, List.getElem_modify, rowOf_append]

/-! ### The charged trades -/

/-- The trades with a fee. -/
def chargedIds (records : List FeeRecord) (n : ℕ) : List TradeId :=
  (List.range n).filter (0 < feesOf records ·)

lemma filter_isCharged (n : ℕ) (records : List FeeRecord) :
    ((List.range n).map (rowOf records)).filter (·.isCharged) =
      (chargedIds records n).map (rowOf records) := by
  rw [List.filter_map, chargedIds]
  rfl

lemma mem_chargedIds : k ∈ chargedIds records n ↔ k < n ∧ 0 < feesOf records k := by
  simp [chargedIds]

lemma nodup_chargedIds (records : List FeeRecord) (n : ℕ) : (chargedIds records n).Nodup :=
  List.nodup_range.filter _

lemma mem_recordsOf : record ∈ recordsOf records k ↔ record ∈ records ∧ record.tradeId = k := by
  simp [recordsOf]

/-- A trade has a fee when one of its fees was positive. -/
lemma feesOf_pos_iff (hfees : ∀ record ∈ records, 0 ≤ record.feeUsdc) :
    0 < feesOf records k ↔ ∃ record ∈ records, record.tradeId = k ∧ 0 < record.feeUsdc := by
  have hof : ∀ fee ∈ (recordsOf records k).map (·.feeUsdc), 0 ≤ fee := by
    intro fee hfee
    obtain ⟨record, hrecord, rfl⟩ := List.mem_map.mp hfee
    exact hfees record (mem_recordsOf.mp hrecord).1
  constructor
  · intro hpos
    have hsum : ((recordsOf records k).map fun _ => (0 : ℚ)).sum < feesOf records k := by
      simpa using hpos
    obtain ⟨record, hrecord, hfee⟩ := List.exists_lt_of_sum_lt _ _ hsum
    obtain ⟨hmem, hk⟩ := mem_recordsOf.mp hrecord
    exact ⟨record, hmem, hk, hfee⟩
  · rintro ⟨record, hmem, hk, hpos⟩
    exact hpos.trans_le
      (List.single_le_sum hof _ (List.mem_map_of_mem (mem_recordsOf.mpr ⟨hmem, hk⟩)))

/-- A trade with a fee was recorded. -/
lemma exists_record_of_charged (hfees : ∀ record ∈ records, 0 ≤ record.feeUsdc)
    (hk : k ∈ chargedIds records n) : ∃ record ∈ records, record.tradeId = k := by
  obtain ⟨record, hmem, hid, -⟩ := (feesOf_pos_iff hfees).mp (mem_chargedIds.mp hk).2
  exact ⟨record, hmem, hid⟩

/-- Every trade with a fee is a maker's or a taker's. -/
lemma countP_maker_add_taker (hfees : ∀ record ∈ records, 0 ≤ record.feeUsdc) (n : ℕ) :
    ((chargedIds records n).map (rowOf records)).countP (·.isMaker = some true) +
      ((chargedIds records n).map (rowOf records)).countP (·.isMaker = some false) =
        (chargedIds records n).length := by
  rw [List.countP_map, List.countP_map, List.length_eq_countP_add_countP
    ((fun row : FeeRow => decide (row.isMaker = some true)) ∘ rowOf records)]
  congr 1
  refine List.countP_congr fun k hk => ?_
  obtain ⟨record, hmem, hid⟩ := exists_record_of_charged hfees hk
  cases hlast : (recordsOf records k).getLast? with
  | none =>
    rw [List.getLast?_eq_none_iff] at hlast
    have := mem_recordsOf.mpr ⟨hmem, hid⟩
    simp [hlast] at this
  | some last => simp [rowOf, hlast]

/-! ### What the summary accounts for -/

/-- The summary has all fees, all gas and all trades that were recorded. -/
structure FeeSummary.Accounts (summary : FeeSummary) (records : List FeeRecord) : Prop where
  fees : summary.totalFeesUsdc = roundTo 4 (records.map (·.feeUsdc)).sum
  gas : summary.totalGasUsdc = roundTo 4 (records.map (·.gasCostUsdc)).sum
  trades : summary.makerCount + summary.takerCount = (records.map (·.tradeId)).dedup.length

/-- The summary accounts for what was recorded, exactly when no trade was recorded with fees of 0
only. -/
theorem getFeeSummary_accounts_iff (hfound : ∀ record ∈ records, record.tradeId < n)
    (hfees : ∀ record ∈ records, 0 ≤ record.feeUsdc) :
    (getFeeSummary (records.foldl recordFee (List.replicate n {}))).Accounts records ↔
      ∀ record ∈ records, ∃ other ∈ records,
        other.tradeId = record.tradeId ∧ 0 < other.feeUsdc := by
  have hrows := foldl_recordFee n records
  have hcharged := filter_isCharged n records
  have hcount := countP_maker_add_taker hfees n
  constructor
  · intro hsummary record hmem
    have htrades := hsummary.trades
    rw [hrows, getFeeSummary, hcharged] at htrades
    dsimp only at htrades
    rw [hcount] at htrades
    -- the charged trades are as many as the recorded ones, so they are all of them
    have hsubset : chargedIds records n ⊆ (records.map (·.tradeId)).dedup := by
      intro k hk
      exact List.mem_dedup.mpr (List.mem_map.mpr (exists_record_of_charged hfees hk))
    have hperm := ((nodup_chargedIds records n).subperm hsubset).perm_of_length_le htrades.ge
    have hk := hperm.mem_iff.mpr (List.mem_dedup.mpr (List.mem_map_of_mem hmem))
    exact (feesOf_pos_iff hfees).mp (mem_chargedIds.mp hk).2
  · intro hpositive
    have hcover : ∀ record ∈ records, record.tradeId ∈ chargedIds records n := fun record hmem =>
      mem_chargedIds.mpr ⟨hfound record hmem, (feesOf_pos_iff hfees).mpr (hpositive record hmem)⟩
    have hsum : ∀ weight : FeeRecord → ℚ, ((chargedIds records n).map fun k =>
        ((recordsOf records k).map weight).sum).sum = (records.map weight).sum := fun weight =>
      Dict.sum_filter_keys (nodup_chargedIds records n) hcover
    rw [hrows, getFeeSummary, hcharged]
    constructor
    case fees =>
      dsimp only
      rw [List.map_map, ← hsum]
      rfl
    case gas =>
      dsimp only
      rw [List.map_map, ← hsum]
      rfl
    case trades =>
      dsimp only
      rw [hcount]
      refine ((List.perm_ext_iff_of_nodup (nodup_chargedIds records n) (List.nodup_dedup _)).mpr
        fun k => ?_).length_eq
      rw [List.mem_dedup, List.mem_map]
      constructor
      · exact exists_record_of_charged hfees
      · rintro ⟨record, hmem, rfl⟩
        exact hcover record hmem

/-- A taker and a maker, with gas. -/
def takerAndMaker : List FeeRecord := [⟨0, 1 / 10, false, 1 / 2⟩, ⟨1, 1 / 20, true, 1 / 2⟩]

theorem getFeeSummary_accounts_takerAndMaker :
    (getFeeSummary (takerAndMaker.foldl recordFee (List.replicate 2 {}))).totalGasUsdc =
      roundTo 4 1 := by
  have haccounts : (getFeeSummary (takerAndMaker.foldl recordFee (List.replicate 2 {}))).Accounts
      takerAndMaker :=
    (getFeeSummary_accounts_iff (by decide +kernel) (by decide +kernel)).mpr (by decide +kernel)
  rw [haccounts.gas]
  decide +kernel

/-- A maker who pays no fee, and gas. -/
def feelessMaker : List FeeRecord := [⟨0, 0, true, 1 / 2⟩]

/-- The summary of one has neither the gas nor the trade. -/
theorem feelessMaker_lost :
    let summary := getFeeSummary (feelessMaker.foldl recordFee (List.replicate 1 {}))
    ¬ summary.Accounts feelessMaker ∧ summary.totalGasUsdc = 0 ∧
      summary.makerCount + summary.takerCount = 0 := by
  intro summary
  have hgas : summary.totalGasUsdc = 0 := by decide +kernel
  have hrecorded : roundTo 4 (feelessMaker.map (·.gasCostUsdc)).sum = 1 / 2 := by decide +kernel
  refine ⟨fun h => ?_, hgas, by decide +kernel⟩
  have := h.gas
  rw [hgas, hrecorded] at this
  norm_num at this

end PolyCortex
