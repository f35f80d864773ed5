import PolyCortex.Data.GammaClient
import PolyCortex.Data.Sql

/-!
# The market resolver

`MarketResolver` marks the open trades of the markets that `get_market` reports as closed. It sets a
column `resolved_at`, which a table of its own has and the table of `PerformanceTracker` has not; and
it reads the reply as a `dict`, which the `Market` of `GammaClient` is not. Both mismatches are caught
and count as not resolved.
-/

namespace PolyCortex

open Sql

namespace PerformanceTracker

/-- The columns of `CREATE TABLE IF NOT EXISTS trades`. -/
def tradesColumns : List String :=
  ["id", "market_id", "question", "direction", "entry_price", "size_usdc", "timestamp", "status",
    "exit_price", "pnl", "edge_at_entry", "confidence_at_entry", "raw_estimated_prob",
    "estimated_prob", "calibrated_prob", "regime_at_entry", "category", "signal_breakdown",
    "is_paper", "closed_at", "entry_reason", "exit_reason", "order_type", "source",
    "exchange_order_ids", "realized_roi", "notes", "local_order_id", "entry_order_status",
    "filled_size_usdc", "remaining_size_usdc", "average_fill_price", "parent_order_id",
    "oco_group_id", "trigger_price", "trigger_condition", "take_profit_price", "stop_loss_price",
    "bracket_order_ids", "bracket_state", "last_fill_at", "reduce_only", "order_kind"]

/-- `TRADE_MIGRATIONS`, with the default of each column. -/
def tradeMigrations : List (String × Value) :=
  [("raw_estimated_prob", .null), ("calibrated_prob", .null), ("closed_at", .null),
    ("entry_reason", .null), ("exit_reason", .null), ("order_type", .text "limit"),
    ("source", .text "agent"), ("exchange_order_ids", .null), ("realized_roi", .null),
    ("notes", .null), ("local_order_id", .null), ("entry_order_status", .text "filled"),
    ("filled_size_usdc", .null), ("remaining_size_usdc", .null), ("average_fill_price", .null),
    ("parent_order_id", .null), ("oco_group_id", .null), ("trigger_price", .null),
    ("trigger_condition", .null), ("take_profit_price", .null), ("stop_loss_price", .null),
    ("bracket_order_ids", .null), ("bracket_state", .text "inactive"), ("last_fill_at", .null),
    ("reduce_only", .integer 0), ("order_kind", .text "entry"), ("fee_usdc", .real 0),
    ("is_maker", .null), ("gas_cost_usdc", .real 0)]

/-- `_ensure_columns`. -/
def ensureColumns (columns : List (String × Value)) (table : Table) : Table :=
  columns.foldl (fun table column =>
    if column.1 ∈ table.columns then table else table.addColumn column.1 column.2) table

/-- The table `trades` after `__init__`. -/
def initTrades (db : Option Table) : Table := ensureColumns tradeMigrations (Table.create tradesColumns db)

/-- A database that `PerformanceTracker` created, with its trades. -/
def database (trades : List Row) : Table := { initTrades none with rows := trades }

/-- A migration adds no columns but its own. -/
lemma mem_columns_ensureColumns {name : String} {columns : List (String × Value)} {table : Table}
    (h : name ∈ (ensureColumns columns table).columns) :
    name ∈ table.columns ∨ name ∈ columns.map Prod.fst := by
  induction columns generalizing table with
  | nil => exact Or.inl h
  | cons column columns ih =>
    rw [ensureColumns, List.foldl_cons] at h
    rcases ih h with hmem | hmem
    · split_ifs at hmem
      · exact Or.inl hmem
      · rw [Table.addColumn, List.mem_append, List.mem_singleton] at hmem
        exact hmem.imp_right fun heq => by simp [heq]
    · exact Or.inr (List.mem_cons_of_mem _ hmem)

/-- The table of the tracker has no column `resolved_at`. -/
lemma resolvedAt_notMem_columns (trades : List Row) : "resolved_at" ∉ (database trades).columns := by
  have hcreated : "resolved_at" ∉ (Table.create tradesColumns none).columns := by decide +kernel
  have hmigrated : "resolved_at" ∉ tradeMigrations.map Prod.fst := by decide +kernel
  intro h
  simp only [database, initTrades] at h
  exact (mem_columns_ensureColumns h).elim hcreated hmigrated

end PerformanceTracker

/-- What a call of `get_market` gives: an exception, `None`, a `dict`, or a `Market`. -/
inductive MarketReply where
  | raised
  | missing
  | fields (fields : List (String × Json))
  | market (market : Gamma.Market)

/-- `f"{condition_id}"`; a column of texts holds texts and `NULL`. -/
def formatId : Value → String
  | .text s => s
  | _ => "None"

/-- `GammaClient.get_market`, where `request` is `_request` on the rest of the url. -/
def Gamma.getMarket (py : PyText) (request : String → Gamma.Outcome (Option Json))
    (conditionId : Value) : MarketReply :=
  match request ("/markets/" ++ formatId conditionId) with
  | .returned (some (.obj (field :: fields))) =>
    match Gamma.parseMarket py (.obj (field :: fields)) with
    | some (some market) => .market market
    | some none => .missing
    | none => .raised
  | .returned _ => .missing
  | .raised | .unfinished => .raised

namespace MarketResolver

/-- The columns of the table it creates when there is none. -/
def ownColumns : List String := ["id", "market_id", "status", "pnl", "resolved_at", "created_at"]

/-- `_init_db`. -/
def initDb (db : Option Table) : Table := Table.create ownColumns db

/-- The method `get_market` of a client that has one. -/
abbrev Client := Option (Value → MarketReply)

/-- `_check_market_resolved`. A `Market` has no `get`: the `AttributeError` is caught. -/
def checkMarketResolved (client : Client) (marketId : Value) : Bool :=
  match client with
  | none => false
  | some getMarket =>
    match getMarket marketId with
    | .fields fields =>
      if fields.isEmpty then false
      else
        (((fields.lookup "closed").getD (.bool false)).or
          ((fields.lookup "resolved").getD (.bool false))).truthy
    | .market _ | .missing | .raised => false

/-- What `_close_resolved_position` sets. -/
def marks (now : Value → String) (tradeId : Value) : Assignments :=
  [("status", .text "resolved"), ("resolved_at", .text (now tradeId))]

/-- `_close_resolved_position`, at the instant `now` of the trade. -/
def closeResolvedPosition (now : Value → String) (tradeId : Value) (table : Table) : Option Table :=
  table.update (marks now tradeId) "id" tradeId

/-- A round of the loop: the count and the table after one open trade. -/
def resolveTrade (client : Client) (now : Value → String) (state : ℕ × Table) (trade : Row) :
    ℕ × Table :=
  if checkMarketResolved client (trade "market_id") then
    match closeResolvedPosition now (trade "id") state.2 with
    | some table => (state.1 + 1, table)
    -- the `OperationalError` is logged
    | none => state
  else state

/-- `check_and_resolve`: the count and the table. -/
def checkAndResolve (client : Client) (now : Value → String) (table : Table) : ℕ × Table :=
  match table.select ["id", "market_id"] "status" (.text "open") with
  | some openTrades => openTrades.foldl (resolveTrade client now) (0, table)
  | none => (0, table)

/-- A trade to be closed: it is open, and its market is closed. -/
def isDue (closed : Value → Bool) (row : Row) : Bool :=
  row.holds "status" (.text "open") && closed (row "market_id")

/-- What a row is after a resolution that closes the books. -/
def Closes (closed : Value → Bool) (row row' : Row) : Prop :=
  if isDue closed row then
    row' "status" = .text "resolved" ∧ row' "pnl" ≠ .null ∧ row' "closed_at" ≠ .null
  else row' = row

/-- The resolution closed the open trades of the closed markets, and nothing else. -/
structure ClosesBooks (closed : Value → Bool) (before : Table) (result : ℕ × Table) : Prop where
  rows : List.Forall₂ (Closes closed) before.rows result.2.rows
  count : result.1 = before.rows.countP (isDue closed)

section

variable {client : Client} {now : Value → String} {table : Table}

/-- What `GammaClient` returns is not a `dict`. -/
lemma getMarket_ne_fields (py : PyText) (request : String → Gamma.Outcome (Option Json))
    (marketId : Value) (fields : List (String × Json)) :
    Gamma.getMarket py request marketId ≠ .fields fields := by
  unfold Gamma.getMarket
  split
  · split <;> simp
  · simp
  · simp
  · simp

/-- No market that `GammaClient` returns is reported as resolved. -/
lemma checkMarketResolved_getMarket (py : PyText)
    (request : String → Gamma.Outcome (Option Json)) (marketId : Value) :
    checkMarketResolved (some (Gamma.getMarket py request)) marketId = false := by
  cases hreply : Gamma.getMarket py request marketId with
  | fields fields => exact absurd hreply (getMarket_ne_fields py request marketId fields)
  | market market => simp [checkMarketResolved, hreply]
  | missing => simp [checkMarketResolved, hreply]
  | raised => simp [checkMarketResolved, hreply]

/-- A table that nothing changed has its books closed when no trade was due. -/
lemma closesBooks_unchanged_iff (closed : Value → Bool) (table : Table) :
    ClosesBooks closed table (0, table) ↔ ∀ row ∈ table.rows, isDue closed row = false := by
  constructor
  · intro hbooks row hrow
    have hzero := hbooks.count
    simpa using List.countP_eq_zero.mp hzero.symm row hrow
  · intro hnone
    constructor
    · rw [List.forall₂_same]
      intro row hrow
      simp [Closes, hnone row hrow]
    · symm
      rw [List.countP_eq_zero]
      intro row hrow
      simp [hnone row hrow]

/-! ### A table without the column -/

section Without

variable (h : "resolved_at" ∉ table.columns)
include h

/-- No round of the loop changes anything. -/
lemma resolveTrade_of_notMem (count : ℕ) (trade : Row) :
    resolveTrade client now (count, table) trade = (count, table) := by
  have hnone : closeResolvedPosition now (trade "id") table = none :=
    Table.update_eq_none (by simp [marks]) h _ _
  simp [resolveTrade, hnone]

lemma checkAndResolve_of_notMem : checkAndResolve client now table = (0, table) := by
  unfold checkAndResolve
  split
  · rename_i openTrades hselect
    clear hselect
    induction openTrades with
    | nil => rfl
    | cons trade trades ih => rw [List.foldl_cons, resolveTrade_of_notMem h, ih]
  · rfl

end Without

/-! ### A table with the column -/

/-- A row after the trades of the given ids were closed. -/
def markRow (now : Value → String) (ids : List Value) (row : Row) : Row :=
  if row "id" ∈ ids then row.set (marks now (row "id")) else row

@[simp] lemma markRow_id (now : Value → String) (ids : List Value) (row : Row) :
    markRow now ids row "id" = row "id" := by
  unfold markRow
  split_ifs
  · exact Row.set_of_lookup_none (by simp [marks, List.lookup_cons]) row
  · rfl

lemma set_marks_set_marks (tradeId : Value) (row : Row) :
    (row.set (marks now tradeId)).set (marks now tradeId) = row.set (marks now tradeId) := by
  funext column
  simp only [Row.set]
  cases (marks now tradeId).lookup column <;> rfl

/-- The update of one more trade, on rows that were marked before. -/
lemma markRow_append (ids : List Value) {tradeId : Value} (hid : tradeId ≠ .null) (row : Row) :
    (if (markRow now ids row).holds "id" tradeId then (markRow now ids row).set (marks now tradeId)
      else markRow now ids row) = markRow now (ids ++ [tradeId]) row := by
  by_cases hrow : row "id" = tradeId
  · subst hrow
    by_cases hmem : row "id" ∈ ids
    · simp [Row.holds, hid, markRow, hmem, set_marks_set_marks]
    · simp [Row.holds, hid, markRow, hmem]
  · have hother : (markRow now ids row).holds "id" tradeId = false := by simp [Row.holds, hrow]
    rw [hother, if_neg Bool.false_ne_true]
    simp [markRow, hrow]

lemma map_markRow_nil (rows : List Row) : rows.map (markRow now []) = rows := by
  induction rows with
  | nil => rfl
  | cons row rows ih =>
    rw [List.map_cons, ih, markRow, if_neg List.not_mem_nil]

/-- The ids are distinct, so that a row has the id of a chosen row only when it is chosen itself. -/
lemma mem_ids_filter {rows : List Row} {chosen : Row → Bool} (hids : (rows.map (· "id")).Nodup)
    {row : Row} (hrow : row ∈ rows) :
    row "id" ∈ (rows.filter chosen).map (· "id") ↔ chosen row = true := by
  rw [List.mem_map]
  constructor
  · rintro ⟨trade, htrade, hid⟩
    have hsame := List.inj_on_of_nodup_map hids (List.mem_filter.mp htrade).1 hrow hid
    exact hsame ▸ (List.mem_filter.mp htrade).2
  · intro hchosen
    exact ⟨row, List.mem_filter.mpr ⟨hrow, hchosen⟩, rfl⟩

section With

variable (h : table.hasColumns ["id", "market_id", "status", "resolved_at"])
include h

lemma closeResolvedPosition_of_hasColumns (rows : List Row) (tradeId : Value) :
    closeResolvedPosition now tradeId { table with rows } = some { table with
      rows := rows.map fun row =>
        if row.holds "id" tradeId then row.set (marks now tradeId) else row } := by
  apply if_pos
  refine Table.hasColumns_of_subset h ?_
  simp [marks]

lemma select_of_hasColumns :
    table.select ["id", "market_id"] "status" (.text "open") =
      some (table.rows.filter (Row.holds "status" (.text "open"))) := by
  apply if_pos
  refine Table.hasColumns_of_subset h ?_
  simp

/-- The loop marks the trades it is given whose markets are reported. -/
lemma foldl_resolveTrade (ids : List Value) (count : ℕ) {openTrades : List Row}
    (hids : ∀ trade ∈ openTrades, trade "id" ≠ .null) :
    openTrades.foldl (resolveTrade client now)
        (count, { table with rows := table.rows.map (markRow now ids) }) =
      (count + openTrades.countP (fun trade => checkMarketResolved client (trade "market_id")),
        { table with rows := table.rows.map (markRow now (ids ++
          (openTrades.filter fun trade => checkMarketResolved client (trade "market_id")).map
            (· "id"))) }) := by
  induction openTrades generalizing ids count with
  | nil => simp
  | cons trade trades ih =>
    have htrade : trade "id" ≠ .null := hids trade List.mem_cons_self
    have htrades : ∀ trade ∈ trades, trade "id" ≠ .null := fun t ht =>
      hids t (List.mem_cons_of_mem trade ht)
    rw [List.foldl_cons]
    by_cases hresolved : checkMarketResolved client (trade "market_id")
    · have hstep : resolveTrade client now
          (count, { table with rows := table.rows.map (markRow now ids) }) trade =
          (count + 1, { table with rows := table.rows.map (markRow now (ids ++ [trade "id"])) }) := by
        simp only [resolveTrade, if_pos hresolved, closeResolvedPosition_of_hasColumns h,
          List.map_map]
        simp only [Function.comp_def, markRow_append ids htrade]
      rw [hstep, ih _ _ htrades]
      simp [hresolved, Nat.add_assoc, Nat.add_comm 1]
    · have hstep : resolveTrade client now
          (count, { table with rows := table.rows.map (markRow now ids) }) trade =
          (count, { table with rows := table.rows.map (markRow now ids) }) := by
        simp [resolveTrade, hresolved]
      rw [hstep, ih _ _ htrades]
      simp [hresolved]

/-- In a table with the column, as its own is, exactly the open trades of reported markets are
marked and counted. -/
theorem checkAndResolve_of_hasColumns (hids : (table.rows.map (· "id")).Nodup)
    (hnull : ∀ row ∈ table.rows, row "id" ≠ .null) :
    checkAndResolve client now table =
      (table.rows.countP (isDue (checkMarketResolved client)), { table with
        rows := table.rows.map fun row =>
          if isDue (checkMarketResolved client) row then row.set (marks now (row "id"))
          else row }) := by
  have hnull' : ∀ trade ∈ table.rows.filter (Row.holds "status" (.text "open")),
      trade "id" ≠ .null := fun trade htrade => hnull trade (List.mem_filter.mp htrade).1
  have hloop := @foldl_resolveTrade client now table h [] 0 _ hnull'
  have hdue : (fun trade : Row => checkMarketResolved client (trade "market_id") &&
      trade.holds "status" (.text "open")) = isDue (checkMarketResolved client) := by
    funext trade
    exact Bool.and_comm _ _
  simp only [checkAndResolve, select_of_hasColumns h]
  rw [map_markRow_nil] at hloop
  rw [hloop, Nat.zero_add, List.countP_filter, List.nil_append, List.filter_filter, hdue]
  congr 2
  apply List.map_congr_left
  intro row hrow
  simp only [markRow, mem_ids_filter hids hrow]

end With

end

/-- The resolver closes the books of a database of `PerformanceTracker` exactly when there is nothing
to close, whatever the client reports. -/
theorem closesBooks_database_iff (client : Client) (now : Value → String) (closed : Value → Bool)
    (trades : List Row) :
    ClosesBooks closed (PerformanceTracker.database trades)
        (checkAndResolve client now (initDb (some (PerformanceTracker.database trades)))) ↔
      ∀ row ∈ trades, row.holds "status" (.text "open") → closed (row "market_id") = false := by
  change ClosesBooks closed _ (checkAndResolve client now (PerformanceTracker.database trades)) ↔ _
  rw [checkAndResolve_of_notMem (PerformanceTracker.resolvedAt_notMem_columns trades),
    closesBooks_unchanged_iff]
  simp [isDue, PerformanceTracker.database]

/-! ### An open trade of a closed market -/

/-- A client that reports the market `m1` as closed. -/
def fakeGamma : Client := some fun marketId => .fields [("closed", .bool (marketId = .text "m1"))]

def openTrade : Row
  | "id" => .integer 1
  | "market_id" => .text "m1"
  | "status" => .text "open"
  | _ => .null

theorem not_closesBooks_openTrade :
    checkMarketResolved fakeGamma (.text "m1") = true ∧
      ¬ ClosesBooks (fun marketId => checkMarketResolved fakeGamma marketId)
        (PerformanceTracker.database [openTrade])
        (checkAndResolve fakeGamma (fun _ => "2026-01-01T00:00:00+00:00")
          (initDb (some (PerformanceTracker.database [openTrade])))) := by
  constructor
  · decide
  · intro hbooks
    have hcount := hbooks.count
    rw [initDb, Table.create,
      checkAndResolve_of_notMem (PerformanceTracker.resolvedAt_notMem_columns _)] at hcount
    revert hcount
    decide

end MarketResolver
end PolyCortex
