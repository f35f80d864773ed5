import PolyCortex.Data.Grouping
import PolyCortex.Execution.Mirror
import PolyCortex.Tracking.Tracker

/-!
# Metrics

The totals, groups and counts of `get_metrics`. The rows of the ledger are regrouped in a dozen loops,
each with a default of its own for what is missing; the groups of every loop are a partition of the rows
(`getMetrics_partitions`).
-/

namespace PolyCortex

/-- The columns of a row that the metrics read, as the table has them. -/
structure MetricsRow where
  status : Option String
  direction : Direction
  pnl : Option ℚ := none
  category : Option String := none
  regimeAtEntry : Option String := none
  source : Option String := none
  entryOrderStatus : Option String := none
  isPaper : Option ℤ := none
  sizeUsdc : Option ℚ := none
  filledSizeUsdc : Option ℚ := none
  deriving DecidableEq, Repr

/-- `value or fallback` of Python on texts: the empty text counts as absent. -/
def textOr (value : Option String) (fallback : String) : String :=
  match value with
  | some text => if text = "" then fallback else text
  | none => fallback

namespace MetricsRow

def isClosed (row : MetricsRow) : Bool := row.status = some "closed" ∨ row.status = some "resolved"

def isOpen (row : MetricsRow) : Bool := row.status = some "open"

/-- `row.get("pnl") or 0.0`. -/
def pnlOrZero (row : MetricsRow) : ℚ := row.pnl.getD 0

def won (row : MetricsRow) : Bool := 0 < row.pnlOrZero

/-- `_effective_size_usdc`. -/
def effectiveSizeUsdc (row : MetricsRow) : ℚ :=
  match row.filledSizeUsdc with
  | some filled => if 0 < filled then filled else row.sizeUsdc.getD 0
  | none => row.sizeUsdc.getD 0

def onPaper (row : MetricsRow) : Bool := row.isPaper.getD 0 = 1

def categoryLabel (row : MetricsRow) : String := textOr row.category "unknown"

def regimeLabel (row : MetricsRow) : String := textOr row.regimeAtEntry "unknown"

def statusLabel (row : MetricsRow) : String := textOr row.status "unknown"

def sourceLabel (row : MetricsRow) : String := textOr row.source "agent"

def entryStatusLabel (row : MetricsRow) : String := textOr row.entryOrderStatus "unknown"

end MetricsRow

/-- An entry of `per_category_stats`, `direction_stats` or `regime_stats`. -/
structure GroupStats where
  count : ℕ
  totalPnl : ℚ
  winRate : ℚ
  deriving DecidableEq, Repr

/-- The same while the rows are counted. -/
structure GroupTally where
  count : ℕ := 0
  totalPnl : ℚ := 0
  wins : ℕ := 0
  deriving DecidableEq, Repr

def GroupTally.add (row : MetricsRow) (tally : GroupTally) : GroupTally where
  count := tally.count + 1
  totalPnl := tally.totalPnl + row.pnlOrZero
  wins := tally.wins + if row.won then 1 else 0

def GroupTally.stats (tally : GroupTally) : GroupStats where
  count := tally.count
  totalPnl := tally.totalPnl
  winRate := if 0 < tally.count then tally.wins / tally.count else 0

/-- The stats of the closed rows by a label. -/
def statsBy (label : MetricsRow → String) (closedRows : List MetricsRow) : Dict String GroupStats :=
  (Dict.groupFold label {} GroupTally.add closedRows).map GroupTally.stats

def totalPnlOf (rows : List MetricsRow) : ℚ := (rows.map (·.pnlOrZero)).sum

def exposureOf (rows : List MetricsRow) : ℚ := (rows.map (·.effectiveSizeUsdc)).sum

/-- The stats of the closed rows of one direction. -/
def directionGroup (direction : Direction) (closedRows : List MetricsRow) : GroupStats :=
  let directionRows := closedRows.filter (·.direction = direction)
  { count := directionRows.length
    totalPnl := totalPnlOf directionRows
    winRate :=
      if directionRows = [] then 0 else (directionRows.countP (·.won) : ℚ) / directionRows.length }

/-- A dictionary with a binding for each direction. -/
def byDirection {α : Type} (value : Direction → α) : Dict Direction α :=
  (Dict.empty.set .yes (value .yes)).set .no (value .no)

/-- The number of rows by a label. -/
def countBy (label : MetricsRow → String) (rows : List MetricsRow) : Dict String ℕ :=
  Dict.groupFold label 0 (fun _ count => count + 1) rows

/-- The totals, the groups and the counts of `get_metrics`; an infinite profit factor is `none`. -/
structure Metrics where
  totalPnl : ℚ
  winRate : ℚ
  tradeCount : ℕ
  grossProfit : ℚ
  grossLoss : ℚ
  profitFactor : Option ℚ
  avgWin : ℚ
  avgLoss : ℚ
  expectancy : ℚ
  perCategoryStats : Dict String GroupStats
  directionStats : Dict Direction GroupStats
  regimeStats : Dict String GroupStats
  openCount : ℕ
  currentExposure : ℚ
  exposureByCategory : Dict String ℚ
  exposureByDirection : Dict Direction ℚ
  paperCount : ℕ
  liveCount : ℕ
  paperOpenCount : ℕ
  liveOpenCount : ℕ
  statusCounts : Dict String ℕ
  sourceCounts : Dict String ℕ
  entryStatusCounts : Dict String ℕ
  pendingEntryCount : ℕ
  partialFillCount : ℕ

/-- `get_metrics`. -/
def getMetrics (rows : List MetricsRow) : Metrics :=
  let closedRows := rows.filter (·.isClosed)
  let openRows := rows.filter (·.isOpen)
  let totalPnl := totalPnlOf closedRows
  let tradeCount := closedRows.length
  let wins := closedRows.countP (·.won)
  let grossProfit := totalPnlOf (closedRows.filter (0 < ·.pnlOrZero))
  let grossLoss := |totalPnlOf (closedRows.filter (·.pnlOrZero < 0))|
  let losses := closedRows.countP (·.pnlOrZero < 0)
  let paperCount := rows.countP (·.onPaper)
  let paperOpenCount := openRows.countP (·.onPaper)
  let entryStatusCounts := countBy (·.entryStatusLabel) rows
  { totalPnl
    winRate := if 0 < tradeCount then (wins : ℚ) / tradeCount else 0
    tradeCount
    grossProfit
    grossLoss
    profitFactor :=
      if 0 < grossLoss then some (grossProfit / grossLoss)
      else if 0 < grossProfit then none
      else some 0
    avgWin := if 0 < wins then grossProfit / wins else 0
    avgLoss := if 0 < losses then -grossLoss / losses else 0
    expectancy := if 0 < tradeCount then totalPnl / tradeCount else 0
    perCategoryStats := statsBy (·.categoryLabel) closedRows
    directionStats := byDirection fun direction => directionGroup direction closedRows
    regimeStats := statsBy (·.regimeLabel) closedRows
    openCount := openRows.length
    currentExposure := exposureOf openRows
    exposureByCategory := Dict.groupFold (·.categoryLabel) 0
      (fun row exposure => exposure + row.effectiveSizeUsdc) openRows
    exposureByDirection := byDirection fun direction =>
      exposureOf (openRows.filter (·.direction = direction))
    paperCount
    liveCount := rows.length - paperCount
    paperOpenCount
    liveOpenCount := openRows.length - paperOpenCount
    statusCounts := countBy (·.statusLabel) rows
    sourceCounts := countBy (·.sourceLabel) rows
    entryStatusCounts
    pendingEntryCount := (entryStatusCounts.get? "placed").getD 0
    partialFillCount := (entryStatusCounts.get? "partially_filled").getD 0 }

/-! ### Groups -/

variable {rows : List MetricsRow} {label : MetricsRow → String}

lemma sum_statsBy_count (label : MetricsRow → String) (rows : List MetricsRow) :
    ((statsBy label rows).values.map (·.count)).sum = rows.length := by
  have hsum : ((Dict.groupFold label {} GroupTally.add rows).values.map (·.count)).sum =
      (rows.map fun _ => 1).sum := Dict.sum_groupFold (by rfl) (fun _ _ => by rfl) rows
  rw [List.map_const', List.sum_replicate, smul_eq_mul, mul_one] at hsum
  rw [statsBy, Dict.values_map, List.map_map]
  exact hsum

lemma sum_statsBy_totalPnl (label : MetricsRow → String) (rows : List MetricsRow) :
    ((statsBy label rows).values.map (·.totalPnl)).sum = totalPnlOf rows := by
  have hsum : ((Dict.groupFold label {} GroupTally.add rows).values.map (·.totalPnl)).sum =
      (rows.map (·.pnlOrZero)).sum := Dict.sum_groupFold (by rfl) (fun _ _ => by rfl) rows
  rw [statsBy, Dict.values_map, List.map_map]
  exact hsum

lemma sum_countBy (label : MetricsRow → String) (rows : List MetricsRow) :
    (countBy label rows).values.sum = rows.length := by
  have hsum : ((countBy label rows).values.map id).sum = (rows.map fun _ => 1).sum :=
    Dict.sum_groupFold (by rfl) (fun _ _ => by rfl) rows
  rwa [List.map_id, List.map_const', List.sum_replicate, smul_eq_mul, mul_one] at hsum

/-- The values for the two directions. -/
lemma values_byDirection {α : Type} (value : Direction → α) :
    (byDirection value).values = [value .yes, value .no] := by
  simp [byDirection, Dict.values, Dict.set, Dict.empty, Function.update]

/-- A row that is not of the YES side is of the NO side. -/
lemma filter_no (hsides : ∀ row ∈ rows, row.direction.IsSide) :
    rows.filter (·.direction = .no) = rows.filter fun row => !decide (row.direction = .yes) := by
  refine List.filter_congr fun row hrow => ?_
  rcases hsides row hrow with h | h <;> simp [h]

lemma sum_sides (weight : MetricsRow → ℚ) (hsides : ∀ row ∈ rows, row.direction.IsSide) :
    ((rows.filter (·.direction = .yes)).map weight).sum +
      ((rows.filter (·.direction = .no)).map weight).sum = (rows.map weight).sum := by
  rw [filter_no hsides, ← List.sum_map_filter_add_sum_map_filter_not (·.direction = .yes) weight rows]
  simp only [decide_not]

lemma length_sides (hsides : ∀ row ∈ rows, row.direction.IsSide) :
    (rows.filter (·.direction = .yes)).length + (rows.filter (·.direction = .no)).length =
      rows.length := by
  rw [filter_no hsides, ← List.length_eq_length_filter_add]

lemma totalPnlOf_filter_cons (p : MetricsRow → Bool) (row : MetricsRow) (rows : List MetricsRow) :
    totalPnlOf ((row :: rows).filter p) =
      (if p row then row.pnlOrZero else 0) + totalPnlOf (rows.filter p) := by
  by_cases hp : p row = true <;> simp [totalPnlOf, hp]

/-- The gains less the losses. -/
lemma grossProfit_sub_grossLoss (rows : List MetricsRow) :
    totalPnlOf (rows.filter (0 < ·.pnlOrZero)) - |totalPnlOf (rows.filter (·.pnlOrZero < 0))| =
      totalPnlOf rows := by
  have hsums : totalPnlOf (rows.filter (·.pnlOrZero < 0)) ≤ 0 ∧
      totalPnlOf (rows.filter (0 < ·.pnlOrZero)) + totalPnlOf (rows.filter (·.pnlOrZero < 0)) =
        totalPnlOf rows := by
    induction rows with
    | nil => simp [totalPnlOf]
    | cons row rows ih =>
      obtain ⟨hloss, hsum⟩ := ih
      have hcons : totalPnlOf (row :: rows) = row.pnlOrZero + totalPnlOf rows := by
        rw [totalPnlOf, List.map_cons, List.sum_cons, totalPnlOf]
      rw [totalPnlOf_filter_cons, totalPnlOf_filter_cons, hcons, ← hsum]
      rcases lt_trichotomy row.pnlOrZero 0 with hneg | hzero | hpos
      · simp only [hneg, hneg.not_gt, decide_true, decide_false, if_true, Bool.false_eq_true, if_false]
        constructor
        · linarith
        · ring
      · simp only [hzero, lt_irrefl, decide_false, Bool.false_eq_true, if_false, zero_add]
        exact ⟨hloss, trivial⟩
      · simp only [hpos, hpos.not_gt, decide_true, decide_false, if_true, Bool.false_eq_true, if_false]
        constructor
        · linarith
        · ring
  rw [abs_of_nonpos hsums.1, sub_neg_eq_add, hsums.2]

lemma countP_open {α : Type} [DecidableEq α] (label : MetricsRow → α) (value : α)
    (rows : List MetricsRow) :
    rows.countP (fun row => row.isOpen ∧ label row = value) =
      (rows.filter (·.isOpen)).countP (label · = value) := by
  rw [List.countP_filter]
  refine List.countP_congr fun row _ => ?_
  simp [and_comm]

/-! ### Partitions -/

/-- The groups of every loop add up to the totals, and their counts to the number of rows. -/
structure Metrics.Partitions (m : Metrics) (rows : List MetricsRow) : Prop where
  category_count : (m.perCategoryStats.values.map (·.count)).sum = m.tradeCount
  category_pnl : (m.perCategoryStats.values.map (·.totalPnl)).sum = m.totalPnl
  regime_count : (m.regimeStats.values.map (·.count)).sum = m.tradeCount
  regime_pnl : (m.regimeStats.values.map (·.totalPnl)).sum = m.totalPnl
  direction_count : (m.directionStats.values.map (·.count)).sum = m.tradeCount
  direction_pnl : (m.directionStats.values.map (·.totalPnl)).sum = m.totalPnl
  profit_loss : m.grossProfit - m.grossLoss = m.totalPnl
  category_exposure : m.exposureByCategory.values.sum = m.currentExposure
  direction_exposure : m.exposureByDirection.values.sum = m.currentExposure
  category_open : (m.exposureByCategory.keys.map fun category =>
    rows.countP fun row => row.isOpen ∧ row.categoryLabel = category).sum = m.openCount
  direction_open : (m.exposureByDirection.keys.map fun direction =>
    rows.countP fun row => row.isOpen ∧ row.direction = direction).sum = m.openCount
  statuses : m.statusCounts.values.sum = rows.length
  sources : m.sourceCounts.values.sum = rows.length
  entryStatuses : m.entryStatusCounts.values.sum = rows.length
  modes : m.paperCount + m.liveCount = rows.length

/-- For rows of the two sides of the market, whatever is missing in them. -/
theorem getMetrics_partitions (hsides : ∀ row ∈ rows, row.direction.IsSide) :
    (getMetrics rows).Partitions rows := by
  have hclosed : ∀ row ∈ rows.filter (·.isClosed), row.direction.IsSide :=
    fun row hrow => hsides row (List.mem_filter.mp hrow).1
  have hopen : ∀ row ∈ rows.filter (·.isOpen), row.direction.IsSide :=
    fun row hrow => hsides row (List.mem_filter.mp hrow).1
  constructor
  case category_count => exact sum_statsBy_count _ _
  case category_pnl => exact sum_statsBy_totalPnl _ _
  case regime_count => exact sum_statsBy_count _ _
  case regime_pnl => exact sum_statsBy_totalPnl _ _
  case direction_count =>
    simp only [getMetrics, values_byDirection]
    simpa [directionGroup] using length_sides hclosed
  case direction_pnl =>
    simp only [getMetrics, values_byDirection]
    simpa [directionGroup, totalPnlOf] using sum_sides (·.pnlOrZero) hclosed
  case profit_loss => exact grossProfit_sub_grossLoss _
  case category_exposure =>
    have hsum : ((getMetrics rows).exposureByCategory.values.map id).sum =
        ((rows.filter (·.isOpen)).map (·.effectiveSizeUsdc)).sum :=
      Dict.sum_groupFold (by rfl) (fun _ _ => by rfl) _
    rwa [List.map_id] at hsum
  case direction_exposure =>
    simp only [getMetrics, values_byDirection]
    simpa [exposureOf] using sum_sides (·.effectiveSizeUsdc) hopen
  case category_open =>
    have hcount := fun category => countP_open MetricsRow.categoryLabel category rows
    simp only [hcount]
    rw [getMetrics]
    dsimp only
    rw [Dict.sum_countP_groupFold]
  case direction_open =>
    have hcount := fun direction => countP_open MetricsRow.direction direction rows
    have hkeys : (getMetrics rows).exposureByDirection.keys = [.yes, .no] := rfl
    simp only [hcount, hkeys, List.map_cons, List.map_nil, List.sum_cons, List.sum_nil, add_zero]
    simp only [List.countP_eq_length_filter]
    exact length_sides hopen
  case statuses => exact sum_countBy _ rows
  case sources => exact sum_countBy _ rows
  case entryStatuses => exact sum_countBy _ rows
  case modes => exact Nat.add_sub_cancel' List.countP_le_length

/-- An open row of the size 10. -/
def openTen : MetricsRow where
  status := some "open"
  direction := .yes
  sizeUsdc := some 10

theorem getMetrics_partitions_openTen : (getMetrics [openTen]).exposureByCategory.values.sum = 10 := by
  have hsides : ∀ row ∈ [openTen], row.direction.IsSide := fun row hrow => by
    rw [List.mem_singleton.mp hrow]
    exact Or.inl rfl
  have hpartitions := getMetrics_partitions hsides
  rw [hpartitions.category_exposure]
  decide +kernel

/-- The exposures are dollars: their sum is not the number of the rows. -/
theorem openTen_count : (getMetrics [openTen]).openCount = 1 ∧
    (getMetrics [openTen]).exposureByCategory.values.sum = 10 ∧
    (getMetrics [openTen]).exposureByDirection.values.sum = 10 := by
  decide +kernel

end PolyCortex
