import Mathlib.Data.List.Nodup
import Mathlib.Data.Rat.Defs

/-!
# Tables

One table of a database, as its column names and its rows. A statement that names a column the
table does not have fails, and leaves the table as it is.
-/

namespace PolyCortex.Sql

inductive Value where
  | null
  | integer (n : ℤ)
  | real (q : ℚ)
  | text (s : String)
  deriving DecidableEq

/-- The value of each column. -/
abbrev Row := String → Value

structure Table where
  columns : List String
  rows : List Row

/-- What an `UPDATE` sets. -/
abbrev Assignments := List (String × Value)

namespace Row

/-- The condition `column = value`, which is not true of `NULL`. -/
def holds (column : String) (value : Value) (row : Row) : Bool := row column = value ∧ value ≠ .null

def set (assignments : Assignments) (row : Row) : Row :=
  fun column => (assignments.lookup column).getD (row column)

lemma set_of_lookup_none {assignments : Assignments} {column : String}
    (h : assignments.lookup column = none) (row : Row) :
    row.set assignments column = row column := by
  simp [set, h]

end Row

namespace Table

/-- `CREATE TABLE IF NOT EXISTS`. -/
def create (columns : List String) : Option Table → Table
  | some table => table
  | none => { columns, rows := [] }

/-- `ALTER TABLE ADD COLUMN`, with its default. -/
def addColumn (column : String) (default : Value) (table : Table) : Table :=
  { columns := table.columns ++ [column]
    rows := table.rows.map (Row.set [(column, default)]) }

def hasColumns (names : List String) (table : Table) : Bool := names.all (· ∈ table.columns)

/-- `SELECT columns WHERE column = value`; `none` when it names no column of the table. -/
def select (columns : List String) (column : String) (value : Value) (table : Table) :
    Option (List Row) :=
  if table.hasColumns (column :: columns) then some (table.rows.filter (Row.holds column value))
  else none

/-- `UPDATE SET assignments WHERE column = value`; `none` when it names no column of the table. -/
def update (assignments : Assignments) (column : String) (value : Value) (table : Table) :
    Option Table :=
  if table.hasColumns (column :: assignments.map Prod.fst) then
    some { table with
      rows := table.rows.map fun row =>
        if row.holds column value then row.set assignments else row }
  else none

variable {table : Table} {assignments : Assignments}

lemma hasColumns_of_subset {names names' : List String} (h : table.hasColumns names = true)
    (hsub : names' ⊆ names) : table.hasColumns names' = true := by
  rw [hasColumns, List.all_eq_true] at h ⊢
  exact fun name hname => h name (hsub hname)

/-- An update of a column that does not exist fails. -/
lemma update_eq_none {name : String} (hname : name ∈ assignments.map Prod.fst)
    (h : name ∉ table.columns) (column : String) (value : Value) :
    table.update assignments column value = none := by
  apply if_neg
  intro hall
  have hmem := List.all_eq_true.mp hall name (List.mem_cons_of_mem column hname)
  exact h (of_decide_eq_true hmem)

end Table
end PolyCortex.Sql
