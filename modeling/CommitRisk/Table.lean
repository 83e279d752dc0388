import CommitRisk.Csv
import CommitRisk.Text.Blank
import CommitRisk.Text.Numeral

/-!
# Metric Tables

A table of metrics is a header of column names and rows of cells, every row as
wide as the header. Cells stay text. A column is read as numbers when it is
asked for, and a cell that is empty, is no number or says `nan` counts as
missing.

## Main definitions

* `Table`: A header and rows of its width.
* `TableError`: Why a table, or the commits in it, cannot be read.
* `Table.parse`: The table written in a text.
* `cellNumber?`, `cellDate?`, `cellLabel?`: What a cell says.
* `Table.numericColumns`: The columns as numbers.
-/

namespace CommitRisk

/-- A header and rows of cells, each as wide as the header. -/
structure Table where
  columns : List String
  rows : List (List String)
  rows_width : ∀ row ∈ rows, row.length = columns.length

/-- Why a table, or the commits in it, cannot be read. Rows are counted from
    one after the header, and so are lines from the start of the text. -/
inductive TableError where
  | missingHeader
  | raggedRow (row expected actual : Nat)
  | unterminatedQuote (line : Nat)
  | missingColumn (column : String)
  | invalidDate (commit value : String)
deriving DecidableEq, Repr

/-- The message of a table error. -/
def TableError.message : TableError → String
  | .missingHeader => "CSV input has no header row"
  | .raggedRow row expected actual => s!"Row {row} has {actual} fields, header has {expected}"
  | .unterminatedQuote line => s!"Unterminated quoted field starting on line {line}"
  | .missingColumn column => s!"Missing required column '{column}'"
  | .invalidDate commit value => s!"Invalid author date '{value}' for commit '{commit}'"

/-- The number in a cell; a missing one if the cell is empty, is not a numeral
    or stands for no number. -/
def cellNumber? (cell : String) : Option Float :=
  (readFloat (trim cell.toList)).filter fun x => !x.isNaN

/-- The date in a cell: an integer, or a finite decimal with its fraction
    dropped and held within sixty-four bits. -/
def cellDate? (cell : String) : Option Int64 :=
  let text := trim cell.toList
  (readInt64 text).or (((readFloat text).filter Float.isFinite).map Float.toInt64)

/-- The label in a cell: `true` or `1`, `false` or `0`, in any ASCII case. -/
def cellLabel? (cell : String) : Option Bool :=
  let word := (trim cell.toList).map Char.toLower
  if word == "true".toList || word == "1".toList then some true
  else if word == "false".toList || word == "0".toList then some false
  else none

namespace Table

/-- The first row that is not as wide as the header, counted from `row`. -/
def firstRagged? (width : Nat) : Nat → List (List String) → Option TableError
  | _, [] => none
  | row, cells :: rest =>
      if cells.length = width then firstRagged? width (row + 1) rest
      else some (.raggedRow row width cells.length)

theorem firstRagged?_eq_none {width row : Nat} {rows : List (List String)} :
    firstRagged? width row rows = none ↔ ∀ cells ∈ rows, cells.length = width := by
  induction rows generalizing row with
  | nil => simp [firstRagged?]
  | cons cells rest ih =>
      by_cases h : cells.length = width
      · simp [firstRagged?, h, ih]
      · simp [firstRagged?, h]

/-- The table of a list of records, the first of which is the header. -/
def ofRecords : List (List String) → Except TableError Table
  | [] => .error .missingHeader
  | columns :: rows =>
      match h : firstRagged? columns.length 1 rows with
      | some fault => .error fault
      | none => .ok ⟨columns, rows, firstRagged?_eq_none.1 h⟩

/-- The table written in a text. -/
def parse (text : String) : Except TableError Table :=
  match Csv.records text with
  | .error line => .error (.unterminatedQuote line)
  | .ok records => ofRecords records

/-- Position of the first column with a name. -/
def columnIndex? (t : Table) (name : String) : Option Nat :=
  t.columns.idxOf? name

/-- The column at a position, read as numbers. -/
def numericColumn (t : Table) (column : Nat) : List (Option Float) :=
  t.rows.map fun row => row[column]?.bind cellNumber?

/-- All columns but those with an excluded name, read as numbers. -/
def numericColumns (t : Table) (excluded : List String) :
    List (String × List (Option Float)) :=
  (t.columns.zipIdx.filter fun (name, _) => !excluded.contains name).map
    fun (name, column) => (name, t.numericColumn column)

/-- The cells of a row with the names of their columns. -/
def row? (t : Table) (row : Nat) : Option (List (String × String)) :=
  t.rows[row]?.map fun cells => t.columns.zip cells

/-- The position of a column that has to be there. -/
def requireColumn (t : Table) (name : String) : Except TableError Nat :=
  match t.columnIndex? name with
  | some column => .ok column
  | none => .error (.missingColumn name)

end Table

end CommitRisk
