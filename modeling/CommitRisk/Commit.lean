import CommitRisk.Schema
import CommitRisk.Table

/-!
# Commits

A commit is a row of a metrics table read along a schema: an identifier, a
date, one number or gap for every feature and, in tables that have labels, a
label. Only the names of the columns matter, and of columns with the same name
only the first.

## Main definitions

* `Commit`: A row read along a schema.
* `Commit.features?`: The row of numbers, if nothing is missing.
* `Commit.isComplete`: The commit can be trained on.
* `Table.commits`: The commits of a table.
-/

namespace CommitRisk

/-- One commit with its metrics in the column order of a schema. -/
structure Commit where
  id : String
  /-- Author date in seconds since the epoch. -/
  date : Int64
  metrics : List (Option Float)
  label : Option Bool

namespace Commit

/-- The row of numbers, if no metric is missing. -/
def features? (c : Commit) : Option (List Float) :=
  c.metrics.mapM fun m => m

/-- The commit has a label and all its metrics are numbers. -/
def isComplete (c : Commit) : Bool :=
  c.label.isSome && c.metrics.all fun m => match m with
    | some x => !x.isNaN
    | none => false

end Commit

namespace Table

/-- One row read along the positions of the id, the date, the label and the
    features. -/
def commitOfRow (id date : Nat) (label : Option Nat) (features : List Nat) (row : List String) :
    Except TableError Commit :=
  let cell (column : Nat) : String := row[column]?.getD ""
  match cellDate? (cell date) with
  | none => .error (.invalidDate (cell id) (cell date))
  | some day => .ok {
      id := cell id
      date := day
      metrics := features.map fun column => cellNumber? (cell column)
      label := label.bind fun column => cellLabel? (cell column) }

/-- The commits of a table in row order. The id, the date and every feature
    need a column; the label does not. -/
def commits (t : Table) (s : Schema) : Except TableError (List Commit) := do
  let id ← t.requireColumn idColumn
  let date ← t.requireColumn dateColumn
  let features ← s.features.mapM t.requireColumn
  t.rows.mapM (commitOfRow id date (t.columnIndex? labelColumn) features)

end Table

end CommitRisk
