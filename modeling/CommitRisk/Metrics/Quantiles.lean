import CommitRisk.Metrics.Source

/-!
# Quantile Tables

For every step asked for, the quantiles of all numeric columns of a table. The
outer keys are the steps as they are printed, the inner ones the names of the
columns in which some cell is a number; both are in rising order. If a name
comes twice, the last column with a number in it counts.

## Main definitions

* `insertByName`: An entry put in its place by its name.
* `QuantileTable`, `Quantiles`: The tables.
* `quantileTable`: The quantiles of the columns of a table.
-/

namespace CommitRisk

/-- The entries, which are in rising order of their names, with one of them put
    in or replaced. -/
def insertByName (name : String) (x : β) : List (String × β) → List (String × β)
  | [] => [(name, x)]
  | (n, y) :: rest =>
      if name = n then (name, x) :: rest
      else if name < n then (name, x) :: (n, y) :: rest
      else (n, y) :: insertByName name x rest

/-- For every printed step the quantile of each column. -/
abbrev QuantileTable := List (String × List (String × Float))

/-- Quantiles of the three tables of a repository. -/
structure Quantiles where
  commit : QuantileTable
  file : QuantileTable
  developer : QuantileTable

/-- The columns of a table in which some cell is a number, with those numbers. -/
def numericSamples (t : Table) (excluded : List String) : List (String × List Float) :=
  ((t.numericColumns excluded).map fun (name, cells) =>
    (name, cells.filterMap fun x => x)).filter fun (_, values) => !values.isEmpty

/-- The quantiles of one column at every step. -/
def columnQuantiles (steps : List Float) (column : String) (values : List Float) :
    Except FetchError (List Float) :=
  steps.mapM fun q => match quantile values q with
    | .ok x => .ok x
    | .error e => .error (.quantile column e)

/-- The quantiles of the columns of a table at every step. -/
def quantileTable (steps : List Float) (excluded : List String) (t : Table) :
    Except FetchError QuantileTable := do
  let columns ← (numericSamples t excluded).mapM fun (name, values) => do
    return (name, ← columnQuantiles steps name values)
  let atStep (position : Nat) : List (String × Float) :=
    columns.foldl (fun entries (name, values) =>
      insertByName name (values.getD position 0.0) entries) []
  return steps.zipIdx.foldl (fun entries (q, position) =>
    insertByName (plainText q) (atStep position) entries) []

end CommitRisk
