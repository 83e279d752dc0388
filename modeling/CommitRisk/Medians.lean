import CommitRisk.Dataset
import CommitRisk.Stats

/-!
# Median Commits

The median of every feature over a set of rows is a commit in the middle of the
data. The one over all rows is the baseline every other commit is compared
with; those over the buggy and over the clean rows are reported beside it.

Taking a median may fail, and then there is no median commit. `columnMedians` and
`ModelMedians.ofSet` are the same medians for a reader to whom a median that
cannot be taken is zero.

## Main definitions

* `NamedValues`: One value for every feature, by name and in column order.
* `featureMedians`, `columnMedians`: The medians of a set of rows.
* `ModelMedians`: The medians of a training set, over all rows and by label.
* `ModelMedians.compute`, `ModelMedians.ofSet`: Taking these medians.
-/

namespace CommitRisk

/-- Values with the names they belong to, in a fixed order. -/
structure NamedValues where
  entries : List (String × Float)

namespace NamedValues

/-- The values in order. -/
def values (v : NamedValues) : List Float :=
  v.entries.map Prod.snd

/-- The value of the first entry with a name. -/
def get? (v : NamedValues) (name : String) : Option Float :=
  v.entries.lookup name

end NamedValues

/-- The values of a column, of the rows that reach that far. -/
def column (rows : List (List Float)) (position : Nat) : List Float :=
  rows.filterMap fun row => row[position]?

/-- The median of a column; zero if nothing is present in it. -/
def featureMedian (rows : List (List Float)) (position : Nat) : Except StatError Float :=
  (medianOfPresent ((column rows position).map some)).map fun m => m.getD 0.0

/-- The median of every feature over the rows. -/
def featureMedians (s : Schema) (rows : List (List Float)) : Except StatError NamedValues := do
  let entries ← s.features.zipIdx.mapM fun (feature, position) => do
    return (feature, ← featureMedian rows position)
  return ⟨entries⟩

/-- The median of every feature over the rows; zero for a column that has none. -/
def columnMedians (s : Schema) (rows : List (List Float)) : NamedValues where
  entries := s.features.zipIdx.map fun (feature, position) =>
    (feature, (medianOfPresent? ((column rows position).map some)).getD 0.0)

/-- Medians over all rows of a training set and over the rows of each label. -/
structure ModelMedians where
  all : NamedValues
  buggy : NamedValues
  clean : NamedValues

/-- The medians of a training set. -/
def ModelMedians.compute (s : Schema) (set : TrainingSet) : Except StatError ModelMedians := do
  let all ← featureMedians s set.samples
  let buggy ← featureMedians s (set.rowsWithLabel true)
  let clean ← featureMedians s (set.rowsWithLabel false)
  return ⟨all, buggy, clean⟩

/-- The medians of a training set, zero for a column that has none. -/
def ModelMedians.ofSet (s : Schema) (set : TrainingSet) : ModelMedians where
  all := columnMedians s set.samples
  buggy := columnMedians s (set.rowsWithLabel true)
  clean := columnMedians s (set.rowsWithLabel false)

end CommitRisk
