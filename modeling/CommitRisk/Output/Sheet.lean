import CommitRisk.Attribution.Basic
import CommitRisk.Csv

/-!
# Attributions as a Table

Attributions written as comma separated values: the commit, its score, and a
column for every dimension asked for. A dimension that an attribution does not
have leaves its cell empty.

## Main definitions

* `sheetHeader`, `sheetRow`: The fields of a line.
* `writeSheet`: The table.
-/

namespace CommitRisk

/-- The fields of the header. -/
def sheetHeader (dimensions : List String) : List (List Char) :=
  "commit_id".toList :: "score".toList :: dimensions.map String.toList

/-- The fields of an attribution. -/
def sheetRow (dimensions : List String) (a : Attribution Float) : List (List Char) :=
  a.commit.toList :: (plainText a.score).toList :: dimensions.map fun d =>
    match a.contribution? d with
    | some x => (plainText x).toList
    | none => []

/-- The attributions with a column for every dimension, in the given order. -/
def writeSheet (dimensions : List String) (rows : List (Attribution Float)) : String :=
  let lines := sheetHeader dimensions :: rows.map (sheetRow dimensions)
  String.ofList (lines.flatMap fun fields => Csv.writeRecord (fields.map Csv.writeField))

end CommitRisk
