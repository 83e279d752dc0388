import CommitRisk.Schema.Declaration

/-!
# Feature Schemas

A schema lists the metrics a model is trained on and groups them into the
dimensions a commit's risk is attributed to. The order of the features is the
column order of every row handed to a model, and the order of the dimensions is
the order of every attribution.

A schema has the tables that come of reading its declaration, and none can be
built without them: a declaration with a fault has no tables. Columns are looked
up in the table of columns; a feature leads to its dimension through its column
and the owner of that, and a mask marks the columns that one dimension owns.

## Main definitions

* `Schema`: Features and dimensions with the tables of their declaration.
* `Schema.ofParts`: The schema of a declaration, or its first fault.
* `Schema.index?`, `Schema.dimensionOf?`: Where a feature is, and where it belongs.
* `Schema.mask`: Which columns belong to a dimension.

## Theorems

* `Schema.partition`: The dimensions cut the feature list into parts.
* `Schema.columns_eq`, `Schema.owners_eq`: What the tables of a schema hold.
* `Schema.ofParts_eq_ok_iff`: A schema is what is made of its own declaration.
-/

namespace CommitRisk

/-- A feature list and the dimensions that partition it, with their tables. -/
structure Schema where
  features : List String
  dimensions : List Dimension
  tables : FeatureTables dimensions
  made : tablesOf features dimensions = .ok tables

namespace Schema

/-- The schema of a declaration, or its first fault. -/
def ofParts (features : List String) (dimensions : List Dimension) : Except SchemaError Schema :=
  match made : tablesOf features dimensions with
  | .error fault => .error fault
  | .ok tables => .ok ⟨features, dimensions, tables, made⟩

theorem partition (s : Schema) : IsPartition s.features s.dimensions :=
  (tablesOf_eq_ok_iff.mp s.made).1

/-- The column of a feature is its place in the list. -/
theorem columns_eq (s : Schema) : s.tables.columns = s.features.zipIdx :=
  (tablesOf_eq_ok_iff.mp s.made).2.1

/-- Every column is owned by the dimension that lists its feature. -/
theorem owners_eq (s : Schema) : s.tables.owners.map some =
    s.features.map (ownerAmong (List.finRange s.dimensions.length)) :=
  (tablesOf_eq_ok_iff.mp s.made).2.2

theorem ofParts_eq_ok_iff {features : List String} {dimensions : List Dimension} {s : Schema} :
    ofParts features dimensions = .ok s ↔ s.features = features ∧ s.dimensions = dimensions := by
  unfold ofParts
  constructor
  · intro h
    split at h
    · cases h
    · cases h
      exact ⟨rfl, rfl⟩
  · rintro ⟨rfl, rfl⟩
    -- The tables are determined by what was declared.
    split
    · rename_i fault hfault
      exact absurd (hfault.symm.trans s.made) (by simp only [reduceCtorEq, not_false_eq_true])
    · rename_i tables hmade
      cases Except.ok.inj (hmade.symm.trans s.made)
      rfl

/-- Number of features, which is the width of every row. -/
def width (s : Schema) : Nat :=
  s.features.length

/-- The names of the dimensions in declared order. -/
def dimensionNames (s : Schema) : List String :=
  s.dimensions.map Dimension.name

/-- The column of a feature. -/
def index? (s : Schema) (feature : String) : Option Nat :=
  s.tables.columns.lookup feature

/-- The features of a dimension, by its name. -/
def dimensionFeatures? (s : Schema) (dimension : String) : Option (List String) :=
  (s.dimensions.find? fun d => d.name == dimension).map Dimension.features

/-- The name of the dimension a feature belongs to, which is the owner of its column. -/
def dimensionOf? (s : Schema) (feature : String) : Option String :=
  (s.index? feature).bind fun column => s.tables.owners[column]?.map fun d => s.dimensions[d].name

/-- Which columns belong to the dimension at a position: none past the last. -/
def mask (s : Schema) (dimension : Nat) : List Bool :=
  s.tables.owners.map fun d => d.val == dimension

/-- Masks of all dimensions in declared order. -/
def masks (s : Schema) : List (List Bool) :=
  (List.range s.dimensions.length).map s.mask

/-- The schema of commit metrics: how experienced the author is, what the
    touched files went through, how large the change is and how far it spreads. -/
def commitDefault : Schema where
  features := ["exp", "rexp", "sexp", "ndev", "nuc", "age", "la", "ld", "lt", "ns", "nd", "nf",
    "entropy"]
  dimensions := [
    ⟨"experience", ["exp", "rexp", "sexp"]⟩,
    ⟨"history", ["ndev", "nuc", "age"]⟩,
    ⟨"size", ["la", "ld", "lt"]⟩,
    ⟨"diffusion", ["ns", "nd", "nf", "entropy"]⟩]
  tables.columns := [("exp", 0), ("rexp", 1), ("sexp", 2), ("ndev", 3), ("nuc", 4), ("age", 5),
    ("la", 6), ("ld", 7), ("lt", 8), ("ns", 9), ("nd", 10), ("nf", 11), ("entropy", 12)]
  tables.owners := [0, 0, 0, 1, 1, 1, 2, 2, 2, 3, 3, 3, 3]
  made := rfl

end Schema

/-- The column that names a commit. -/
def idColumn : String := "commit_id"

/-- The column with the author date in seconds since the epoch. -/
def dateColumn : String := "author_date"

/-- The column with the label. -/
def labelColumn : String := "buggy"

end CommitRisk
