import CommitRisk.Dataset
import CommitRisk.Forest.Growth
import CommitRisk.Forest.Params
import CommitRisk.Random
import CommitRisk.RiskModel

/-!
# Random Forests

A forest is an ensemble of trees, each grown on rows drawn with replacement from
the training rows. A seed says which rows are drawn. Without one they are drawn by
chance, which is handed in. A row's score is the share of trees that vote for the
buggy class, worked out in single precision.

The forest keeps what it was fitted on: the narrowed samples, the labels, and for
every tree the rows that were not drawn for it. A forest without samples or
without trees counts as not fitted, whichever way it came about.

## Main definitions

* `DecisionTree`, `Ensemble`, `Forest`: A forest and its parts.
* `ForestError`: Why no forest can be fitted.
* `HyperParameters.words`: What the rows of a tree are drawn with.
* `Forest.fit`: The forest of labelled rows.
* `Forest.isFitted`: The forest can be asked for scores.
* `Forest.score`: The score of one row.
* `Forest.model`: The forest as a risk model.
* `TrainingSet.fit`: The forest of a training set.

## Theorems

* `TrainingSet.fit_eq`: Looking at the parameters twice changes nothing.
-/

namespace CommitRisk

/-- A tree of an ensemble with the limits it was grown under. A tree that has
    not been grown has no root. -/
structure DecisionTree where
  root : Option Tree
  maxDepth : Option UInt64
  width : Option Nat
deriving DecidableEq

/-- Singles in rows of equal width, one row after the other. -/
structure Matrix where
  cells : List Float32
  rows : Nat
  columns : Nat
deriving DecidableEq

/-- Trees with the parameters and the data they were grown from. -/
structure Ensemble where
  trees : List DecisionTree
  params : HyperParameters
  /-- For every tree the rows that were not drawn for it. -/
  outOfBag : List (List Nat)
  samples : Option Matrix
  labels : Option (List Nat)
deriving DecidableEq

/-- An ensemble with the width of its rows and the weight of each feature. -/
structure Forest where
  ensemble : Ensemble
  width : Nat
  params : HyperParameters
  importances : List Float
deriving DecidableEq

/-- Why no forest can be fitted. -/
inductive ForestError where
  | emptyInput
  | lengthMismatch (samples labels : Nat)
  | inconsistentWidth (row expected actual : Nat)
  | invalidParameter (fault : ParameterFault)
deriving DecidableEq, Repr

namespace ForestError

/-- The message of a forest error. -/
def message : ForestError → String
  | .emptyInput => "Cannot fit on an empty training set"
  | .lengthMismatch samples labels => s!"Got {samples} samples but {labels} labels"
  | .inconsistentWidth row expected actual =>
      s!"Sample {row} has {actual} features, expected {expected}"
  | .invalidParameter fault => s!"Invalid hyper-parameter: {fault.text}"

/-- The cause of a forest error with its data, as it is reported beside the
    message. -/
def cause : ForestError → String
  | .emptyInput => "EmptyInput"
  | .lengthMismatch samples labels =>
      s!"LengthMismatch \x7b samples: {samples}, labels: {labels} \x7d"
  | .inconsistentWidth row expected actual =>
      s!"InconsistentWidth \x7b row: {row}, expected: {expected}, actual: {actual} \x7d"
  | .invalidParameter fault => s!"InvalidParameter(\"{fault.text}\")"

end ForestError

/-- The first sample whose width is not the expected one, counted from `row`. -/
def firstInconsistent? (expected : Nat) : Nat → List (List Float) → Option ForestError
  | _, [] => none
  | row, cells :: rest =>
      if cells.length = expected then firstInconsistent? expected (row + 1) rest
      else some (.inconsistentWidth row expected cells.length)

/-- The words that the rows of a tree are drawn with. Trees have consecutive
    seeds, and without a seed each has a stream of its own. -/
def HyperParameters.words (p : HyperParameters) (chance : Chance) (tree : Nat) : Words :=
  match p.seed with
  | some seed => Words.ofSeed (seed + UInt64.ofNat tree)
  | none => chance tree

namespace Forest

/-- Draws so many indices below a bound. -/
def drawIndices (bound : Nat) : Nat → Words → List Nat
  | 0, _ => []
  | n + 1, s =>
      let drawn := s.index64 bound
      drawn.1 :: drawIndices bound n drawn.2

/-- The rows drawn for a tree: as many as there are. -/
def bootstrap (rows : Nat) (words : Words) : List Nat :=
  drawIndices rows rows words

/-- The rows that were not drawn, in rising order. -/
def notDrawn (rows : Nat) (drawn : List Nat) : List Nat :=
  (List.range rows).filter fun i => !drawn.contains i

/-- The tree grown on the drawn rows. -/
def growTree (width : Nat) (maxDepth : Option UInt64) (rows : List LabelledRow)
    (drawn : List Nat) : DecisionTree where
  root := some (grow width (maxDepth.map UInt64.toNat) 0 (drawn.filterMap fun i => rows[i]?))
  maxDepth := maxDepth
  width := some width

/-- Feature weights of an ensemble: the rows under the splits of a feature, over
    all trees, divided by the number of trees and then by their sum. -/
def importancesOf (width : Nat) (trees : List Tree) : List Float :=
  let zeros := List.replicate width (0.0 : Float32)
  let totals := trees.foldl
    (fun totals tree => List.zipWith (· + ·) totals (tree.addImportances zeros)) zeros
  let means := totals.map fun t => t / Float32.ofNat trees.length
  let sum : Float32 := means.foldl (· + ·) 0.0
  (if 0.0 < sum then means.map fun m => m / sum else means).map widen

/-- The forest of rows that are known to fit together. -/
def ofRows (width : Nat) (rows : List LabelledRow) (params : HyperParameters)
    (chance : Chance) : Forest :=
  let count := rows.length
  let drawn := (List.range params.estimators.toNat).map fun tree =>
    bootstrap count (params.words chance tree)
  let trees := drawn.map (growTree width params.maxDepth rows)
  { ensemble := {
      trees := trees
      params := params
      outOfBag := drawn.map (notDrawn count)
      samples := some ⟨rows.flatMap LabelledRow.cells, count, width⟩
      labels := some (rows.map fun r => if r.buggy then 1 else 0) }
    width := width
    params := params
    importances := importancesOf width (trees.filterMap DecisionTree.root) }

/-- The forest of labelled samples. -/
def fit (samples : List (List Float)) (labels : List Bool) (params : HyperParameters)
    (chance : Chance) : Except ForestError Forest :=
  match params.fault? with
  | some fault => .error (.invalidParameter fault)
  | none =>
      match samples with
      | [] => .error .emptyInput
      | first :: _ =>
          if samples.length ≠ labels.length then
            .error (.lengthMismatch samples.length labels.length)
          else
            match firstInconsistent? first.length 0 samples with
            | some fault => .error fault
            | none =>
                let rows := List.zipWith (fun cells buggy => ⟨cells.map narrow, buggy⟩)
                  samples labels
                .ok (ofRows first.length rows params chance)

/-- The forest has trees and the samples they were grown on. -/
def isFitted (f : Forest) : Bool :=
  f.ensemble.samples.isSome && !f.ensemble.trees.isEmpty

/-- The number of classes that votes are counted for: one more than the largest
    training label, or two if the labels are not known. -/
def classCount (f : Forest) : Nat :=
  match f.ensemble.labels with
  | none => 2
  | some labels => labels.foldl max 0 + 1

/-- How many trees vote for a class. -/
def votes (f : Forest) (cls : Nat) (row : List Float32) : Nat :=
  f.ensemble.trees.countP fun t => t.root.any fun tree => tree.classOf row == cls

/-- The score of a row: the share of trees that vote for the buggy class, and
    zero if no training row was buggy. -/
def score (f : Forest) (row : List Float) : Float :=
  if 1 < f.classCount then
    widen (Float32.ofNat (f.votes 1 (row.map narrow)) / Float32.ofNat f.ensemble.trees.length)
  else 0.0

/-- The forest as a risk model. -/
def model (f : Forest) : RiskModel Float where
  width := f.width
  predict rows :=
    if !f.isFitted then .error .emptyModel
    else match firstOfOtherWidth? f.width 0 rows with
      | some fault => .error fault
      | none => .ok (rows.map f.score)

end Forest

namespace TrainingSet

/-- The forest of a training set. The parameters are looked at before its rows are, and
    again when the forest is fitted. -/
def fit (set : TrainingSet) (params : HyperParameters) (chance : Chance) :
    Except ForestError Forest :=
  match params.fault? with
  | some fault => .error (.invalidParameter fault)
  | none => Forest.fit set.samples set.labels params chance

theorem fit_eq (set : TrainingSet) (params : HyperParameters) (chance : Chance) :
    set.fit params chance = Forest.fit set.samples set.labels params chance := by
  unfold fit Forest.fit
  cases params.fault? with
  | some fault => rfl
  | none => rfl

end TrainingSet

end CommitRisk
