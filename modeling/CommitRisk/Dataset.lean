import CommitRisk.Commit
import CommitRisk.Number.Checked
import CommitRisk.Number.Format
import CommitRisk.Random

/-!
# Training Sets

From commits to the rows a model is trained on and tested with.

Commits dated within a window before the newest commit are too young for their
labels to be trusted. The cutoff is where that window begins: complete commits
before it can be trained on, and commits on or after it are the ones whose risk
is predicted. A window that begins before all dates there are has no cutoff.

## Main definitions

* `TrainingSet`: Rows and their labels.
* `LabelCounts`: How many rows carry each label.
* `PrepareError`: Why there is nothing to train on.
* `predictionCutoff`: Where the prediction window begins.
* `prepare`: The newest rows that can be trained on.
* `predictionSet`: The commits inside the window.
* `TrainingSet.split`: A random cut into a training and a test part.
-/

namespace CommitRisk

/-- Rows of numbers and a label for each of them. -/
structure TrainingSet where
  samples : List (List Float)
  labels : List Bool

/-- How many rows carry each label. -/
structure LabelCounts where
  buggy : Nat
  clean : Nat
deriving DecidableEq, Repr

/-- Number of rows of either label. -/
def LabelCounts.total (c : LabelCounts) : Nat :=
  c.buggy + c.clean

namespace TrainingSet

/-- No rows. -/
def empty : TrainingSet :=
  ⟨[], []⟩

/-- Number of rows. -/
def size (set : TrainingSet) : Nat :=
  set.samples.length

/-- How many labels of each kind there are. -/
def counts (set : TrainingSet) : LabelCounts where
  buggy := set.labels.count true
  clean := set.labels.count false

/-- The rows that carry a label. -/
def rowsWithLabel (set : TrainingSet) (label : Bool) : List (List Float) :=
  ((set.samples.zip set.labels).filter fun (_, l) => l == label).map Prod.fst

/-- The rows at the given positions, in that order. -/
def select (set : TrainingSet) (positions : List Nat) : TrainingSet where
  samples := positions.map fun i => set.samples[i]?.getD []
  labels := positions.map fun i => set.labels[i]?.getD false

end TrainingSet

/-- Why there is nothing to train on. -/
inductive PrepareError where
  | noCommits
  | emptyTrainingSet (cutoff : Int64)
  | emptyTrainSplit (rows : Nat) (testSize : Float)
deriving DecidableEq, Repr

/-- The message of a preparation error. -/
def PrepareError.message : PrepareError → String
  | .noCommits => "No commit metrics available"
  | .emptyTrainingSet cutoff =>
      s!"No labelled commits with complete metrics before cutoff {cutoff.toInt}"
  | .emptyTrainSplit rows testSize =>
      s!"With n_samples={rows} and test_size={plainText testSize}, "
        ++ "the resulting train set will be empty"

/-- The latest date of a nonempty list. -/
def latest : Int64 → List Int64 → Int64
  | newest, [] => newest
  | newest, d :: rest => latest (if newest < d then d else newest) rest

/-- Where the prediction window begins: so many seconds before the newest
    commit, of which there has to be one. -/
def predictionCutoff (commits : List Commit) (seconds : Int64) :
    Except Overflow (Except PrepareError Int64) :=
  match commits with
  | [] => .ok (.error .noCommits)
  | c :: rest => (checkedSub (latest c.date (rest.map Commit.date)) seconds).map .ok

/-- The commits that can be trained on, in input order. -/
def trainable (commits : List Commit) (cutoff : Int64) : List Commit :=
  commits.filter fun c => c.isComplete && decide (c.date < cutoff)

/-- The first `limit` commits when the newest come first and commits of one
    date keep their order; all of them, in input order, if there are no more. -/
def newest (limit : Nat) (commits : List Commit) : List Commit :=
  if limit < commits.length then
    (commits.mergeSort fun a b => decide (b.date ≤ a.date)).take limit
  else commits

/-- A commit's row and label, which a complete commit has. -/
def Commit.row? (c : Commit) : Option (List Float × Bool) :=
  match c.features?, c.label with
  | some row, some label => some (row, label)
  | _, _ => none

/-- The rows that are trained on: those of the complete commits before the
    cutoff, and of these only the newest if there are more than the limit. -/
def prepare (commits : List Commit) (cutoff : Int64) (limit : Nat) :
    Except PrepareError TrainingSet :=
  let kept := newest limit (trainable commits cutoff)
  if kept.isEmpty then .error (.emptyTrainingSet cutoff)
  else
    let rows := kept.filterMap Commit.row?
    .ok ⟨rows.map Prod.fst, rows.map Prod.snd⟩

/-- The commits inside the prediction window, in input order. -/
def predictionSet (commits : List Commit) (cutoff : Int64) : List Commit :=
  commits.filter fun c => decide (cutoff ≤ c.date)

/-- How many of `n` rows are held out for the test. -/
def heldOut (testSize : Float) (n : Nat) : Nat :=
  ceilCount (testSize * Float.ofNat n)

/-- Cuts a set at random into a training and a test part, neither empty. -/
def TrainingSet.split (set : TrainingSet) (testSize : Float) (seed : UInt64) :
    Except PrepareError (TrainingSet × TrainingSet) :=
  let n := set.size
  let test := heldOut testSize n
  if n - test = 0 ∨ test = 0 then .error (.emptyTrainSplit n testSize)
  else
    let order := shuffle n seed
    .ok (set.select (order.drop test), set.select (order.take test))

end CommitRisk
