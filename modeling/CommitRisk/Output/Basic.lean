import CommitRisk.Attribution.Basic
import CommitRisk.Evaluation
import CommitRisk.Forest.Params
import CommitRisk.Metrics.Quantiles

/-!
# Results of a Run

Building a model and predicting with one both end in an `Output`: what was done,
what it found, and the stage that failed if one did. Whatever was found before
a failure stays in.

The status sums up how far the result can be relied on. It looks at the fields
in a fixed order and gives the first reservation that applies.

## Main definitions

* `Stage`, `StageError`: Where a run failed and why.
* `DataPoints`, `ModelReport`: The size of the data and the figures of a model.
* `Status`: How far a result can be relied on.
* `Output`: The result of a run.
* `Output.statusOf`: The status a result deserves.
* `Output.finish`: The result with its status and confidence.
-/

namespace CommitRisk

/-- A stage of a run. -/
inductive Stage where
  | quantileCalculation
  | dataPreparation
  | dataSplitting
  | modelBuilding
  | modelExporting
  | predicting
deriving DecidableEq, Repr

/-- The name of a stage. -/
def Stage.name : Stage → String
  | .quantileCalculation => "quantile calculation"
  | .dataPreparation => "data preparation"
  | .dataSplitting => "data splitting"
  | .modelBuilding => "model building"
  | .modelExporting => "model exporting"
  | .predicting => "predicting"

/-- The stage that failed and its message. -/
structure StageError where
  stage : Stage
  message : String
deriving DecidableEq, Repr

/-- A stage error in one line. -/
def StageError.text (e : StageError) : String :=
  s!"{e.stage.name}: {e.message}"

/-- How many commits there were, and how many went where. -/
structure DataPoints where
  all : Nat
  train : LabelCounts
  test : LabelCounts
  predict : Nat
deriving DecidableEq, Repr

/-- What a model was made with and how well it does. -/
structure ModelReport where
  format : String
  params : HyperParameters
  importances : List (String × Float)
  /-- The score of the median commit. -/
  mediansScore : Float
  classification : Report Float

/-- The figure of quality that status and confidence go by. -/
def ModelReport.weightedF1 (r : ModelReport) : Float :=
  r.classification.weightedAvg.f1

/-- How far a result can be relied on. -/
inductive Status where
  | ok
  | lastModel
  | failDataPreparing
  | lowTrainingData
  | classUnbalanced
  | failTraining
  | lowModelQuality
  | failPredicting
  | unknownState
deriving DecidableEq, Repr

/-- The name of a status. -/
def Status.name : Status → String
  | .ok => "ok"
  | .lastModel => "last_model"
  | .failDataPreparing => "fail_data_preparing"
  | .lowTrainingData => "low_training_data"
  | .classUnbalanced => "class_unbalanced"
  | .failTraining => "fail_training"
  | .lowModelQuality => "low_model_quality"
  | .failPredicting => "fail_predicting"
  | .unknownState => "unknown_state"

/-- The result of a run. -/
structure Output where
  isBuilt : Bool
  isPredicted : Bool
  status : Status
  confidence : Float
  error : Option StageError
  dataPoints : Option DataPoints
  report : Option ModelReport
  medians : Option ModelMedians
  quantiles : Option Quantiles
  prediction : Option (List (Attribution Float))

namespace Output

/-- Nothing has been done. -/
def empty : Output where
  isBuilt := false
  isPredicted := false
  status := .unknownState
  confidence := 0.0
  error := none
  dataPoints := none
  report := none
  medians := none
  quantiles := none
  prediction := none

/-- The result with a failure recorded. -/
def fail (o : Output) (stage : Stage) (message : String) : Output :=
  { o with error := some ⟨stage, message⟩ }

/-- The fewest rows a model is worth training on. -/
def minTrainingRows : Nat := 50

/-- The fewest rows of either label. -/
def minClassRows : Nat := 10

/-- The share of buggy rows is too far from even, or one label is too rare. -/
def isUnbalanced (train : LabelCounts) : Bool :=
  let share := Float.ofNat train.buggy / Float.ofNat train.total
  decide (share < 0.1) || decide (0.9 < share)
    || decide (train.buggy < minClassRows) || decide (train.clean < minClassRows)

/-- The status a failed stage stands for, if it stands for one. -/
def statusOfStage? : Stage → Option Status
  | .dataPreparation => some .failDataPreparing
  | .dataSplitting => some .failDataPreparing
  | .modelBuilding => some .failTraining
  | .modelExporting => some .failTraining
  | .predicting => some .failPredicting
  | .quantileCalculation => none

/-- The status a result deserves: the first reservation that applies. -/
def statusOf (o : Output) : Status :=
  if !o.isBuilt && o.isPredicted then .lastModel
  else match o.dataPoints with
    | none => .failDataPreparing
    | some points =>
        if points.train.total < minTrainingRows then .lowTrainingData
        else if isUnbalanced points.train then .classUnbalanced
        else match o.report with
          | none => .failTraining
          | some report =>
              if report.weightedF1 < 0.5 then .lowModelQuality
              else match o.error.bind fun e => statusOfStage? e.stage with
                | some status => status
                | none => if o.isBuilt && o.isPredicted then .ok else .unknownState

/-- The quality of the model, zero if there is no report on one. -/
def confidenceOf (o : Output) : Float :=
  match o.report with
  | some report => report.weightedF1
  | none => 0.0

/-- The result with its status and confidence. -/
def finish (o : Output) : Output :=
  { o with status := o.statusOf, confidence := o.confidenceOf }

end Output

end CommitRisk
