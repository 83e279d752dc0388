import CommitRisk.Json.Writer
import CommitRisk.Output.Basic

/-!
# The JSON Payload

The result of a run as a JSON object. Members come in a fixed order, and a part
of the result that is not there has no member.

An attribution is flat: one member for each contribution, named like the
dimension, and the score and the commit after them.

## Main definitions

* `LabelCounts.toJson`, `ModelMedians.toJson`, `Report.toJson`,
  `Attribution.toJson`: The parts.
* `Output.toJson`: The payload.
* `Output.text`: The payload as it is printed.
-/

namespace CommitRisk

/-- The counts under the names of the labels. -/
def LabelCounts.toJson (c : LabelCounts) : Json :=
  .object [("True", .ofNat c.buggy), ("False", .ofNat c.clean)]

/-- Named values as an object. -/
def NamedValues.toJson (v : NamedValues) : Json :=
  .ofValues v.entries

/-- The three medians as an object of objects. -/
def ModelMedians.toJson (m : ModelMedians) : Json :=
  .object [("all", m.all.toJson), ("buggy", m.buggy.toJson), ("clean", m.clean.toJson)]

/-- The figures of a class. -/
def ClassMetrics.toJson (m : ClassMetrics Float) : Json :=
  .object [
    ("precision", .ofFloat m.precision),
    ("recall", .ofFloat m.sensitivity),
    ("f1-score", .ofFloat m.f1),
    ("support", .ofNat m.support)]

/-- The members a report consists of. -/
def Report.members (r : Report Float) : List (String × Json) := [
  ("accuracy", .ofFloat r.accuracy),
  ("buggy", r.buggy.toJson),
  ("clean", r.clean.toJson),
  ("macro_avg", r.macroAvg.toJson),
  ("weighted_avg", r.weightedAvg.toJson)]

/-- A report as an object. -/
def Report.toJson (r : Report Float) : Json :=
  .object r.members

/-- The contributions of an attribution followed by its score and its commit. -/
def Attribution.toJson (a : Attribution Float) : Json :=
  .object ((a.contributions.map fun (name, x) => (name, Json.ofFloat x))
    ++ [("score", .ofFloat a.score), ("commit_id", .text a.commit)])

/-- The stage and the message of a failure. -/
def StageError.toJson (e : StageError) : Json :=
  .object [("stage", .text e.stage.name), ("message", .text e.message)]

/-- The sizes of the data. -/
def DataPoints.toJson (d : DataPoints) : Json :=
  .object [
    ("all", .ofNat d.all),
    ("train", d.train.toJson),
    ("test", d.test.toJson),
    ("predict", .ofNat d.predict)]

/-- The report on a model, with the figures of its report beside the rest. -/
def ModelReport.toJson (r : ModelReport) : Json :=
  .object ([
    ("format", .text r.format),
    ("params", r.params.toJson),
    ("feature_importance", .ofValues r.importances),
    ("medians_score", .ofFloat r.mediansScore)] ++ r.classification.members)

/-- A quantile table as an object of objects. -/
def QuantileTable.toJson (t : QuantileTable) : Json :=
  .object (t.map fun (step, entries) => (step, .ofValues entries))

/-- The three quantile tables. -/
def Quantiles.toJson (q : Quantiles) : Json :=
  .object [
    ("commit", QuantileTable.toJson q.commit),
    ("file", QuantileTable.toJson q.file),
    ("developer", QuantileTable.toJson q.developer)]

namespace Output

/-- The member of a part that may not be there. -/
def optionalMember (name : String) (f : α → Json) (x : Option α) : List (String × Json) :=
  (x.map fun x => (name, f x)).toList

/-- The result of a run as an object. -/
def toJson (o : Output) : Json :=
  .object ([
    ("is_built", .bool o.isBuilt),
    ("is_predicted", .bool o.isPredicted),
    ("status", .text o.status.name),
    ("confidence", .ofFloat o.confidence)]
    ++ optionalMember "error" StageError.toJson o.error
    ++ optionalMember "data_points" DataPoints.toJson o.dataPoints
    ++ optionalMember "model_report" ModelReport.toJson o.report
    ++ optionalMember "medians" ModelMedians.toJson o.medians
    ++ optionalMember "quantiles" Quantiles.toJson o.quantiles
    ++ optionalMember "prediction" (fun rows => .array (rows.map Attribution.toJson)) o.prediction)

/-- The result of a run as it is printed. -/
def text (o : Output) : String :=
  o.toJson.pretty

end Output

end CommitRisk
