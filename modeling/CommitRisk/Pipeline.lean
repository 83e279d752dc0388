import CommitRisk.Archive.Store
import CommitRisk.Config
import CommitRisk.Metrics.Collector
import CommitRisk.Output.Basic

/-!
# Building and Predicting

The two things a run can do. Building trains a model on the older commits of a
repository, stores it, tests it and predicts the newer ones with it. Predicting
uses a stored model on the commits of a range of jobs.

A stage that fails is recorded in the result and ends the run, and what was found
before stays. Each stage of a build is a function that is handed the result so far:
it either ends the run or passes a fuller result on to the next stage. A prediction
always gives a result. A build gives one unless the length of its prediction window
or the start of it has no room in sixty-four bits, which stops it without a result.

Everything a run reads or changes is passed in and given back: the source of
the metrics, the collector, the file tree, the time of day and what chance draws
for a forest without a seed.

## Main definitions

* `Pipeline`: The schema and the settings of a run.
* `Prepared`: What data preparation finds.
* `Config.windowStart`: Where the prediction window of some commits begins.
* `Pipeline.exportModel`: Storing a model and loading it again.
* `Pipeline.judge`: The report on a stored model.
* `Pipeline.attributions`: The attributions of commits with a stored model.
* `Pipeline.build`, `Pipeline.predict`: The two runs.
-/

namespace CommitRisk

/-- The schema and the settings of a run. -/
structure Pipeline where
  schema : Schema
  config : Config

/-- What data preparation finds: the rows that can be trained on, their medians
    and the commits to predict. -/
structure Prepared where
  set : TrainingSet
  medians : ModelMedians
  window : List Commit

/-- The format models are stored in. -/
def modelFormat : String := "apr"

/-- The release that stored models are marked with. -/
def release : String := "0.3.1"

/-- Where the prediction window of some commits begins. Its length is worked out
    before the commits are looked at. -/
def Config.windowStart (c : Config) (commits : List Commit) :
    Except Overflow (Except PrepareError Int64) :=
  match c.ignoredSeconds with
  | .error overflow => .error overflow
  | .ok seconds => predictionCutoff commits seconds

namespace Pipeline

/-- The rows to train on and the commits to predict, once it is known where the
    window begins. -/
def prepareFrom (p : Pipeline) (commits : List Commit) (cutoff : Int64) :
    Except String Prepared :=
  match prepare commits cutoff p.config.maxTrainingRows with
  | .error e => .error e.message
  | .ok set =>
      match ModelMedians.compute p.schema set with
      | .error e => .error e.message
      | .ok medians => .ok ⟨set, medians, predictionSet commits cutoff⟩

/-- The rows to train on and the commits to predict, from the commit table. -/
def prepareData (p : Pipeline) (table : Table) : Except Overflow (Except String Prepared) :=
  match table.commits p.schema with
  | .error e => .ok (.error e.message)
  | .ok commits =>
      match p.config.windowStart commits with
      | .error overflow => .error overflow
      | .ok (.error e) => .ok (.error e.message)
      | .ok (.ok cutoff) => .ok (p.prepareFrom commits cutoff)

/-- The model that is stored for a forest. -/
def portable (p : Pipeline) (now : String) (forest : Forest) (trained : Nat) : PortableModel :=
  ⟨p.schema.features, forest, ⟨release, now, trained, none⟩⟩

/-- The label of the archives that are stored. -/
def archiveLabel (p : Pipeline) : ArchiveLabel :=
  ⟨some "faultline", some s!"Random forest over {p.schema.width} commit metrics"⟩

/-- Stores a model and loads it again. -/
def exportModel (p : Pipeline) (now path : String) (m : PortableModel) (files : Files) :
    Except StoreError PortableModel × Files :=
  match saveModel files path now p.archiveLabel m with
  | (.error e, files) => (.error e, files)
  | (.ok (), files) =>
      match loadModel files path with
      | .error e => (.error e, files)
      | .ok loaded =>
          match loaded.ensureFeatures p.schema.features with
          | .error e => (.error e, files)
          | .ok () => (.ok loaded, files)

/-- The report on a stored model, from the rows held out for the test and the
    median commit. -/
def judge (p : Pipeline) (m : PortableModel) (test : TrainingSet) (medians : ModelMedians) :
    Except InferenceError ModelReport :=
  match evaluate m.model test p.config.decisionThreshold with
  | .error e => .error e
  | .ok classification =>
      match m.model.predictOne medians.all.values with
      | .error e => .error e
      | .ok mediansScore => .ok {
          format := modelFormat
          params := m.forest.params
          importances := m.names.zip m.forest.importances
          mediansScore := mediansScore
          classification := classification }

/-- The attributions of commits with a stored model, against a baseline that may
    not be had. -/
def attributions (p : Pipeline) (m : PortableModel) (baseline : Except AttributionError NamedValues)
    (mediansScore : Float) (commits : List Commit) :
    Except AttributionError (List (Attribution Float)) := do
  let engine ← Engine.ofBaseline m.model p.schema (← baseline) mediansScore
  engine.attributions commits

/-- Predicting the newer commits, the last stage of a build. -/
def predictWindow (p : Pipeline) (m : PortableModel) (report : ModelReport) (d : Prepared)
    (o : Output) : Output :=
  match p.attributions m (baselineOf p.schema d.medians.all.values) report.mediansScore
    d.window with
  | .error e => o.fail .predicting e.message
  | .ok rows => { o with prediction := some rows, isPredicted := true }

/-- Storing the model and judging what was stored. -/
def exportAndJudge (p : Pipeline) (now path : String) (m : PortableModel) (test : TrainingSet)
    (d : Prepared) (o : Output) (files : Files) : Output × Files :=
  match p.exportModel now path m files with
  | (.error e, files) => (o.fail .modelExporting e.message, files)
  | (.ok stored, files) =>
      match p.judge stored test d.medians with
      | .error e => (o.fail .modelExporting e.message, files)
      | .ok report => (p.predictWindow stored report d { o with report := some report }, files)

/-- Training the model on one part of the rows. -/
def train (p : Pipeline) (now : String) (chance : Chance) (path : String)
    (params : HyperParameters) (train test : TrainingSet) (d : Prepared) (o : Output)
    (files : Files) : Output × Files :=
  match train.fit params chance with
  | .error e => (o.fail .modelBuilding s!"{e.message} ({e.cause})", files)
  | .ok forest =>
      p.exportAndJudge now path (p.portable now forest train.size) test d
        { o with isBuilt := true } files

/-- Splitting the rows into those to train on and those to test with. -/
def splitAndTrain (p : Pipeline) (now : String) (chance : Chance) (path : String)
    (params : HyperParameters) (rows : Nat) (d : Prepared) (o : Output) (files : Files) :
    Output × Files :=
  match d.set.split p.config.testSize p.config.splitSeed with
  | .error e => (o.fail .dataSplitting e.message, files)
  | .ok (training, test) =>
      let points : DataPoints := ⟨rows, training.counts, test.counts, d.window.length⟩
      p.train now chance path params training test d { o with dataPoints := some points } files

/-- All stages of a build that come after the metrics are collected. -/
def buildFrom (p : Pipeline) (now : String) (chance : Chance) (path : String)
    (params : HyperParameters) (table : Table) (o : Output) (files : Files) :
    Except Overflow (Output × Files) :=
  match p.prepareData table with
  | .error overflow => .error overflow
  | .ok (.error message) => .ok (o.fail .dataPreparation message, files)
  | .ok (.ok d) => .ok (p.splitAndTrain now chance path params table.rows.length d
      { o with medians := some d.medians } files)

/-- What a run that comes to an end leaves behind. -/
structure Outcome where
  output : Output
  collector : Collector
  files : Files

/-- Trains, stores and tests a model, and predicts the newer commits with it. The
    commit table is forgotten once it has been handed on. -/
def build (p : Pipeline) (source : Source) (now : String) (chance : Chance) (path : String)
    (params : HyperParameters) (collector : Collector) (files : Files) :
    Except Overflow Outcome :=
  match collector.quantiles source with
  | (.error e, collector) =>
      .ok ⟨(Output.empty.fail .quantileCalculation e.message).finish, collector, files⟩
  | (.ok quantiles, collector) =>
      let o := { Output.empty with quantiles := some quantiles }
      match collector.allCommits source true with
      | (.error e, collector) =>
          .ok ⟨(o.fail .dataPreparation e.message).finish, collector, files⟩
      | (.ok table, collector) =>
          (p.buildFrom now chance path params table o files).map fun (o, files) =>
            ⟨o.finish, collector.forget, files⟩

/-- Predicting with the commits that were asked for. -/
def predictFrom (p : Pipeline) (path : String) (medians : String → Option Float)
    (mediansScore : Float) (table : Table) (files : Files) : Output :=
  match table.commits p.schema with
  | .error e => Output.empty.fail .predicting e.message
  | .ok commits =>
      match loadModel files path with
      | .error e => Output.empty.fail .predicting e.message
      | .ok m =>
          match m.ensureFeatures p.schema.features with
          | .error e => Output.empty.fail .predicting e.message
          | .ok () =>
              match p.attributions m (baselineOfMap p.schema medians) mediansScore commits with
              | .error e => Output.empty.fail .predicting e.message
              | .ok rows => { Output.empty with prediction := some rows, isPredicted := true }

/-- Predicts the commits of a range of jobs with a stored model and the medians
    and their score that were found when it was built. -/
def predict (p : Pipeline) (source : Source) (path : String) (medians : String → Option Float)
    (mediansScore : Float) (collector : Collector) (files : Files) : Outcome :=
  match collector.jobCommits source with
  | (.error e, collector) =>
      ⟨(Output.empty.fail .predicting e.message).finish, collector, files⟩
  | (.ok table, collector) =>
      ⟨(p.predictFrom path medians mediansScore table files).finish, collector, files⟩

end Pipeline

end CommitRisk
