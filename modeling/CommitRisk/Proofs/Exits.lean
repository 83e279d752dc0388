import CommitRisk.Pipeline
import CommitRisk.Proofs.Collection

/-!
# How a Run Ends

A build goes through its stages one after the other and can end in any of them.
`BuildEnds` lists the ways: one constructor for every place a build can stop,
with what the stages before it found and with the result and the file tree that
are left. Everything that is said about all builds is a case analysis on it,
so no other proof has to take the stages apart.

The evidence that a constructor carries is cumulative. `Divided`, `Fitted`,
`Exported` and `Judged` each add the outcome of one more stage to the one
before.

## Main definitions

* `Divided`, `Fitted`, `Exported`, `Judged`: The stages up to one succeeded.
* `Output.withQuantiles`: The result a build starts its later stages with.
* `pointsOf`: The counts that are reported once the rows are divided.
* `BuildEnds`: The ways a build ends once it has its commit table.
* `PredictEnds`: The ways a prediction ends once it has its commit table.
* `Filled`, `Output.filled`: Which parts of a result are there.
* `filledByBuild`: The parts a build fills before it ends in a stage.
* `smallBuild`: A build from four commits, to see the statements about builds at work.

## Theorems

* `train_ends`, `buildFrom_ends`: A build ends in one of the listed ways.
* `build_of_quantiles`, `build_of_no_quantiles`: A build after the collection of
  the metrics.
* `build_ends`: The same for whole builds.
* `build_finished`: A build without an error went through all its stages.
* `predictFrom_ends`: Every prediction ends in one of the listed ways.
* `filled_of_buildEnds`, `filled_of_predictEnds`: What each end leaves filled.
* `build_filled`, `predict_filled`: The same for whole runs.
* `runs_fill_finished_stages`: A result has exactly the parts of the stages
  that were finished.
-/

namespace CommitRisk

/-- The result of a build that has its quantiles and nothing else yet. -/
def Output.withQuantiles (q : Quantiles) : Output :=
  { Output.empty with quantiles := some q }

namespace Pipeline

/-- The rows of a table were prepared and divided into two parts. -/
structure Divided (p : Pipeline) (table : Table) (d : Prepared) (training test : TrainingSet) :
    Prop where
  prepared : p.prepareData table = .ok (.ok d)
  split : d.set.split p.config.testSize p.config.splitSeed = .ok (training, test)

/-- After that, a forest was fitted to the first part. -/
structure Fitted (p : Pipeline) (chance : Chance) (params : HyperParameters) (table : Table)
    (d : Prepared) (training test : TrainingSet) (forest : Forest) : Prop
    extends Divided p table d training test where
  fitted : Forest.fit training.samples training.labels params chance = .ok forest

/-- After that, the forest was stored and read back. -/
structure Exported (p : Pipeline) (now : String) (chance : Chance) (path : String)
    (params : HyperParameters) (table : Table) (files : Files) (d : Prepared)
    (training test : TrainingSet) (forest : Forest) (stored : PortableModel) (after : Files) : Prop
    extends Fitted p chance params table d training test forest where
  exported : p.exportModel now path (p.portable now forest training.size) files
    = (.ok stored, after)

/-- After that, what was read back was reported on. -/
structure Judged (p : Pipeline) (now : String) (chance : Chance) (path : String)
    (params : HyperParameters) (table : Table) (files : Files) (d : Prepared)
    (training test : TrainingSet) (forest : Forest) (stored : PortableModel) (after : Files)
    (report : ModelReport) : Prop
    extends Exported p now chance path params table files d training test forest stored after where
  judged : p.judge stored test d.medians = .ok report

/-- The counts that are reported once the rows are divided. -/
def pointsOf (table : Table) (d : Prepared) (training test : TrainingSet) : DataPoints :=
  ⟨table.rows.length, training.counts, test.counts, d.window.length⟩

/-- The ways a build ends once it has its commit table, each with the result and
    the file tree that are left. The result begins as `o`. -/
inductive BuildEnds (p : Pipeline) (now : String) (chance : Chance) (path : String)
    (params : HyperParameters) (table : Table) (o : Output) (files : Files) :
    Output → Files → Prop where
  | unprepared (message : String) (h : p.prepareData table = .ok (.error message)) :
      BuildEnds p now chance path params table o files (o.fail .dataPreparation message) files
  | undivided (d : Prepared) (e : PrepareError) (hprep : p.prepareData table = .ok (.ok d))
      (h : d.set.split p.config.testSize p.config.splitSeed = .error e) :
      BuildEnds p now chance path params table o files
        (Output.fail { o with medians := some d.medians } .dataSplitting e.message) files
  | unfitted (d : Prepared) (training test : TrainingSet) (e : ForestError)
      (hdiv : Divided p table d training test)
      (h : Forest.fit training.samples training.labels params chance = .error e) :
      BuildEnds p now chance path params table o files
        (Output.fail { o with
          medians := some d.medians
          dataPoints := some (pointsOf table d training test) }
          .modelBuilding s!"{e.message} ({e.cause})") files
  | unexported (d : Prepared) (training test : TrainingSet) (forest : Forest) (e : StoreError)
      (after : Files) (hfit : Fitted p chance params table d training test forest)
      (h : p.exportModel now path (p.portable now forest training.size) files
        = (.error e, after)) :
      BuildEnds p now chance path params table o files
        (Output.fail { o with
          medians := some d.medians
          dataPoints := some (pointsOf table d training test)
          isBuilt := true }
          .modelExporting e.message) after
  | unjudged (d : Prepared) (training test : TrainingSet) (forest : Forest)
      (stored : PortableModel) (after : Files) (e : InferenceError)
      (hexp : Exported p now chance path params table files d training test forest stored after)
      (h : p.judge stored test d.medians = .error e) :
      BuildEnds p now chance path params table o files
        (Output.fail { o with
          medians := some d.medians
          dataPoints := some (pointsOf table d training test)
          isBuilt := true }
          .modelExporting e.message) after
  | unpredicted (d : Prepared) (training test : TrainingSet) (forest : Forest)
      (stored : PortableModel) (after : Files) (report : ModelReport) (e : AttributionError)
      (hjudge : Judged p now chance path params table files d training test forest stored after
        report)
      (h : p.attributions stored (baselineOf p.schema d.medians.all.values) report.mediansScore
        d.window = .error e) :
      BuildEnds p now chance path params table o files
        (Output.fail { o with
          medians := some d.medians
          dataPoints := some (pointsOf table d training test)
          isBuilt := true
          report := some report }
          .predicting e.message) after
  | finished (d : Prepared) (training test : TrainingSet) (forest : Forest)
      (stored : PortableModel) (after : Files) (report : ModelReport)
      (rows : List (Attribution Float))
      (hjudge : Judged p now chance path params table files d training test forest stored after
        report)
      (h : p.attributions stored (baselineOf p.schema d.medians.all.values) report.mediansScore
        d.window = .ok rows) :
      BuildEnds p now chance path params table o files
        { o with
          medians := some d.medians
          dataPoints := some (pointsOf table d training test)
          isBuilt := true
          report := some report
          prediction := some rows
          isPredicted := true } after

theorem train_ends {p : Pipeline} (now : String) (chance : Chance) (path : String)
    (params : HyperParameters) {table : Table} {d : Prepared} {training test : TrainingSet}
    (hdiv : Divided p table d training test) (o : Output) (files : Files) :
    let trained := p.train now chance path params training test d { o with
      medians := some d.medians
      dataPoints := some (pointsOf table d training test) } files
    BuildEnds p now chance path params table o files trained.1 trained.2 := by
  simp only [train, TrainingSet.fit_eq]
  cases hfit : Forest.fit training.samples training.labels params chance with
  | error e => exact .unfitted d training test e hdiv hfit
  | ok forest =>
      -- Each stage adds its outcome to the evidence of the stages before.
      have hfitted : Fitted p chance params table d training test forest := ⟨hdiv, hfit⟩
      simp only [exportAndJudge]
      cases hexp : p.exportModel now path (p.portable now forest training.size) files with
      | mk answer after =>
          cases answer with
          | error e => exact .unexported d training test forest e after hfitted hexp
          | ok stored =>
              have hexported : Exported p now chance path params table files d training test
                  forest stored after := ⟨hfitted, hexp⟩
              cases hjudge : p.judge stored test d.medians with
              | error e =>
                  simp only [hjudge]
                  exact .unjudged d training test forest stored after e hexported hjudge
              | ok report =>
                  have hjudged : Judged p now chance path params table files d training test
                      forest stored after report := ⟨hexported, hjudge⟩
                  -- The last stage is the only one that can end well.
                  simp only [hjudge, predictWindow]
                  split
                  · rename_i e h
                    exact .unpredicted d training test forest stored after report e hjudged h
                  · rename_i rows h
                    exact .finished d training test forest stored after report rows hjudged h

/-- A build that is not stopped on the way ends in one of the listed ways. -/
theorem buildFrom_ends {p : Pipeline} {now : String} {chance : Chance} {path : String}
    {params : HyperParameters} {table : Table} {o left : Output} {files after : Files}
    (h : p.buildFrom now chance path params table o files = .ok (left, after)) :
    BuildEnds p now chance path params table o files left after := by
  unfold buildFrom at h
  cases hprep : p.prepareData table with
  | error overflow => simp only [hprep, reduceCtorEq] at h
  | ok answer =>
      cases answer with
      | error message =>
          simp only [hprep, Except.ok.injEq, Prod.mk.injEq] at h
          rcases h with ⟨rfl, rfl⟩
          exact .unprepared message hprep
      | ok d =>
          simp only [hprep, splitAndTrain, Except.ok.injEq] at h
          cases hsplit : d.set.split p.config.testSize p.config.splitSeed with
          | error e =>
              simp only [hsplit, Prod.mk.injEq] at h
              rcases h with ⟨rfl, rfl⟩
              exact .undivided d e hprep hsplit
          | ok parts =>
              obtain ⟨training, test⟩ := parts
              simp only [hsplit] at h
              have hends := train_ends now chance path params ⟨hprep, hsplit⟩ o files
              simp only [pointsOf] at hends
              rw [h] at hends
              exact hends

/-- Once there are quantiles there is a commit table, and the build goes on with
    it. The second look at the table cannot fail, because it is kept. -/
theorem build_of_quantiles (p : Pipeline) (source : Source) (now : String) (chance : Chance)
    (path : String) (params : HyperParameters) (collector after : Collector) (files : Files)
    (q : Quantiles) (h : collector.quantiles source = (.ok q, after)) :
    ∃ table, (collector.allCommits source true).1 = .ok table ∧
      p.build source now chance path params collector files
        = (p.buildFrom now chance path params table (Output.withQuantiles q) files).map
          fun (o, left) => ⟨o.finish, after.forget, left⟩ := by
  -- Quantiles have kept the table, so it is not asked for again.
  rcases Collector.quantiles_table source collector after q h with ⟨table, hall, hkept⟩
  refine ⟨table, hall, ?_⟩
  simp only [build, h, Collector.allCommits_of_cached source true after table hkept]
  rfl

theorem build_of_no_quantiles (p : Pipeline) (source : Source) (now : String) (chance : Chance)
    (path : String) (params : HyperParameters) (collector after : Collector) (files : Files)
    (e : FetchError) (h : collector.quantiles source = (.error e, after)) :
    p.build source now chance path params collector files
      = .ok ⟨(Output.empty.fail .quantileCalculation e.message).finish, after, files⟩ := by
  simp only [build, h]

section Build

variable {p : Pipeline} {source : Source} {now : String} {chance : Chance} {path : String}
  {params : HyperParameters} {collector : Collector} {files : Files} {built : Outcome}

/-- A build ends without quantiles, or with a commit table and in one of the ways that are
    listed for its later stages. Then it has forgotten the table. -/
theorem build_ends (h : p.build source now chance path params collector files = .ok built) :
    (∃ e left, collector.quantiles source = (.error e, left) ∧
      built = ⟨(Output.empty.fail .quantileCalculation e.message).finish, left, files⟩) ∨
      ∃ q table o left after, collector.quantiles source = (.ok q, left) ∧
        (collector.allCommits source true).1 = .ok table ∧
        BuildEnds p now chance path params table (Output.withQuantiles q) files o after ∧
        built = ⟨o.finish, left.forget, after⟩ := by
  cases hq : collector.quantiles source with
  | mk answer left =>
      cases answer with
      | error e =>
          rw [p.build_of_no_quantiles source now chance path params collector left files e hq,
            Except.ok.injEq] at h
          exact .inl ⟨e, left, rfl, h.symm⟩
      | ok q =>
          rcases p.build_of_quantiles source now chance path params collector left files q hq with
            ⟨table, htable, hbuild⟩
          rw [hbuild, map_eq_ok] at h
          rcases h with ⟨⟨o, after⟩, hfrom, rfl⟩
          exact .inr ⟨q, table, o, left, after, rfl, htable, buildFrom_ends hfrom, rfl⟩

/-- A build without an error went through all its stages, and its result holds what
    they found. -/
theorem build_finished (h : p.build source now chance path params collector files = .ok built)
    (hok : built.output.error = none) :
    ∃ (q : Quantiles) (table : Table) (d : Prepared) (training test : TrainingSet)
      (forest : Forest) (stored : PortableModel) (report : ModelReport)
      (rows : List (Attribution Float)) (left : Collector) (after : Files),
      (collector.allCommits source true).1 = .ok table ∧
      Judged p now chance path params table files d training test forest stored after report ∧
      p.attributions stored (baselineOf p.schema d.medians.all.values) report.mediansScore
        d.window = .ok rows ∧
      built = ⟨Output.finish { Output.empty with
        quantiles := some q
        medians := some d.medians
        dataPoints := some (pointsOf table d training test)
        isBuilt := true
        report := some report
        prediction := some rows
        isPredicted := true }, left, after⟩ := by
  rcases build_ends h with
    ⟨e, left, _, rfl⟩ | ⟨q, table, o, left, after, _, htable, hends, rfl⟩
  · cases hok
  · -- Of the ways the later stages end only one leaves no error.
    cases hends with
    | finished d training test forest stored _ report rows hjudge hrows =>
        exact ⟨q, table, d, training, test, forest, stored, report, rows, _, after, htable,
          hjudge, hrows, rfl⟩
    | _ => cases hok

end Build

/-- The ways a prediction ends once it has its commit table. -/
inductive PredictEnds (p : Pipeline) (path : String) (medians : String → Option Float)
    (mediansScore : Float) (table : Table) (files : Files) : Output → Prop where
  | unread (e : TableError) (h : table.commits p.schema = .error e) :
      PredictEnds p path medians mediansScore table files
        (Output.empty.fail .predicting e.message)
  | unloaded (commits : List Commit) (e : StoreError)
      (hread : table.commits p.schema = .ok commits) (h : loadModel files path = .error e) :
      PredictEnds p path medians mediansScore table files
        (Output.empty.fail .predicting e.message)
  | unsuited (commits : List Commit) (m : PortableModel) (e : StoreError)
      (hread : table.commits p.schema = .ok commits) (hload : loadModel files path = .ok m)
      (h : m.ensureFeatures p.schema.features = .error e) :
      PredictEnds p path medians mediansScore table files
        (Output.empty.fail .predicting e.message)
  | unattributed (commits : List Commit) (m : PortableModel) (e : AttributionError)
      (hread : table.commits p.schema = .ok commits) (hload : loadModel files path = .ok m)
      (hsuits : m.ensureFeatures p.schema.features = .ok ())
      (h : p.attributions m (baselineOfMap p.schema medians) mediansScore commits = .error e) :
      PredictEnds p path medians mediansScore table files
        (Output.empty.fail .predicting e.message)
  | finished (commits : List Commit) (m : PortableModel) (rows : List (Attribution Float))
      (hread : table.commits p.schema = .ok commits) (hload : loadModel files path = .ok m)
      (hsuits : m.ensureFeatures p.schema.features = .ok ())
      (h : p.attributions m (baselineOfMap p.schema medians) mediansScore commits = .ok rows) :
      PredictEnds p path medians mediansScore table files
        { Output.empty with prediction := some rows, isPredicted := true }

theorem predictFrom_ends (p : Pipeline) (path : String) (medians : String → Option Float)
    (mediansScore : Float) (table : Table) (files : Files) :
    PredictEnds p path medians mediansScore table files
      (p.predictFrom path medians mediansScore table files) := by
  unfold predictFrom
  cases hread : table.commits p.schema with
  | error e => exact .unread e hread
  | ok commits =>
      cases hload : loadModel files path with
      | error e => exact .unloaded commits e hread hload
      | ok m =>
          cases hsuits : m.ensureFeatures p.schema.features with
          | error e => simp only [hsuits]; exact .unsuited commits m e hread hload hsuits
          | ok _ =>
              simp only [hsuits]
              split
              · rename_i e h
                exact .unattributed commits m e hread hload hsuits h
              · rename_i rows h
                exact .finished commits m rows hread hload hsuits h

end Pipeline

/-- Which parts of a result are there. -/
structure Filled where
  quantiles : Bool
  medians : Bool
  dataPoints : Bool
  isBuilt : Bool
  report : Bool
  prediction : Bool
  isPredicted : Bool
deriving DecidableEq

/-- The parts of a result. -/
def Output.filled (o : Output) : Filled where
  quantiles := o.quantiles.isSome
  medians := o.medians.isSome
  dataPoints := o.dataPoints.isSome
  isBuilt := o.isBuilt
  report := o.report.isSome
  prediction := o.prediction.isSome
  isPredicted := o.isPredicted

/-- The parts that a build has filled when it fails in a stage, or when it does
    not fail: those of the stages before. -/
def filledByBuild : Option Stage → Filled
  | some .quantileCalculation => ⟨false, false, false, false, false, false, false⟩
  | some .dataPreparation => ⟨true, false, false, false, false, false, false⟩
  | some .dataSplitting => ⟨true, true, false, false, false, false, false⟩
  | some .modelBuilding => ⟨true, true, true, false, false, false, false⟩
  | some .modelExporting => ⟨true, true, true, true, false, false, false⟩
  | some .predicting => ⟨true, true, true, true, true, false, false⟩
  | none => ⟨true, true, true, true, true, true, true⟩

/-- The parts that a prediction fills: none of those of a build, and its own only
    if it does not fail. -/
def filledByPrediction (succeeded : Bool) : Filled :=
  ⟨false, false, false, false, false, succeeded, succeeded⟩

/-- The stage a result failed in. -/
def Output.failedIn (o : Output) : Option Stage :=
  o.error.map StageError.stage

theorem filled_finish (o : Output) : o.finish.filled = o.filled := rfl

theorem failedIn_finish (o : Output) : o.finish.failedIn = o.failedIn := rfl

theorem filled_of_buildEnds {p : Pipeline} {now : String} {chance : Chance} {path : String}
    {params : HyperParameters} {table : Table} {files after : Files} {q : Quantiles} {o : Output}
    (h : p.BuildEnds now chance path params table (Output.withQuantiles q) files o after) :
    o.filled = filledByBuild o.failedIn := by
  cases h <;> rfl

theorem filled_of_predictEnds {p : Pipeline} {path : String} {medians : String → Option Float}
    {mediansScore : Float} {table : Table} {files : Files} {o : Output}
    (h : p.PredictEnds path medians mediansScore table files o) :
    o.filled = filledByPrediction o.error.isNone ∧ ∀ stage ∈ o.failedIn, stage = .predicting := by
  cases h with
  | finished commits m rows hread hload hsuits h =>
      refine ⟨rfl, fun stage hstage => ?_⟩
      exact absurd hstage (by simp only [Output.failedIn, Output.empty, Option.map_none,
        Option.mem_def, reduceCtorEq, not_false_eq_true])
  | _ =>
      refine ⟨rfl, fun stage hstage => ?_⟩
      simp only [Output.failedIn, Output.fail, Option.map_some, Option.mem_def,
        Option.some.injEq] at hstage
      exact hstage.symm

/-- The last stage is finished exactly if none failed. -/
theorem filledByBuild_prediction (failed : Option Stage) :
    (filledByBuild failed).prediction = failed.isNone ∧
      (filledByBuild failed).isPredicted = failed.isNone := by
  rcases failed with _ | stage
  · exact ⟨rfl, rfl⟩
  · cases stage <;> exact ⟨rfl, rfl⟩

/-- A result that says it has a prediction has one, and it has one exactly if it
    has no error. -/
theorem prediction_iff {o : Output} (hprediction : o.prediction.isSome = o.error.isNone)
    (hflag : o.isPredicted = o.error.isNone) :
    (o.isPredicted = true ↔ o.prediction.isSome = true) ∧
      (o.prediction.isSome = true ↔ o.error = none) := by
  rw [hprediction, hflag, Option.isNone_iff_eq_none]
  exact ⟨Iff.rfl, Iff.rfl⟩

theorem build_filled {p : Pipeline} {source : Source} {now : String} {chance : Chance}
    {path : String} {params : HyperParameters} {collector : Collector} {files : Files}
    {built : Pipeline.Outcome}
    (h : p.build source now chance path params collector files = .ok built) :
    built.output.filled = filledByBuild built.output.failedIn := by
  rcases Pipeline.build_ends h with
    ⟨e, left, _, rfl⟩ | ⟨q, table, o, left, after, _, _, hends, rfl⟩
  · rfl
  · rw [filled_finish, failedIn_finish]
    exact filled_of_buildEnds hends

theorem predict_filled (p : Pipeline) (source : Source) (path : String)
    (medians : String → Option Float) (mediansScore : Float) (collector : Collector)
    (files : Files) :
    let o := (p.predict source path medians mediansScore collector files).output
    o.filled = filledByPrediction o.error.isNone ∧ ∀ stage ∈ o.failedIn, stage = .predicting := by
  unfold Pipeline.predict
  cases hjobs : collector.jobCommits source with
  | mk answer after =>
      cases answer with
      | error e =>
          refine ⟨rfl, fun stage hstage => ?_⟩
          simp only [Output.failedIn, Output.finish, Output.fail, Option.map_some, Option.mem_def,
            Option.some.injEq] at hstage
          exact hstage.symm
      | ok table =>
          have h := filled_of_predictEnds
            (p.predictFrom_ends path medians mediansScore table files)
          rw [← filled_finish, ← failedIn_finish] at h
          exact h

/-- A result has exactly the parts of the stages that were finished. For a build
    these are the stages before the one that failed. A prediction has nothing of
    what a build fills, and can fail in its own stage only. Either has its
    prediction, and says so, exactly if there is no error. -/
theorem runs_fill_finished_stages (p : Pipeline) (source : Source) (now : String)
    (chance : Chance) (path : String) (params : HyperParameters)
    (medians : String → Option Float) (mediansScore : Float) (collector : Collector)
    (files : Files) :
    let predicted := (p.predict source path medians mediansScore collector files).output
    (∀ built, p.build source now chance path params collector files = .ok built →
      built.output.filled = filledByBuild built.output.failedIn ∧
      (built.output.isPredicted = true ↔ built.output.prediction.isSome = true) ∧
      (built.output.prediction.isSome = true ↔ built.output.error = none)) ∧
    (predicted.quantiles = none ∧ predicted.medians = none ∧ predicted.dataPoints = none ∧
      predicted.report = none ∧ predicted.isBuilt = false ∧
      (∀ e ∈ predicted.error, e.stage = .predicting) ∧
      (predicted.isPredicted = true ↔ predicted.prediction.isSome = true) ∧
      (predicted.prediction.isSome = true ↔ predicted.error = none)) := by
  intro predicted
  constructor
  · intro built hbuilt
    have hfilled := build_filled hbuilt
    have hlast := filledByBuild_prediction built.output.failedIn
    -- What the flags say is read off the parts for each stage.
    have hnone : built.output.failedIn.isNone = built.output.error.isNone := Option.isNone_map
    refine ⟨hfilled, prediction_iff ?_ ?_⟩
    · rw [← hnone, ← hlast.1]
      exact congrArg Filled.prediction hfilled
    · rw [← hnone, ← hlast.2]
      exact congrArg Filled.isPredicted hfilled
  · rcases predict_filled p source path medians mediansScore collector files with
      ⟨hfilled, hstage⟩
    have absent : ∀ {β : Type} {x : Option β}, x.isSome = false → x = none := fun h =>
      Option.isNone_iff_eq_none.mp (Option.isSome_eq_false_iff.mp h)
    refine ⟨absent (congrArg Filled.quantiles hfilled), absent (congrArg Filled.medians hfilled),
      absent (congrArg Filled.dataPoints hfilled), absent (congrArg Filled.report hfilled),
      congrArg Filled.isBuilt hfilled, fun e he => hstage _ (Option.mem_map_of_mem _ he),
      prediction_iff (congrArg Filled.prediction hfilled) (congrArg Filled.isPredicted hfilled)⟩

/-- Two features, each a dimension of its own. -/
def smallSchema : Schema where
  features := ["la", "exp"]
  dimensions := [⟨"size", ["la"]⟩, ⟨"experience", ["exp"]⟩]
  tables := ⟨[("la", 0), ("exp", 1)], [0, 1]⟩
  made := rfl

/-- Half of the rows are held out, and the window is the newest day. -/
def smallPipeline : Pipeline where
  schema := smallSchema
  config := { Config.default with ignoredDays := 0, testSize := 0.5, quantileSteps := [] }

/-- Two commits to train on with two in the window around them, of which one lacks a
    metric. -/
def smallText : String :=
  "commit_id,author_date,buggy,la,exp\na,0,1,1,5\nw,9,,3,\nb,1,0,2,4\nv,9,0,2,4\n"

deriving instance DecidableEq for Commit, Table

def smallTable : Table where
  columns := ["commit_id", "author_date", "buggy", "la", "exp"]
  rows := [["a", "0", "1", "1", "5"], ["w", "9", "", "3", ""], ["b", "1", "0", "2", "4"],
    ["v", "9", "0", "2", "4"]]
  rows_width := by decide

def smallCommits : List Commit := [
  ⟨"a", 0, [some 1.0, some 5.0], some true⟩, ⟨"w", 9, [some 3.0, none], none⟩,
  ⟨"b", 1, [some 2.0, some 4.0], some false⟩, ⟨"v", 9, [some 2.0, some 4.0], some false⟩]

/-- The commits, and tables without rows for the rest. -/
def smallSource : Source := fun _ request =>
  match request.resource with
  | .commits => .ok smallText
  | _ => .ok "path\n"

/-- A draw that is the same every time. -/
def fixedChance : Chance :=
  fun tree => Words.ofSeed (UInt64.ofNat tree)

def smallRun : Except Overflow Pipeline.Outcome :=
  smallPipeline.build smallSource "1700000000" fixedChance "m.apr" ⟨2, some 3, some 7⟩
    (.ofJobs .all []) .empty

def smallBuild : Pipeline.Outcome :=
  smallRun.toOption.get (by decide +kernel)

theorem eq_ok_get {ε β : Type} (x : Except ε β) (h : x.toOption.isSome = true) :
    x = .ok (x.toOption.get h) := by
  cases x with
  | error e => cases h
  | ok y => rfl

theorem smallRun_eq : smallRun = .ok smallBuild :=
  eq_ok_get _ _

set_option maxRecDepth 100000 in
/-- What the build reports: it has one row for training, one for the test and two in the
    window. -/
theorem smallBuild_found : smallBuild.output.error = none ∧
    smallBuild.output.dataPoints = some ⟨4, ⟨1, 0⟩, ⟨0, 1⟩, 2⟩ ∧
    smallBuild.output.report.map ModelReport.mediansScore = some 1.0 := by
  decide +kernel

theorem small_build_fills_all_stages :
    smallRun = .ok smallBuild ∧ smallBuild.output.error = none ∧
    smallBuild.output.filled = filledByBuild none ∧ smallBuild.output.isPredicted = true := by
  rcases (runs_fill_finished_stages smallPipeline smallSource "1700000000" fixedChance "m.apr"
    ⟨2, some 3, some 7⟩ (fun _ => none) 0.0 (.ofJobs .all []) .empty).1 smallBuild smallRun_eq with
    ⟨hfilled, hflag, hprediction⟩
  have hnone := smallBuild_found.1
  rw [Output.failedIn, hnone, Option.map_none] at hfilled
  exact ⟨smallRun_eq, hnone, hfilled, hflag.mpr (hprediction.mpr hnone)⟩

end CommitRisk
