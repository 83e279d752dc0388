import CommitRisk.Proofs.Stages

/-!
# When a Build Fails

A build whose settings are in range fails for reasons that can be told in advance, and
for no others. `FailsIn` lists them stage by stage, each with the conditions under
which the stages before it succeed: the tables cannot be had, there is nothing in them
to train on, the rows cannot be divided, the parameters allow for no forest, or the
model cannot be saved or loaded again. Predicting the window is never the stage that
fails.

That nothing else goes wrong is a matter of widths and of counts. Preparation hands on
rows, medians and commits that all have the width of the schema, `WellShaped`, and as
many labels as rows. Dividing, growing and judging keep it so, and the model that is
loaded is the one that was stored. Thus every later check of a width, of a count of
labels or of scores, and of the names of features is passed.

## Main definitions

* `Pipeline.CutoffFits`: The cutoff does not overflow.
* `Pipeline.usable`: The commits that can be trained on.
* `Pipeline.Prepares`, `Pipeline.Unpreparable`: Preparation finds so many rows, or none.
* `Prepared.WellShaped`: What preparation finds has one width.
* `Pipeline.Divides`: Some rows are held out, and not all.
* `Pipeline.FailsIn`: The reasons to fail in a stage, and not to fail.
* `Pipeline.Ready`: What a build can take for granted.

## Theorems

* `prepareData_of_prepares`, `prepareData_of_unpreparable`: What preparation finds.
* `failedIn_of_failsIn`: A build fails for the reasons that are listed.
* `exists_failsIn`: There is always one of them, or none to fail.
* `build_failedIn_iff`: When a build fails, and in which stage.
-/

namespace CommitRisk

namespace Pipeline

/-- Neither the length of the window in seconds overflows nor its start, so many days before
    the newest commit of a table. -/
def CutoffFits (p : Pipeline) (table : Table) : Prop :=
  ∀ commits, table.commits p.schema = .ok commits →
    FitsInt64 (p.config.ignoredDays.toInt * 86400) ∧ ∀ newest, IsNewest commits newest →
      FitsInt64 (newest.toInt - p.config.ignoredDays.toInt * 86400)

/-- The complete commits that are dated before the window. -/
def usable (p : Pipeline) (commits : List Commit) (newest : Int64) : List Commit :=
  commits.filter fun c =>
    c.isComplete && decide (c.date.toInt < newest.toInt - p.config.ignoredDays.toInt * 86400)

/-- Preparation finds so many rows in a table: one for every commit that can be trained
    on, or as many as a model is trained on at most. -/
def Prepares (p : Pipeline) (table : Table) (rows : Nat) : Prop :=
  ∃ commits newest, table.commits p.schema = .ok commits ∧ IsNewest commits newest ∧
    p.usable commits newest ≠ [] ∧
    rows = min p.config.maxTrainingRows (p.usable commits newest).length

/-- Preparation finds nothing in a table: it lacks a column or a valid date, or none of its
    commits can be trained on. -/
def Unpreparable (p : Pipeline) (table : Table) : Prop :=
  ¬ table.Readable p.schema ∨ ∃ commits, table.commits p.schema = .ok commits ∧
    ∀ newest, IsNewest commits newest → p.usable commits newest = []

theorem unpreparable_or_prepares (p : Pipeline) (table : Table) :
    p.Unpreparable table ∨ ∃ rows, p.Prepares table rows := by
  by_cases hreadable : table.Readable p.schema
  · rcases (table.commits_isOk_iff p.schema).mpr hreadable with ⟨commits, hcommits⟩
    by_cases hnone : ∀ newest, IsNewest commits newest → p.usable commits newest = []
    · exact .inl (.inr ⟨commits, hcommits, hnone⟩)
    · -- A newest date that leaves something to train on gives the number of rows.
      rw [not_forall] at hnone
      rcases hnone with ⟨newest, hnone⟩
      rw [Classical.not_imp] at hnone
      exact .inr ⟨_, commits, newest, hcommits, hnone.1, hnone.2, rfl⟩
  · exact .inl (.inl hreadable)

theorem trainable_eq_usable (p : Pipeline) (commits : List Commit) (newest cutoff : Int64)
    (hcutoff : cutoff.toInt = newest.toInt - p.config.ignoredDays.toInt * 86400) :
    trainable commits cutoff = p.usable commits newest := by
  refine List.filter_congr fun c _ => ?_
  rw [← hcutoff, decide_eq_decide.mpr Int64.lt_iff_toInt_lt]

end Pipeline

/-- What preparation finds in a table: so many rows with their labels, and rows, medians
    and commits of one width. -/
structure Prepared.WellShaped (d : Prepared) (width rows : Nat) : Prop where
  rows : d.set.size = rows
  labels : d.set.labels.length = d.set.samples.length
  samples : ∀ row ∈ d.set.samples, row.length = width
  medians : d.medians.all.values.length = width
  window : ∀ c ∈ d.window, c.metrics.length = width

/-- Settings that are accepted have no fault. -/
theorem Config.fault?_of_validate (c c' : Config) (h : c.validate = .ok c') :
    c.fault? = none := by
  unfold validate at h
  split at h
  · cases h
  · assumption

/-- Settings that are in range have some rows to train on and a window that does not lie
    in the future, and their steps are shares. -/
theorem Config.inRange_of_fault? (c : Config) (h : c.fault? = none) :
    c.maxTrainingRows ≠ 0 ∧ 0 ≤ c.ignoredDays ∧ ∀ q ∈ c.quantileSteps, isShare q = true := by
  unfold Config.fault? at h
  split at h
  · cases h
  · rename_i hrows
    split at h
    · cases h
    · rename_i hdays
      split at h
      · cases h
      · -- Only the steps are left to be looked at; the threshold comes behind them.
        cases hstep : c.quantileSteps.find? fun q => !isShare q with
        | some q => simp only [hstep, reduceCtorEq] at h
        | none =>
            refine ⟨hrows, Int64.not_lt.mp hdays, fun q hq => ?_⟩
            simpa only [Bool.not_eq_true, Bool.not_eq_false'] using
              List.find?_eq_none.mp hstep q hq

namespace Pipeline

variable (p : Pipeline) (table : Table)

theorem prepareData_of_unpreparable (hcutoff : p.CutoffFits table) (h : p.Unpreparable table) :
    ∃ message, p.prepareData table = .ok (.error message) := by
  unfold prepareData
  cases hcommits : table.commits p.schema with
  | error e => exact ⟨e.message, rfl⟩
  | ok commits =>
      rcases hcutoff commits hcommits with ⟨hseconds, hstart⟩
      rcases h with hunreadable | ⟨found, hfound, hnone⟩
      · exact absurd ((table.commits_isOk_iff p.schema).mp ⟨commits, hcommits⟩) hunreadable
      · rw [hcommits, Except.ok.injEq] at hfound
        subst hfound
        cases commits with
        | nil =>
            -- Without commits there is no window to begin with.
            rcases fitsInt64_iff.mp hseconds with ⟨seconds, hexact⟩
            have hcounted := (p.config.ignoredSeconds_eq_ok_iff seconds).mpr hexact
            simp only [Config.windowStart, hcounted, predictionCutoff]
            exact ⟨_, rfl⟩
        | cons c rest =>
            have hnewest := latest_isNewest c rest
            rcases p.config.exists_windowStart _ _ hnewest hseconds (hstart _ hnewest) with
              ⟨cutoff, hwindow, hexact⟩
            have hempty := p.trainable_eq_usable (c :: rest) _ cutoff hexact
            rw [hnone _ hnewest] at hempty
            simp only [hwindow, prepareFrom, prepare_of_not_trainable _ _ _ hempty]
            exact ⟨_, rfl⟩

theorem prepareData_of_prepares (rows : Nat) (hlimit : p.config.maxTrainingRows ≠ 0)
    (hcutoff : p.CutoffFits table) (h : p.Prepares table rows) :
    ∃ d, p.prepareData table = .ok (.ok d) ∧ d.WellShaped p.schema.width rows := by
  rcases h with ⟨commits, newest, hcommits, hnewest, hsome, rfl⟩
  rcases hcutoff commits hcommits with ⟨hseconds, hstart⟩
  rcases p.config.exists_windowStart commits newest hnewest hseconds (hstart newest hnewest) with
    ⟨cutoff, hwindow, hexact⟩
  have husable := p.trainable_eq_usable commits newest cutoff hexact
  have hwidth := table.commits_width p.schema commits hcommits
  rw [← husable] at hsome ⊢
  rcases prepare_of_trainable commits _ _ hlimit hsome with ⟨set, hset, hrows, hlabels⟩
  have hprepare : p.prepareData table = .ok (.ok ⟨set, ModelMedians.ofSet p.schema set,
      predictionSet commits cutoff⟩) := by
    simp only [prepareData, hcommits, hwindow, prepareFrom, hset, ModelMedians.compute_eq]
  refine ⟨_, hprepare, hrows, hlabels, ?_, ?_, ?_⟩
  · exact prepare_width commits _ _ p.schema.width set hset hwidth
  · -- There is a median for every feature.
    have hnames := congrArg List.length (columnMedians_names p.schema set.samples)
    rw [List.length_map] at hnames
    rw [NamedValues.values, List.length_map]
    exact hnames
  · exact fun c hc => hwidth c (List.mem_filter.mp hc).1

/-! ## The reasons -/

/-- Some rows are held out for the test, and not all of them. -/
def Divides (p : Pipeline) (rows : Nat) : Prop :=
  heldOut p.config.testSize rows ≠ 0 ∧ heldOut p.config.testSize rows < rows

/-- The reasons for a build to fail in a stage, and not to fail at all. Each carries the
    conditions under which the stages before succeed. -/
inductive FailsIn (p : Pipeline) (source : Source) (now : String) (chance : Chance) (path : String)
    (params : HyperParameters) (collector : Collector) (files : Files) : Option Stage → Prop where
  /-- One of the tables cannot be had. -/
  | unread (h : ∀ table, ¬ collector.Collects source table) :
      FailsIn p source now chance path params collector files (some .quantileCalculation)
  /-- There is nothing to train on. -/
  | unprepared {table : Table} (hread : collector.Collects source table)
      (h : p.Unpreparable table) :
      FailsIn p source now chance path params collector files (some .dataPreparation)
  /-- No rows would be held out, or all of them. -/
  | undivided {table : Table} {rows : Nat} (hread : collector.Collects source table)
      (hprep : p.Prepares table rows) (h : ¬ p.Divides rows) :
      FailsIn p source now chance path params collector files (some .dataSplitting)
  /-- The forest would have no trees, or its trees no questions. -/
  | ungrown {table : Table} {rows : Nat} (hread : collector.Collects source table)
      (hprep : p.Prepares table rows) (hdivides : p.Divides rows)
      (h : params.estimators = 0 ∨ params.maxDepth = some 0) :
      FailsIn p source now chance path params collector files (some .modelBuilding)
  /-- The model that was built cannot be saved, or not be loaded again. -/
  | unstored {table : Table} {rows : Nat} {d : Prepared} {training test : TrainingSet}
      {forest : Forest} (hread : collector.Collects source table)
      (hprep : p.Prepares table rows) (hdivides : p.Divides rows)
      (hgrows : params.estimators ≠ 0 ∧ params.maxDepth ≠ some 0)
      (hfit : p.Fitted chance params table d training test forest)
      (h : ¬ p.Stores now path (p.portable now forest training.size) files) :
      FailsIn p source now chance path params collector files (some .modelExporting)
  /-- Nothing is in the way. -/
  | finished {table : Table} {rows : Nat} {d : Prepared} {training test : TrainingSet}
      {forest : Forest} (hread : collector.Collects source table)
      (hprep : p.Prepares table rows) (hdivides : p.Divides rows)
      (hgrows : params.estimators ≠ 0 ∧ params.maxDepth ≠ some 0)
      (hfit : p.Fitted chance params table d training test forest)
      (h : p.Stores now path (p.portable now forest training.size) files) :
      FailsIn p source now chance path params collector files none

/-- The settings are in range, the collector keeps no table and uses the steps that are
    set, and the cutoff does not overflow. -/
structure Ready (p : Pipeline) (source : Source) (collector : Collector) : Prop where
  limit : p.config.maxTrainingRows ≠ 0
  empty : collector.cached = none
  steps : ∀ q ∈ collector.steps, isShare q = true
  cutoff : ∀ table, collector.Collects source table → p.CutoffFits table

variable {source : Source} {now : String} {chance : Chance} {path : String}
  {params : HyperParameters} {collector : Collector} {files : Files} {table : Table} {rows : Nat}
  {d : Prepared} {training test : TrainingSet} {forest : Forest}

theorem Ready.prepared {p : Pipeline} (hready : p.Ready source collector)
    (hread : collector.Collects source table) (hprep : p.Prepares table rows) :
    ∃ d, p.prepareData table = .ok (.ok d) ∧ d.WellShaped p.schema.width rows :=
  p.prepareData_of_prepares table rows hready.limit (hready.cutoff table hread) hprep

/-- Where a build ends that has its tables is a matter of the later stages. -/
theorem build_of_collects (p : Pipeline) (now : String) (chance : Chance) (path : String)
    (params : HyperParameters) (files : Files) (hready : p.Ready source collector)
    (h : collector.Collects source table) :
    ∃ (q : Quantiles) (after : Collector), p.build source now chance path params collector files
      = (p.buildFrom now chance path params table (Output.withQuantiles q) files).map
        fun (o, left) => ⟨o.finish, after, left⟩ := by
  rcases collector.quantiles_of_collects source table hready.empty hready.steps h with
    ⟨q, after, hq⟩
  exact p.build_with_quantiles source now chance path params collector files table
    (by rw [collector.allCommits_of_answers source table hready.empty h.commits])
    ⟨q, by rw [hq]⟩

theorem failedIn_of_not_collects (p : Pipeline) (hready : p.Ready source collector)
    (h : ∀ table, ¬ collector.Collects source table) :
    ∃ built, p.build source now chance path params collector files = .ok built ∧
      built.output.failedIn = some .quantileCalculation := by
  cases hq : collector.quantiles source with
  | mk answer after =>
      cases answer with
      | error e =>
          rw [p.build_of_no_quantiles source now chance path params collector after files e hq]
          exact ⟨_, rfl, rfl⟩
      | ok q =>
          rcases collector.collects_of_quantiles source after q hready.empty hready.steps hq with
            ⟨table, htable⟩
          exact absurd htable (h table)

/-- The two parts of what was prepared: rows of the width of the schema, of which there
    are some to train on, each with a label. -/
theorem parts_of_wellShaped (p : Pipeline) (hshape : d.WellShaped p.schema.width rows)
    (hdivides : p.Divides rows) :
    ∃ training test, d.set.split p.config.testSize p.config.splitSeed = .ok (training, test) ∧
      training.samples ≠ [] ∧ training.labels.length = training.samples.length ∧
      ∀ row ∈ training.samples, row.length = p.schema.width := by
  rw [← hshape.rows] at hdivides
  rcases split_of_heldOut d.set p.config.testSize p.config.splitSeed hdivides.1 hdivides.2 with
    ⟨training, test, hsplit, hsome, hlabels⟩
  have hmem := (mem_of_split d.set training test _ _ hsplit).1
  exact ⟨training, test, hsplit, hsome, hlabels, fun row hrow => hshape.samples row (hmem row hrow)⟩

/-- A forest grows on the rows that are trained on exactly if its parameters let it. -/
theorem exists_fitted_iff (p : Pipeline) (hprep : p.prepareData table = .ok (.ok d))
    (hshape : d.WellShaped p.schema.width rows) (hdivides : p.Divides rows) :
    (∃ training test forest, p.Fitted chance params table d training test forest) ↔
      params.estimators ≠ 0 ∧ params.maxDepth ≠ some 0 := by
  rcases p.parts_of_wellShaped hshape hdivides with
    ⟨training, test, hsplit, hsome, hlabels, hwidth⟩
  rw [← fit_isOk_iff training.samples training.labels params chance p.schema.width hsome hlabels
    hwidth]
  constructor
  · rintro ⟨training', test', forest, hfit⟩
    have hparts := hfit.split
    rw [hsplit, Except.ok.injEq, Prod.mk.injEq] at hparts
    rw [hparts.1]
    exact ⟨forest, hfit.fitted⟩
  · rintro ⟨forest, hforest⟩
    exact ⟨training, test, forest, ⟨hprep, hsplit⟩, hforest⟩

/-- A build whose forest was fitted goes on to store it. -/
theorem buildFrom_of_fitted (p : Pipeline) (now path : String) (files : Files)
    (hfit : p.Fitted chance params table d training test forest) (o : Output) :
    ∃ o', o'.error = o.error ∧ p.buildFrom now chance path params table o files
      = .ok (p.exportAndJudge now path (p.portable now forest training.size) test d o' files) := by
  simp only [buildFrom, hfit.prepared, splitAndTrain, hfit.split, Pipeline.train,
    TrainingSet.fit_eq, hfit.fitted]
  refine ⟨_, ?_, rfl⟩
  rfl

/-- A model that is stored is judged, and the window is predicted with it. -/
theorem failedIn_of_stores (p : Pipeline) (hnow : now.utf8ByteSize ≤ 2 ^ 30)
    (hshape : d.WellShaped p.schema.width rows)
    (hfit : p.Fitted chance params table d training test forest) (o : Output) (ho : o.error = none)
    (hsize : ∀ bytes,
      (p.exportAndJudge now path (p.portable now forest training.size) test d o files).2.read path
        = .ok bytes → bytes.length < 2 ^ 64)
    (h : p.Stores now path (p.portable now forest training.size) files) :
    (p.exportAndJudge now path (p.portable now forest training.size) test d o
      files).1.failedIn = none := by
  -- Both parts and the forest have the width of what was prepared.
  rcases mem_of_split d.set training test _ _ hfit.split with ⟨htraining, htest⟩
  have hwidth := fit_width training.samples training.labels params chance p.schema.width forest
    hfit.fitted fun row hrow => hshape.samples row (htraining row hrow)
  rw [exportAndJudge_files] at hsize
  rcases p.exportModel_of_stores now path forest training.size files hnow hwidth hsize h with
    ⟨after, hexport, husable⟩
  rcases p.judge_of_usable _ test d.medians husable rfl
    (fun row hrow => hshape.samples row (htest row hrow)) hshape.medians with ⟨report, hjudge⟩
  rcases p.attributions_of_usable _ d.medians.all.values report.mediansScore d.window husable rfl
    hshape.medians hshape.window with ⟨results, hresults⟩
  simp only [exportAndJudge, hexport, hjudge, predictWindow, hresults, Output.failedIn, ho,
    Option.map_none]

/-- A build fails for the reasons that are listed. -/
theorem failedIn_of_failsIn (p : Pipeline) (hready : p.Ready source collector)
    (hnow : now.utf8ByteSize ≤ 2 ^ 30)
    (hsize : ∀ built, p.build source now chance path params collector files = .ok built →
      ∀ bytes, built.files.read path = .ok bytes → bytes.length < 2 ^ 64)
    {stage : Option Stage} (h : p.FailsIn source now chance path params collector files stage) :
    ∃ built, p.build source now chance path params collector files = .ok built ∧
      built.output.failedIn = stage := by
  cases h with
  | unread h => exact p.failedIn_of_not_collects hready h
  | unprepared hread h =>
      rcases p.build_of_collects now chance path params files hready hread with ⟨q, after, hbuild⟩
      rcases p.prepareData_of_unpreparable _ (hready.cutoff _ hread) h with ⟨message, hmessage⟩
      simp only [hbuild, buildFrom, hmessage]
      exact ⟨_, rfl, rfl⟩
  | undivided hread hprep h =>
      rcases p.build_of_collects now chance path params files hready hread with ⟨q, after, hbuild⟩
      rcases hready.prepared hread hprep with ⟨d, hd, hshape⟩
      -- The share is taken of the rows that were prepared.
      have hnot : heldOut p.config.testSize d.set.size = 0 ∨
          d.set.size ≤ heldOut p.config.testSize d.set.size := by
        rw [hshape.rows]
        unfold Divides at h
        omega
      simp only [hbuild, buildFrom, hd, splitAndTrain, split_of_not_heldOut d.set _ _ hnot]
      exact ⟨_, rfl, rfl⟩
  | ungrown hread hprep hdivides h =>
      rcases p.build_of_collects now chance path params files hready hread with ⟨q, after, hbuild⟩
      rcases hready.prepared hread hprep with ⟨d, hd, hshape⟩
      rcases p.parts_of_wellShaped hshape hdivides with ⟨training, test, hsplit, _⟩
      simp only [hbuild, buildFrom, hd, splitAndTrain, hsplit, Pipeline.train, TrainingSet.fit_eq]
      cases hforest : Forest.fit training.samples training.labels params chance with
      | error e => exact ⟨_, rfl, rfl⟩
      | ok forest =>
          have hgrows := (p.exists_fitted_iff hd hshape hdivides).mp
            ⟨training, test, forest, ⟨hd, hsplit⟩, hforest⟩
          rcases h with htrees | hdepth
          · exact absurd htrees hgrows.1
          · exact absurd hdepth hgrows.2
  | unstored hread _ _ _ hfit h =>
      rcases p.build_of_collects now chance path params files hready hread with ⟨q, after, hbuild⟩
      rcases p.buildFrom_of_fitted now path files hfit (Output.withQuantiles q) with ⟨o, _, hfrom⟩
      rcases p.exportModel_of_not_stores _ _ _ _ h with ⟨e, left, hexport⟩
      simp only [hbuild, hfrom, exportAndJudge, hexport]
      exact ⟨_, rfl, rfl⟩
  | finished hread hprep _ _ hfit h =>
      rcases p.build_of_collects now chance path params files hready hread with ⟨q, after, hbuild⟩
      rcases hready.prepared hread hprep with ⟨found, hfound, hshape⟩
      -- What the forest was fitted to is what preparation found.
      have hsame := hfit.prepared
      rw [hfound, Except.ok.injEq, Except.ok.injEq] at hsame
      rcases p.buildFrom_of_fitted now path files hfit (Output.withQuantiles q) with ⟨o, ho, hfrom⟩
      rw [hbuild, hfrom] at hsize ⊢
      exact ⟨_, rfl, p.failedIn_of_stores hnow (hsame ▸ hshape) hfit o ho (hsize _ rfl) h⟩

/-- There is always a reason for a build to end where it ends. -/
theorem exists_failsIn (p : Pipeline) (hready : p.Ready source collector) :
    ∃ stage, p.FailsIn source now chance path params collector files stage := by
  by_cases hread : ∃ table, collector.Collects source table
  · rcases hread with ⟨table, hread⟩
    rcases p.unpreparable_or_prepares table with hnone | ⟨rows, hprep⟩
    · exact ⟨_, .unprepared hread hnone⟩
    · by_cases hdivides : p.Divides rows
      · by_cases hgrows : params.estimators ≠ 0 ∧ params.maxDepth ≠ some 0
        · rcases hready.prepared hread hprep with ⟨d, hd, hshape⟩
          rcases (p.exists_fitted_iff hd hshape hdivides).mpr hgrows with
            ⟨training, test, forest, hfit⟩
          by_cases hstores : p.Stores now path (p.portable now forest training.size) files
          · exact ⟨_, .finished hread hprep hdivides hgrows hfit hstores⟩
          · exact ⟨_, .unstored hread hprep hdivides hgrows hfit hstores⟩
        · refine ⟨_, .ungrown hread hprep hdivides ?_⟩
          rwa [not_and_or, not_not, not_not] at hgrows
      · exact ⟨_, .undivided hread hprep hdivides⟩
  · exact ⟨_, .unread (not_exists.mp hread)⟩

end Pipeline

/-- When a build fails. With settings that are in range and a collector that keeps no
    table yet and uses the steps that are set, a build comes to an end, and it fails in a
    stage exactly for the reasons that are listed for it: collecting, preparing, dividing,
    growing and storing each have their own, and they count in that order. Predicting the
    window never fails. The cutoff must not overflow, and a file has fewer than 2 ^ 64
    bytes. -/
theorem Pipeline.build_failedIn_iff (p : Pipeline) (source : Source) (seconds : UInt64)
    (chance : Chance) (path : String) (params : HyperParameters) (collector : Collector)
    (files : Files) (hconfig : p.config.validate = .ok p.config)
    (hempty : collector.cached = none) (hsteps : collector.steps = p.config.quantileSteps)
    (hcutoff : ∀ table, (collector.allCommits source true).1 = .ok table → p.CutoffFits table)
    (hsize : ∀ built,
      p.build source (toString seconds.toNat) chance path params collector files = .ok built →
        ∀ bytes, built.files.read path = .ok bytes → bytes.length < 2 ^ 64) :
    ∃ built,
      p.build source (toString seconds.toNat) chance path params collector files = .ok built ∧
      (∀ stage, built.output.failedIn = stage ↔
        p.FailsIn source (toString seconds.toNat) chance path params collector files stage) ∧
      built.output.failedIn ≠ some .predicting := by
  rcases p.config.inRange_of_fault? (p.config.fault?_of_validate _ hconfig) with
    ⟨hlimit, _, hshares⟩
  have hready : p.Ready source collector := by
    refine ⟨hlimit, hempty, by rw [hsteps]; exact hshares, fun table hread => ?_⟩
    refine hcutoff table ?_
    rw [collector.allCommits_of_answers source table hempty hread.commits]
  have hnow : (toString seconds.toNat).utf8ByteSize ≤ 2 ^ 30 :=
    Nat.le_trans (utf8ByteSize_toString_le seconds.toNat seconds.toNat_lt) (by decide)
  -- Some reason there is, and the build ends where it says.
  rcases p.exists_failsIn hready with ⟨found, hfound⟩
  rcases p.failedIn_of_failsIn hready hnow hsize hfound with ⟨built, hbuilt, rfl⟩
  have hends : ∀ stage, built.output.failedIn = stage ↔
      p.FailsIn source (toString seconds.toNat) chance path params collector files stage := by
    refine fun stage => ⟨fun h => h ▸ hfound, fun h => ?_⟩
    rcases p.failedIn_of_failsIn hready hnow hsize h with ⟨built', hbuilt', rfl⟩
    rw [hbuilt, Except.ok.injEq] at hbuilt'
    rw [hbuilt']
  refine ⟨built, hbuilt, hends, fun hlast => ?_⟩
  -- No reason is listed for the last stage.
  cases (hends _).mp hlast

set_option maxRecDepth 100000 in
theorem small_build_failedIn_iff :
    smallPipeline.config.validate = .ok smallPipeline.config ∧
    smallPipeline.build smallSource (toString (1700000000 : UInt64).toNat) fixedChance "m.apr"
      ⟨2, some 3, some 7⟩ (.ofJobs .all []) .empty = .ok smallBuild ∧
    smallBuild.output.failedIn = none ∧
    smallPipeline.FailsIn smallSource (toString (1700000000 : UInt64).toNat) fixedChance "m.apr"
      ⟨2, some 3, some 7⟩ (.ofJobs .all []) .empty none := by
  have hfault : smallPipeline.config.fault? = none := by decide +kernel
  have hconfig : smallPipeline.config.validate = .ok smallPipeline.config := by
    rw [Config.validate, hfault]
  have hnone : smallBuild.output.failedIn = none := by
    rw [Output.failedIn, smallBuild_found.1, Option.map_none]
  have hall : ((Collector.ofJobs .all []).allCommits smallSource true).1 = .ok smallTable := by
    decide +kernel
  have hcommits : smallTable.commits smallSchema = .ok smallCommits := by decide +kernel
  have hcutoff : smallPipeline.CutoffFits smallTable := by
    intro commits hfound
    rw [show smallTable.commits smallPipeline.schema = _ from hcommits, Except.ok.injEq] at hfound
    subst hfound
    refine ⟨by decide, fun newest hnewest => ?_⟩
    rw [isNewest_unique smallCommits newest 9 hnewest (by decide +kernel)]
    decide
  have hsize : (smallBuild.files.read "m.apr").toOption.all
      (fun bytes => decide (bytes.length < 2 ^ 64)) = true := by decide +kernel
  rcases smallPipeline.build_failedIn_iff smallSource 1700000000 fixedChance "m.apr"
    ⟨2, some 3, some 7⟩ (.ofJobs .all []) .empty hconfig rfl rfl
    (fun table htable => by
      rw [hall, Except.ok.injEq] at htable
      exact htable ▸ hcutoff)
    (fun built hbuilt bytes hbytes => by
      rw [smallRun_at, Except.ok.injEq] at hbuilt
      rw [← hbuilt] at hbytes
      rw [hbytes] at hsize
      exact of_decide_eq_true hsize) with
    ⟨built, hbuilt, hends, _⟩
  rw [smallRun_at, Except.ok.injEq] at hbuilt
  subst hbuilt
  exact ⟨hconfig, smallRun_at, hnone, (hends none).mp hnone⟩

end CommitRisk
