import CommitRisk.Proofs.Exits
import CommitRisk.Proofs.Records
import CommitRisk.Proofs.RowWise
import CommitRisk.Proofs.TakenMedians

/-!
# Predicting What Was Built

A build predicts the commits of its window with the model it has just stored. A
later prediction loads that model and takes the baseline from the medians that
the build reported. The two go different ways to the same engine, and on the
commits of the window they give the same attributions.

Three things have to meet. The stored model scores row by row, because the build
has already scored its test rows with it; so the attribution of a commit does
not depend on the batch it is in. The model that is loaded is the one the build
went on with, because a build continues with what it reads back. And the medians
by name give the row of medians back, because no feature comes twice.

## Theorems

* `exportModel_eq_ok`: What was stored can be loaded and suits the schema.
* `judge_usable`: A model that was reported on is usable.
* `prepareData_eq_ok`: What preparation finds in a table.
* `baselineOfMap_eq`: Values by name make the same baseline as values in order.
* `attributions_eq_map`: Attributions with a stored model, commit by commit.
* `predict_of_attributions`: What a prediction gives that does not fail.
* `select_map`: Selecting results by their commits.
* `predict_repeats_build`: A prediction repeats the build's results.
-/

namespace CommitRisk

theorem PortableModel.ensureFeatures_eq_ok (m : PortableModel) (features : List String)
    (h : m.ensureFeatures features = .ok ()) : m.names = features := by
  unfold PortableModel.ensureFeatures at h
  by_cases hnames : m.names = features
  · exact hnames
  · rw [if_neg hnames] at h
    exact absurd h (by simp only [reduceCtorEq, not_false_eq_true])

theorem columnMedians_names (s : Schema) (rows : List (List Float)) :
    (columnMedians s rows).entries.map Prod.fst = s.features := by
  rw [columnMedians, List.map_map]
  exact List.zipIdx_map_fst 0 s.features

theorem baselineOfMap_eq (s : Schema) (v : NamedValues)
    (hnames : v.entries.map Prod.fst = s.features) (values : String → Option Float)
    (hvalues : ∀ f ∈ s.features, values f = v.get? f) :
    baselineOfMap s values = baselineOf s v.values := by
  have hnodup : (v.entries.map Prod.fst).Nodup := by
    rw [hnames]
    exact s.partition.features_nodup
  -- Looking the names up one by one finds every value at its own name.
  unfold baselineOfMap
  rw [← hnames, List.mapM_map, mapM_eq_ok _ Prod.snd]
  · rfl
  · rintro ⟨name, x⟩ hentry
    have hmem : name ∈ s.features := by
      rw [← hnames]
      exact List.mem_map.mpr ⟨(name, x), hentry, rfl⟩
    rw [Function.comp_apply, hvalues name hmem, NamedValues.get?,
      (lookup_eq_some_iff_mem hnodup).mpr hentry]

theorem baselineOf_width (s : Schema) (values : List Float) (b : NamedValues)
    (h : baselineOf s values = .ok b) : b.entries.length = s.width := by
  unfold baselineOf at h
  by_cases hlength : values.length = s.width
  · rw [if_pos hlength, Except.ok.injEq] at h
    rw [← h, List.length_zip, hlength, Schema.width, Nat.min_self]
  · rw [if_neg hlength] at h
    exact absurd h (by simp only [reduceCtorEq, not_false_eq_true])

namespace Pipeline

/-- A model is stored, read back and checked, and it stays where it was read. -/
theorem exportModel_eq_ok (p : Pipeline) (now path : String) (m stored : PortableModel)
    (files after : Files) (h : p.exportModel now path m files = (.ok stored, after)) :
    loadModel after path = .ok stored ∧ stored.names = p.schema.features := by
  unfold exportModel at h
  cases hsave : saveModel files path now p.archiveLabel m with
  | mk answer left =>
      cases answer with
      | error e => simp only [hsave, Prod.mk.injEq, reduceCtorEq, false_and] at h
      | ok _ =>
          simp only [hsave] at h
          cases hload : loadModel left path with
          | error e => simp only [hload, Prod.mk.injEq, reduceCtorEq, false_and] at h
          | ok loaded =>
              simp only [hload] at h
              cases hsuits : loaded.ensureFeatures p.schema.features with
              | error e => simp only [hsuits, Prod.mk.injEq, reduceCtorEq, false_and] at h
              | ok _ =>
                  simp only [hsuits, Prod.mk.injEq, Except.ok.injEq] at h
                  rw [← h.1, ← h.2]
                  exact ⟨hload, loaded.ensureFeatures_eq_ok _ hsuits⟩

/-- The report asks the model for the scores of the test rows. -/
theorem judge_usable (p : Pipeline) (m : PortableModel) (test : TrainingSet)
    (medians : ModelMedians) (report : ModelReport) (h : p.judge m test medians = .ok report) :
    m.Usable := by
  unfold judge evaluate at h
  cases hpredict : m.model.predict test.samples with
  | error e => simp only [hpredict, reduceCtorEq] at h
  | ok scores => exact m.usable_of_predict test.samples scores hpredict

theorem prepareData_eq_ok (p : Pipeline) (table : Table) (d : Prepared)
    (h : p.prepareData table = .ok (.ok d)) :
    ∃ commits cutoff, table.commits p.schema = .ok commits ∧
      p.config.windowStart commits = .ok (.ok cutoff) ∧
      prepare commits cutoff p.config.maxTrainingRows = .ok d.set ∧
      d.medians = ModelMedians.ofSet p.schema d.set ∧ d.window = predictionSet commits cutoff := by
  unfold prepareData at h
  cases hcommits : table.commits p.schema with
  | error e => simp only [hcommits, Except.ok.injEq, reduceCtorEq] at h
  | ok commits =>
      simp only [hcommits] at h
      cases hstart : p.config.windowStart commits with
      | error overflow => simp only [hstart, reduceCtorEq] at h
      | ok answer =>
          cases answer with
          | error e => simp only [hstart, Except.ok.injEq, reduceCtorEq] at h
          | ok cutoff =>
              simp only [hstart, prepareFrom, Except.ok.injEq] at h
              cases hset : prepare commits cutoff p.config.maxTrainingRows with
              | error e => simp only [hset, reduceCtorEq] at h
              | ok set =>
                  simp only [hset, ModelMedians.compute_eq, Except.ok.injEq] at h
                  rw [← h]
                  exact ⟨commits, cutoff, rfl, hstart, hset, rfl, rfl⟩

/-- The engine of a stored model over a baseline of the right width. -/
def engineOf (p : Pipeline) (m : PortableModel) (b : NamedValues)
    (hwidth : b.entries.length = p.schema.width) (mediansScore : Float) : Engine Float :=
  ⟨m.model, p.schema, b, mediansScore, hwidth⟩

theorem attributions_eq_map (p : Pipeline) (m : PortableModel) (hm : m.Usable)
    (hnames : m.names = p.schema.features) (b : NamedValues)
    (hwidth : b.entries.length = p.schema.width) (mediansScore : Float) (commits : List Commit)
    (hcommits : ∀ c ∈ commits, c.metrics.length = p.schema.width) :
    p.attributions m (.ok b) mediansScore commits
      = .ok (commits.map ((p.engineOf m b hwidth mediansScore).attributionOf m.forest.score)) := by
  -- The names are the features, so the model is as wide as the schema.
  have hscores : m.model.ScoresRows p.schema.width m.forest.score := by
    have h := m.scoresRows hm
    rw [hnames] at h
    exact h
  unfold attributions Engine.ofBaseline
  simp only [bind, Except.bind, dif_pos hwidth]
  exact (p.engineOf m b hwidth mediansScore).attributions_eq_map m.forest.score hscores commits
    hcommits

/-- A prediction whose table is answered, whose model suits the schema and whose
    commits can be attributed gives the attributions. -/
theorem predict_of_attributions (p : Pipeline) (source : Source) (path text : String)
    (medians : String → Option Float) (mediansScore : Float) (collector : Collector)
    (files : Files) (table : Table) (commits : List Commit) (m : PortableModel)
    (rows : List (Attribution Float))
    (hjobs : source collector.requests.length ⟨.commits, collector.jobs⟩ = .ok text)
    (hparse : Table.parse text = .ok table) (hcommits : table.commits p.schema = .ok commits)
    (hload : loadModel files path = .ok m) (hnames : m.names = p.schema.features)
    (hrows : p.attributions m (baselineOfMap p.schema medians) mediansScore commits = .ok rows) :
    (p.predict source path medians mediansScore collector files).output
      = Output.finish { Output.empty with prediction := some rows, isPredicted := true } := by
  have hjob := Collector.fetchTable_of_answer source ⟨.commits, collector.jobs⟩ collector text
    table hjobs hparse
  have hsuits : m.ensureFeatures p.schema.features = .ok () := by
    rw [PortableModel.ensureFeatures, if_pos hnames]
  unfold predict Collector.jobCommits
  generalize collector.fetchTable source ⟨.commits, collector.jobs⟩ = fetched at hjob ⊢
  rcases fetched with ⟨answer, asked⟩
  cases hjob
  simp only [predictFrom, hcommits, hload, hsuits, hrows]

end Pipeline

/-- Working out all results and keeping those of some commits is the same as
    working out the results of those commits. -/
theorem select_map {β : Type} (f : Commit → β) (keep : Commit → Bool) (commits : List Commit) :
    ((commits.zip (commits.map f)).filter fun pair => keep pair.1).map Prod.snd
      = (commits.filter keep).map f := by
  induction commits with
  | nil => rfl
  | cons c rest ih =>
      rw [List.map_cons, List.zip_cons_cons, List.filter_cons, List.filter_cons]
      by_cases h : keep c = true
      · rw [if_pos h, if_pos h, List.map_cons, List.map_cons, ih]
      · rw [if_neg h, if_neg h, ih]

/-- Predicting what was built. A build that ends without an error leaves a model
    file. Whoever predicts with that file, from the same text of commit metrics
    and with the medians and the score that the build reported, gets one result
    for every row of the table in the order of the rows, and those of the rows
    in the window are the results of the build. -/
theorem Pipeline.predict_repeats_build (p : Pipeline) (source source' : Source) (now : String)
    (chance : Chance) (path text : String) (params : HyperParameters)
    (collector collector' : Collector) (files : Files) (medians : String → Option Float)
    (mediansScore : Float) (built : Outcome)
    (hbuilt : p.build source now chance path params collector files = .ok built)
    (hreads : collector.Reads source text)
    (hjobs : source' collector'.requests.length ⟨.commits, collector'.jobs⟩ = .ok text)
    (hok : built.output.error = none)
    (hmedians : ∀ m ∈ built.output.medians, ∀ f ∈ p.schema.features, medians f = m.all.get? f)
    (hscore : ∀ r ∈ built.output.report, mediansScore = r.mediansScore) :
    let predicted := (p.predict source' path medians mediansScore collector' built.files).output
    predicted.error = none ∧ ∃ table commits cutoff results,
      Table.parse text = .ok table ∧ table.commits p.schema = .ok commits ∧
      p.config.windowStart commits = .ok (.ok cutoff) ∧
      predicted.prediction = some results ∧ results.length = table.rows.length ∧
      results.map Attribution.commit = commits.map Commit.id ∧
      built.output.prediction = some
        (((commits.zip results).filter fun pair => decide (cutoff ≤ pair.1.date)).map
          Prod.snd) := by
  rcases build_finished hbuilt hok with
    ⟨q, table, d, training, test, forest, stored, report, rows, left, after, htable, hjudge, hrows,
      rfl⟩
  rcases p.exportModel_eq_ok now path _ stored files after hjudge.exported with ⟨hload, hnames⟩
  have husable := p.judge_usable stored test d.medians report hjudge.judged
  rcases p.prepareData_eq_ok table d hjudge.prepared with
    ⟨commits, cutoff, hcommits, hcutoff, _, hset, hwindow⟩
  have hwidths := table.commits_width p.schema commits hcommits
  -- The medians by name and the medians in order are one baseline.
  have hbase : baselineOfMap p.schema medians = baselineOf p.schema d.medians.all.values := by
    refine baselineOfMap_eq p.schema d.medians.all ?_ medians (hmedians d.medians rfl)
    rw [hset]
    exact columnMedians_names p.schema d.set.samples
  rw [← hscore report rfl] at hrows
  -- The build had a baseline, or it would have ended with an error.
  rcases (bind_eq_ok _ _ _).mp hrows with ⟨b, hb, _⟩
  have hb_width := baselineOf_width p.schema _ b hb
  rw [hb] at hrows hbase
  -- Both runs attribute commit by commit with the same engine.
  have hall := p.attributions_eq_map stored husable hnames b hb_width mediansScore commits hwidths
  have hwin := p.attributions_eq_map stored husable hnames b hb_width mediansScore d.window
    fun c hc => hwidths c (by rw [hwindow] at hc; exact (List.mem_filter.mp hc).1)
  rw [hrows, Except.ok.injEq] at hwin
  -- Both runs read their commits from the same text.
  have hparse := Collector.allCommits_of_reads source collector text table hreads htable
  have hpredicted := p.predict_of_attributions source' path text medians mediansScore collector'
    after table commits stored _ hjobs hparse hcommits hload hnames (hbase ▸ hall)
  intro predicted
  rw [show predicted = _ from hpredicted]
  refine ⟨rfl, table, commits, cutoff, _, hparse, hcommits, hcutoff, rfl, ?_, ?_, ?_⟩
  · rw [List.length_map, table.commits_length p.schema commits hcommits]
  · rw [List.map_map]
    rfl
  · rw [select_map _ (fun c => decide (cutoff ≤ c.date)) commits]
    rw [hwindow] at hwin
    exact congrArg some hwin

/-- The medians that the build reports, by name, and a value that is no feature. -/
def smallMedians (name : String) : Option Float :=
  if name = "note" then some 9.0 else smallBuild.output.medians.bind fun m => m.all.get? name

theorem predict_repeats_small_build :
    smallRun = .ok smallBuild ∧ smallBuild.output.error = none ∧
    smallBuild.output.report.map ModelReport.mediansScore = some 1.0 ∧
    let predicted := (smallPipeline.predict (fun _ _ => .ok smallText) "m.apr" smallMedians 1.0
      (.ofJobs .all []) smallBuild.files).output
    predicted.error = none ∧ ∃ table commits cutoff results,
      Table.parse smallText = .ok table ∧ table.commits smallSchema = .ok commits ∧
      smallPipeline.config.windowStart commits = .ok (.ok cutoff) ∧
      predicted.prediction = some results ∧ results.length = table.rows.length ∧
      results.map Attribution.commit = commits.map Commit.id ∧
      smallBuild.output.prediction = some
        (((commits.zip results).filter fun pair => decide (cutoff ≤ pair.1.date)).map
          Prod.snd) := by
  rcases smallBuild_found with ⟨hok, -, hscore⟩
  refine ⟨smallRun_eq, hok, hscore, ?_⟩
  refine smallPipeline.predict_repeats_build smallSource (fun _ _ => .ok smallText) "1700000000"
    fixedChance "m.apr" smallText ⟨2, some 3, some 7⟩ (.ofJobs .all []) (.ofJobs .all []) .empty
    smallMedians 1.0 smallBuild smallRun_eq rfl rfl hok ?_ ?_
  · intro m hm f hf
    have hfeature : f ≠ "note" := by
      rintro rfl
      exact absurd hf (by decide)
    -- A feature is not called like the extra value, so its median is found.
    rw [smallMedians, if_neg hfeature, Option.mem_def.mp hm, Option.bind_some]
  · intro r hr
    rw [Option.mem_def.mp hr, Option.map_some, Option.some.injEq] at hscore
    exact hscore.symm

end CommitRisk
