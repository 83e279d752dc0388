import CommitRisk.Proofs.Batches
import CommitRisk.Proofs.KeptTables
import CommitRisk.Proofs.Stages

/-!
# When a Prediction Succeeds

A prediction asks for the commits of its jobs, reads them along the schema, loads a
model, holds it against the schema, takes a baseline from the medians and attributes
the commits. Each of these steps can fail, and what it needs is known by itself. What is
left to say is that nothing else can go wrong.

One of them asks for more than it says. A model is held against the schema by the names
of its columns only, and it is the first batch that finds out a forest of another width.
There always is a first batch, if only one without rows, so no prediction with such a
model succeeds, not even for an empty table.

With a table, a schema, a model and a baseline of one width every row has its result.
A cell that says no number, a label that is not there, a value for a name that is no
feature and a table without rows are none of the reasons to fail, and the score of the
medians is not looked at before the end.

## Main definitions

* `Table.textAt`, `Table.inputOf`: A row by the names of its columns.
* `Pipeline.CanPredict`: What a prediction needs.
* `Pipeline.PredictsRow`: A result is that of a row.

## Theorems

* `map_textAt`: Columns by their names.
* `rows_of_commits`: The commits of a table by the names of its columns.
* `baselineOfMap_isOk_iff`: When there is a baseline.
* `isFitted_of_loadModel`: A model that was loaded is fitted.
* `usable_of_attributions`: A model that was asked about any commits is usable.
* `predict_ends`: The ways a prediction ends.
* `predict_of_canPredict`: A prediction that has what it needs.
* `predict_succeeds_iff`: A prediction succeeds exactly if it has what it needs.
-/

namespace CommitRisk

/-! ## Rows -/

namespace Table

/-- The text of a row under a name, and no text if there is no such column. -/
def textAt (t : Table) (row : List String) (name : String) : String :=
  (t.cellAt? row name).getD ""

/-- What a model is asked about a row. What is missing is not a number. -/
def inputOf (t : Table) (s : Schema) (row : List String) : List Float :=
  s.features.map fun f => (cellNumber? (t.textAt row f)).getD Scalar.nan

theorem textAt_of_requireColumn (t : Table) (row : List String) (name : String) (column : Nat)
    (h : t.requireColumn name = .ok column) : t.textAt row name = row[column]?.getD "" := by
  rw [textAt, cellAt?, t.columnIndex?_of_requireColumn name column h, Option.bind_some]

/-- Columns that were found by their names are read by their names. -/
theorem map_textAt (t : Table) (row : List String) (names : List String) (columns : List Nat)
    (h : names.mapM t.requireColumn = .ok columns) :
    columns.map (fun column => row[column]?.getD "") = names.map (t.textAt row) := by
  have hfound := forall₂_of_mapM _ _ _ h
  clear h
  induction hfound with
  | nil => rfl
  | cons hcolumn _ ih =>
      rw [List.map_cons, List.map_cons, ih, t.textAt_of_requireColumn row _ _ hcolumn]

/-- The commits of a table are its rows, read by the names of the columns. -/
theorem rows_of_commits (t : Table) (s : Schema) (commits : List Commit)
    (h : t.commits s = .ok commits) :
    List.Forall₂ (fun row c => c.id = t.textAt row idColumn ∧ Engine.rowOf c = t.inputOf s row)
      t.rows commits := by
  rcases t.commits_eq_ok s commits h with ⟨id, date, columns, hid, _, hcolumns, hrows⟩
  refine (forall₂_of_mapM _ _ _ hrows).imp fun row c hrow => ?_
  rcases commitOfRow_eq_ok id date _ columns row c hrow with ⟨hname, _, hmetrics, _⟩
  refine ⟨by rw [hname, t.textAt_of_requireColumn row idColumn id hid], ?_⟩
  have hcells := congrArg (List.map fun text => (cellNumber? text).getD Scalar.nan)
    (t.map_textAt row s.features columns hcolumns)
  rw [List.map_map, List.map_map] at hcells
  rw [Engine.rowOf, hmetrics, List.map_map]
  exact hcells

end Table

/-! ## Baseline and model -/

theorem baselineOfMap_width (s : Schema) (values : String → Option Float) (b : NamedValues)
    (h : baselineOfMap s values = .ok b) : b.entries.length = s.width := by
  rcases (bind_eq_ok _ _ _).mp h with ⟨row, _, hrow⟩
  exact baselineOf_width s row b hrow

/-- There is a baseline exactly if there is a value for every feature. -/
theorem baselineOfMap_isOk_iff (s : Schema) (values : String → Option Float) :
    (∃ b, baselineOfMap s values = .ok b) ↔ ∀ f ∈ s.features, (values f).isSome = true := by
  constructor
  · rintro ⟨b, hb⟩ f hf
    rcases (bind_eq_ok _ _ _).mp hb with ⟨row, hrow, _⟩
    rcases (mapM_isOk_iff _ _).mp ⟨row, hrow⟩ f hf with ⟨x, hx⟩
    cases hvalue : values f with
    | none => simp only [hvalue, reduceCtorEq] at hx
    | some x => rfl
  · intro h
    unfold baselineOfMap
    rw [mapM_eq_ok _ fun f => (values f).getD 0.0]
    · -- A value for each feature makes a row as wide as the schema.
      exact ⟨_, if_pos (List.length_map _)⟩
    · intro f hf
      rcases Option.isSome_iff_exists.mp (h f hf) with ⟨x, hx⟩
      simp only [hx, Option.getD_some]

theorem isFitted_of_readArchive (bytes : List UInt8) (m : PortableModel)
    (h : readArchive bytes = .ok m) : m.forest.isFitted = true := by
  unfold readArchive at h
  simp only [] at h
  split at h
  · cases h
  · split at h
    · cases h
    · split at h
      · cases h
      · split at h
        · rename_i found _ _
          by_cases hfit : found.forest.isFitted = true
          · rw [if_pos hfit, Except.ok.injEq] at h
            rw [← h]
            exact hfit
          · rw [if_neg hfit] at h
            cases h
        · cases h

theorem isFitted_of_loadModel (files : Files) (path : String) (m : PortableModel)
    (h : loadModel files path = .ok m) : m.forest.isFitted = true := by
  unfold loadModel at h
  split at h
  · cases hread : files.read path with
    | error e => simp only [hread, reduceCtorEq] at h
    | ok bytes =>
        cases harchive : readArchive bytes with
        | error e => simp only [hread, harchive, reduceCtorEq] at h
        | ok found =>
            simp only [hread, harchive, Except.ok.injEq] at h
            rw [← h]
            exact isFitted_of_readArchive bytes found harchive
  · cases h

/-- Whatever the commits, an engine that has results for them has asked its model. -/
theorem Engine.predicts_of_attributions {α : Type} [Scalar α] (e : Engine α)
    (commits : List Commit) (results : List (Attribution α))
    (h : e.attributions commits = .ok results) :
    ∃ rows scores, e.model.predict rows = .ok scores := by
  rcases (bind_eq_ok _ _ _).mp h with ⟨batches, hbatches, h⟩
  rcases (bind_eq_ok _ _ _).mp h with ⟨answers, hanswers, _⟩
  rcases (bind_eq_ok _ _ _).mp hbatches with ⟨rows, _, hmade⟩
  cases hmade
  -- The first batch is that of the commits as they are.
  rcases (mapM_isOk_iff e.ask _).mp ⟨answers, hanswers⟩ rows List.mem_cons_self with ⟨scores, hask⟩
  exact ⟨rows, scores, (e.ask_eq_ok rows scores hask).1⟩

namespace Pipeline

theorem usable_of_attributions (p : Pipeline) (m : PortableModel)
    (baseline : Except AttributionError NamedValues) (mediansScore : Float)
    (commits : List Commit) (results : List (Attribution Float))
    (h : p.attributions m baseline mediansScore commits = .ok results) :
    m.Usable ∧ ∃ b, baseline = .ok b := by
  rcases (bind_eq_ok _ _ _).mp h with ⟨b, hb, h⟩
  rcases (bind_eq_ok _ _ _).mp h with ⟨e, he, h⟩
  rcases e.predicts_of_attributions commits results h with ⟨rows, scores, hscores⟩
  rw [(Engine.ofBaseline_eq_ok m.model p.schema b mediansScore e he).1] at hscores
  exact ⟨m.usable_of_predict rows scores hscores, b, hb⟩

/-! ## The whole prediction -/

/-- What a prediction needs: a table of the commits of its jobs that can be read along the
    schema, a fitted model of its features and no others, and a value for each of them. -/
structure CanPredict (p : Pipeline) (source : Source) (path : String)
    (medians : String → Option Float) (collector : Collector) (files : Files) (table : Table)
    (m : PortableModel) : Prop where
  answered : source.Answers collector.requests.length ⟨.commits, collector.jobs⟩ table
  readable : table.Readable p.schema
  loaded : loadModel files path = .ok m
  fitted : m.forest.isFitted = true
  names : m.names = p.schema.features
  width : m.forest.width = m.names.length
  baseline : ∀ f ∈ p.schema.features, (medians f).isSome = true

/-- A result is that of a row: it has its id, the score that the model gives to its cells
    and a contribution for every dimension. -/
structure PredictsRow (p : Pipeline) (table : Table) (m : PortableModel) (row : List String)
    (result : Attribution Float) : Prop where
  commit : result.commit = table.textAt row idColumn
  score : result.score = finiteOrZero (m.forest.score (table.inputOf p.schema row))
  dimensions : result.contributions.map Prod.fst = p.schema.dimensionNames

/-- A prediction ends without its commit table, or in one of the ways that are listed for
    predicting the commits of a table. -/
theorem predict_ends (p : Pipeline) (source : Source) (path : String)
    (medians : String → Option Float) (mediansScore : Float) (collector : Collector)
    (files : Files) :
    (∃ message, (p.predict source path medians mediansScore collector files).output
        = (Output.empty.fail .predicting message).finish) ∨
      ∃ table o, source.Answers collector.requests.length ⟨.commits, collector.jobs⟩ table ∧
        PredictEnds p path medians mediansScore table files o ∧
        (p.predict source path medians mediansScore collector files).output = o.finish := by
  simp only [predict, Collector.jobCommits, Collector.fetchTable_eq]
  cases hanswer : source.table collector.requests.length ⟨.commits, collector.jobs⟩ with
  | error e => exact .inl ⟨e.message, rfl⟩
  | ok table =>
      exact .inr ⟨table, _, (source.table_eq_ok_iff _ _ table).mp hanswer,
        p.predictFrom_ends path medians mediansScore table files, rfl⟩

/-- A prediction that has what it needs gives one result for each row. -/
theorem predict_of_canPredict (p : Pipeline) (source : Source) (path : String)
    (medians : String → Option Float) (mediansScore : Float) (collector : Collector)
    (files : Files) (table : Table) (m : PortableModel)
    (h : p.CanPredict source path medians collector files table m) :
    ∃ results, (p.predict source path medians mediansScore collector files).output
        = Output.finish { Output.empty with prediction := some results, isPredicted := true } ∧
      List.Forall₂ (p.PredictsRow table m) table.rows results := by
  rcases h.answered with ⟨text, hanswer, hparse⟩
  rcases (table.commits_isOk_iff p.schema).mpr h.readable with ⟨commits, hcommits⟩
  rcases (baselineOfMap_isOk_iff p.schema medians).mpr h.baseline with ⟨b, hb⟩
  -- Names, forest, commits and baseline all have the width of the schema.
  have hwidth := baselineOfMap_width p.schema medians b hb
  have hresults := p.attributions_eq_map m ⟨h.width, h.fitted⟩ h.names b hwidth mediansScore
    commits (table.commits_width p.schema commits hcommits)
  rw [← hb] at hresults
  refine ⟨_, p.predict_of_attributions source path text medians mediansScore collector files table
    commits m _ hanswer hparse hcommits h.loaded h.names hresults, ?_⟩
  rw [List.forall₂_map_right_iff]
  refine (table.rows_of_commits p.schema commits hcommits).imp fun row c hrow => ?_
  refine ⟨hrow.1, ?_, (p.engineOf m b hwidth mediansScore).attributionOf_dimensions _ c⟩
  rw [← hrow.2]
  rfl

/-- A prediction succeeds exactly if it has what it needs: the commits of its jobs are
    answered with a table that has the columns and the dates, the file holds a fitted model
    whose names are the features in order and whose forest is as wide as there are names,
    and there is a median for every feature. It then has one result for each row in the
    order of the rows, and otherwise it has no prediction. What the score of the medians is
    does not matter, and neither do gaps, labels, medians of other names or the number of
    the rows. -/
theorem predict_succeeds_iff (p : Pipeline) (source : Source) (path : String)
    (medians : String → Option Float) (mediansScore : Float) (collector : Collector)
    (files : Files) :
    let o := (p.predict source path medians mediansScore collector files).output
    (o.error = none ↔ ∃ table m, p.CanPredict source path medians collector files table m) ∧
    (∀ table m, p.CanPredict source path medians collector files table m →
      ∃ results, o.prediction = some results ∧
        List.Forall₂ (p.PredictsRow table m) table.rows results) ∧
    (o.error ≠ none → o.prediction = none) := by
  intro o
  refine ⟨⟨fun hok => ?_, ?_⟩, fun table m h => ?_, fun hfailed => ?_⟩
  · rcases p.predict_ends source path medians mediansScore collector files with
      ⟨message, houtput⟩ | ⟨table, ended, hanswers, hends, houtput⟩
    · rw [show o = _ from houtput] at hok
      cases hok
    · rw [show o = _ from houtput] at hok
      -- Of the ways to end only one leaves no error, and it has been through every step.
      cases hends with
      | finished commits m rows hread hload hsuits hrows =>
          rcases p.usable_of_attributions m _ mediansScore commits rows hrows with
            ⟨husable, hbaseline⟩
          exact ⟨table, m, hanswers, (table.commits_isOk_iff p.schema).mp ⟨commits, hread⟩, hload,
            isFitted_of_loadModel files path m hload, m.ensureFeatures_eq_ok _ hsuits, husable.1,
            (baselineOfMap_isOk_iff p.schema medians).mp hbaseline⟩
      | _ => cases hok
  · rintro ⟨table, m, h⟩
    rcases p.predict_of_canPredict source path medians mediansScore collector files table m h with
      ⟨results, houtput, _⟩
    rw [show o = _ from houtput]
    rfl
  · rcases p.predict_of_canPredict source path medians mediansScore collector files table m h with
      ⟨results, houtput, hrows⟩
    exact ⟨results, congrArg Output.prediction houtput, hrows⟩
  · have hfilled := (predict_filled p source path medians mediansScore collector files).1
    have hnone : o.error.isNone = false := by
      rwa [Option.isNone_eq_false_iff, Option.isSome_iff_ne_none]
    have hprediction : o.prediction.isSome = o.error.isNone := congrArg Filled.prediction hfilled
    rw [hnone, Option.isSome_eq_false_iff, Option.isNone_iff_eq_none] at hprediction
    exact hprediction

end Pipeline

end CommitRisk
