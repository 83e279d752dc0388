import CommitRisk.Proofs.CutLayouts
import CommitRisk.Proofs.Leakage

/-!
# What Every Stage Needs

A stage of a build has its own reasons to fail, and the stages before it see to it
that there are no others. Each of them is looked at by itself here, with what it is
handed by those before.

The quantiles need the three tables, and steps that are shares. Preparation needs the
columns, dates that can be read and one complete commit before the cutoff; it hands
on rows that are as wide as the schema and as many labels. Dividing the rows needs a
share of them that is neither nothing nor all. Growing a forest needs a tree and, if
there is a largest depth, one question. A model that is stored and loaded is the one
that was stored. Judging it and predicting with it need nothing more, because names,
forest, test rows and baseline all have the width of the schema.

## Main definitions

* `Collector.Collects`: The three tables can be had.
* `Table.cellAt?`: The cell of a row under a name.
* `Table.Readable`: A table has the columns and the dates to be read.
* `Pipeline.Stores`: A model can be saved, and what was saved can be loaded.

## Theorems

* `quantiles_of_collects`, `collects_of_quantiles`: When there are quantiles.
* `commits_isOk_iff`: When the commits of a table can be read.
* `ignoredSeconds_eq_ok_iff`, `ignoredSeconds_eq_error_iff`: The length of the window as an
  integer.
* `windowStart_eq_ok_iff`, `exists_windowStart`: The cutoff as an integer.
* `prepare_of_trainable`: What preparation finds.
* `split_of_heldOut`: The two parts of a set.
* `HyperParameters.fault?_eq_none_iff`: When nothing is wrong with parameters.
* `fit_isOk_iff`: When a forest can be grown.
* `readArchive_of_saveModel`: What is loaded is the archive that was saved.
* `loadModel_of_saveModel`: What is loaded is what was stored.
* `judge_of_usable`, `attributions_of_usable`: The last stages.
-/

namespace CommitRisk

/-! ## Quantiles -/

theorem quantile_isOk_iff (values : List Float) (q : Float) :
    (∃ x, quantile values q = .ok x) ↔ values ≠ [] ∧ isShare q = true := by
  unfold quantile
  cases hvalues : values.isEmpty with
  | true =>
      rw [List.isEmpty_iff] at hvalues
      simp only [hvalues, if_true, reduceCtorEq, exists_false, ne_eq, not_true_eq_false, false_and]
  | false =>
      rw [List.isEmpty_eq_false_iff] at hvalues
      cases isShare q <;> simp [hvalues]

theorem columnQuantiles_of_shares (steps : List Float) (column : String) (values : List Float)
    (hvalues : values ≠ []) (hsteps : ∀ q ∈ steps, isShare q = true) :
    ∃ xs, columnQuantiles steps column values = .ok xs := by
  refine (mapM_isOk_iff _ steps).mpr fun q hq => ?_
  rcases (quantile_isOk_iff values q).mpr ⟨hvalues, hsteps q hq⟩ with ⟨x, hx⟩
  exact ⟨x, by rw [hx]⟩

/-- A column without any number is left out, so quantiles at shares can always be
    worked out. -/
theorem quantileTable_of_shares (steps : List Float) (excluded : List String) (t : Table)
    (hsteps : ∀ q ∈ steps, isShare q = true) : ∃ q, quantileTable steps excluded t = .ok q := by
  unfold quantileTable
  refine bind_isOk _ _ ((mapM_isOk_iff _ _).mpr ?_) fun columns => ⟨_, rfl⟩
  rintro ⟨name, values⟩ hcolumn
  have hvalues : values ≠ [] := by
    have hkept := (List.mem_filter.mp hcolumn).2
    rwa [Bool.not_eq_true', List.isEmpty_eq_false_iff] at hkept
  rcases columnQuantiles_of_shares steps name values hvalues hsteps with ⟨xs, hxs⟩
  simp only [hxs]
  exact ⟨_, rfl⟩

namespace Collector

/-- The three tables can be had, the first of which is the commit table: the requests
    that a collector makes for them, one after the other, are answered. -/
structure Collects (source : Source) (c : Collector) (table : Table) : Prop where
  commits : source.Answers c.requests.length ⟨.commits, c.jobs.upToLast⟩ table
  files : ∃ files, source.Answers (c.requests.length + 1) ⟨.files, .all⟩ files
  developers : ∃ developers, source.Answers (c.requests.length + 2) ⟨.developers, .all⟩ developers

variable (source : Source) (c : Collector)

/-- The collector once it has asked for the commit table and keeps it. -/
def afterCommits (commits : Table) : Collector :=
  { c with cached := some commits, requests := ⟨.commits, c.jobs.upToLast⟩ :: c.requests }

/-- The collector once it has asked for the table by file too. -/
def afterFiles (commits : Table) : Collector :=
  { c.afterCommits commits with requests := ⟨.files, .all⟩ :: (c.afterCommits commits).requests }

theorem allCommits_of_answers (commits : Table) (hempty : c.cached = none)
    (h : source.Answers c.requests.length ⟨.commits, c.jobs.upToLast⟩ commits) :
    c.allCommits source true = (.ok commits, c.afterCommits commits) := by
  simp only [allCommits, hempty, fetchTable_eq_ok source _ c commits h, if_true]
  rfl

theorem fileMetrics_of_answers (commits files : Table)
    (h : source.Answers (c.requests.length + 1) ⟨.files, .all⟩ files) :
    (c.afterCommits commits).fileMetrics source = (.ok files, c.afterFiles commits) :=
  fetchTable_eq_ok source _ (c.afterCommits commits) files h

theorem quantiles_of_collects (table : Table) (hempty : c.cached = none)
    (hsteps : ∀ q ∈ c.steps, isShare q = true) (h : c.Collects source table) :
    ∃ q after, c.quantiles source = (.ok q, after) := by
  rcases h with ⟨hcommits, ⟨files, hfiles⟩, developers, hdevelopers⟩
  have hlast := fetchTable_eq_ok source _ (c.afterFiles table) developers hdevelopers
  rcases quantileTable_of_shares c.steps recordColumns table hsteps with ⟨qc, hqc⟩
  rcases quantileTable_of_shares c.steps [] files hsteps with ⟨qf, hqf⟩
  rcases quantileTable_of_shares c.steps [] developers hsteps with ⟨qd, hqd⟩
  have hsteps₁ : (c.afterCommits table).steps = c.steps := rfl
  have hsteps₂ : (c.afterFiles table).steps = c.steps := rfl
  unfold quantiles
  simp only [c.allCommits_of_answers source table hempty hcommits, hsteps₁, hqc,
    c.fileMetrics_of_answers source table files hfiles, hsteps₂, hqf, developerMetrics, hlast, hqd]
  exact ⟨_, _, rfl⟩

/-- Quantiles that succeed have had all three tables, because each request is made only
    if the one before it was answered. -/
theorem collects_of_quantiles (after : Collector) (q : Quantiles) (hempty : c.cached = none)
    (hsteps : ∀ q ∈ c.steps, isShare q = true) (h : c.quantiles source = (.ok q, after)) :
    ∃ table, c.Collects source table := by
  unfold quantiles at h
  have hcommits : ∃ table,
      source.Answers c.requests.length ⟨.commits, c.jobs.upToLast⟩ table := by
    by_contra hnone
    rcases fetchTable_eq_error source _ c hnone with ⟨e, he⟩
    simp only [allCommits, hempty, he, Prod.mk.injEq, reduceCtorEq, false_and] at h
  rcases hcommits with ⟨table, hcommits⟩
  rcases quantileTable_of_shares c.steps recordColumns table hsteps with ⟨qc, hqc⟩
  have hsteps₁ : (c.afterCommits table).steps = c.steps := rfl
  simp only [c.allCommits_of_answers source table hempty hcommits, hsteps₁, hqc] at h
  have hfiles : ∃ files, source.Answers (c.requests.length + 1) ⟨.files, .all⟩ files := by
    by_contra hnone
    rcases fetchTable_eq_error source _ (c.afterCommits table) hnone with ⟨e, he⟩
    simp only [fileMetrics, he, Prod.mk.injEq, reduceCtorEq, false_and] at h
  rcases hfiles with ⟨files, hfiles⟩
  rcases quantileTable_of_shares c.steps [] files hsteps with ⟨qf, hqf⟩
  have hsteps₂ : (c.afterFiles table).steps = c.steps := rfl
  simp only [c.fileMetrics_of_answers source table files hfiles, hsteps₂, hqf] at h
  have hdevelopers : ∃ developers,
      source.Answers (c.requests.length + 2) ⟨.developers, .all⟩ developers := by
    by_contra hnone
    rcases fetchTable_eq_error source _ (c.afterFiles table) hnone with ⟨e, he⟩
    simp only [developerMetrics, he, Prod.mk.injEq, reduceCtorEq, false_and] at h
  exact ⟨table, hcommits, ⟨files, hfiles⟩, hdevelopers⟩

end Collector

/-! ## Preparation -/

namespace Table

/-- The cell of a row under the first column with a name. -/
def cellAt? (t : Table) (row : List String) (name : String) : Option String :=
  (t.columnIndex? name).bind fun column => row[column]?

/-- A table can be read along a schema: it has the columns, and every row has a date. -/
structure Readable (t : Table) (s : Schema) : Prop where
  id : idColumn ∈ t.columns
  date : dateColumn ∈ t.columns
  features : ∀ f ∈ s.features, f ∈ t.columns
  dates : ∀ row ∈ t.rows, ∃ day, (t.cellAt? row dateColumn).bind cellDate? = some day

theorem requireColumn_isOk_iff (t : Table) (name : String) :
    (∃ column, t.requireColumn name = .ok column) ↔ name ∈ t.columns := by
  rw [← List.isSome_idxOf?, requireColumn, columnIndex?]
  cases t.columns.idxOf? name with
  | none => simp only [reduceCtorEq, exists_false, Option.isSome_none, Bool.false_eq_true]
  | some column => exact ⟨fun _ => rfl, fun _ => ⟨column, rfl⟩⟩

theorem commitOfRow_isOk_iff (id date : Nat) (label : Option Nat) (features : List Nat)
    (row : List String) :
    (∃ c, commitOfRow id date label features row = .ok c) ↔
      ∃ day, cellDate? (row[date]?.getD "") = some day := by
  unfold commitOfRow
  simp only []
  cases cellDate? (row[date]?.getD "") with
  | none => simp only [reduceCtorEq, exists_false]
  | some day => exact ⟨fun _ => ⟨day, rfl⟩, fun _ => ⟨_, rfl⟩⟩

/-- Every row is as wide as the header, so it has a cell in the column of dates. -/
theorem cellAt?_of_requireColumn (t : Table) (row : List String) (hrow : row ∈ t.rows)
    (name : String) (column : Nat) (h : t.requireColumn name = .ok column) :
    t.cellAt? row name = some (row[column]?.getD "") := by
  have hindex := t.columnIndex?_of_requireColumn name column h
  rcases List.idxOf?_eq_some_iff.mp hindex with ⟨hlt, _⟩
  rw [← t.rows_width row hrow] at hlt
  rw [cellAt?, hindex, Option.bind_some, List.getElem?_eq_getElem hlt, Option.getD_some]

/-- The commits of a table can be read exactly if it has the columns and the dates. -/
theorem commits_isOk_iff (t : Table) (s : Schema) :
    (∃ commits, t.commits s = .ok commits) ↔ t.Readable s := by
  constructor
  · rintro ⟨commits, hcommits⟩
    rcases t.commits_eq_ok s commits hcommits with
      ⟨id, date, features, hid, hdate, hfeatures, hrows⟩
    refine ⟨(t.requireColumn_isOk_iff _).mp ⟨id, hid⟩,
      (t.requireColumn_isOk_iff _).mp ⟨date, hdate⟩, fun f hf => ?_, fun row hrow => ?_⟩
    · exact (t.requireColumn_isOk_iff f).mp ((mapM_isOk_iff _ _).mp ⟨features, hfeatures⟩ f hf)
    · rw [t.cellAt?_of_requireColumn row hrow dateColumn date hdate, Option.bind_some]
      exact (commitOfRow_isOk_iff _ _ _ _ row).mp ((mapM_isOk_iff _ _).mp ⟨commits, hrows⟩ row hrow)
  · intro h
    rcases (t.requireColumn_isOk_iff _).mpr h.id with ⟨id, hid⟩
    rcases (t.requireColumn_isOk_iff _).mpr h.date with ⟨date, hdate⟩
    rcases (mapM_isOk_iff t.requireColumn s.features).mpr fun f hf =>
      (t.requireColumn_isOk_iff f).mpr (h.features f hf) with ⟨features, hfeatures⟩
    have hrows : ∀ row ∈ t.rows,
        ∃ c, commitOfRow id date (t.columnIndex? labelColumn) features row = .ok c := by
      intro row hrow
      have hday := h.dates row hrow
      rw [t.cellAt?_of_requireColumn row hrow dateColumn date hdate, Option.bind_some] at hday
      exact (commitOfRow_isOk_iff _ _ _ _ row).mpr hday
    rcases (mapM_isOk_iff _ t.rows).mpr hrows with ⟨commits, hcommits⟩
    refine ⟨commits, ?_⟩
    unfold Table.commits
    rw [hid, hdate, hfeatures]
    exact hcommits

end Table

/-! ## The window -/

/-- The window can be counted in seconds if their number has room. -/
theorem Config.ignoredSeconds_eq_ok_iff (c : Config) (seconds : Int64) :
    c.ignoredSeconds = .ok seconds ↔ seconds.toInt = c.ignoredDays.toInt * 86400 := by
  have hday : (86400 : Int64).toInt = 86400 := by decide
  rw [ignoredSeconds, checkedMul, checked_eq_ok_iff, hday]

theorem Config.ignoredSeconds_eq_error_iff (c : Config) (overflow : Overflow) :
    c.ignoredSeconds = .error overflow ↔
      overflow = .multiply ∧ ¬ FitsInt64 (c.ignoredDays.toInt * 86400) := by
  have hday : (86400 : Int64).toInt = 86400 := by decide
  rw [ignoredSeconds, checkedMul, checked_eq_error_iff, hday]

/-- Where the window begins is so many days before the newest date, as integers. -/
theorem Config.windowStart_eq_ok_iff (c : Config) (commits : List Commit) (newest cutoff : Int64)
    (h : IsNewest commits newest) :
    c.windowStart commits = .ok (.ok cutoff) ↔ FitsInt64 (c.ignoredDays.toInt * 86400) ∧
      cutoff.toInt = newest.toInt - c.ignoredDays.toInt * 86400 := by
  unfold windowStart
  cases hseconds : c.ignoredSeconds with
  | error overflow =>
      have hfits := ((c.ignoredSeconds_eq_error_iff overflow).mp hseconds).2
      simp only [reduceCtorEq, hfits, false_and]
  | ok seconds =>
      have hexact := (c.ignoredSeconds_eq_ok_iff seconds).mp hseconds
      simp only [predictionCutoff_of_isNewest commits newest seconds h, map_eq_ok,
        Except.ok.injEq, exists_eq_right]
      rw [checkedSub, checked_eq_ok_iff, hexact, and_iff_right (hexact ▸ fitsInt64_toInt seconds)]

/-- There is a cutoff where product and difference have room. -/
theorem Config.exists_windowStart (c : Config) (commits : List Commit) (newest : Int64)
    (h : IsNewest commits newest) (hseconds : FitsInt64 (c.ignoredDays.toInt * 86400))
    (hcutoff : FitsInt64 (newest.toInt - c.ignoredDays.toInt * 86400)) :
    ∃ cutoff, c.windowStart commits = .ok (.ok cutoff) ∧
      cutoff.toInt = newest.toInt - c.ignoredDays.toInt * 86400 := by
  rcases fitsInt64_iff.mp hcutoff with ⟨cutoff, hexact⟩
  exact ⟨cutoff, (c.windowStart_eq_ok_iff commits newest cutoff h).mpr ⟨hseconds, hexact⟩, hexact⟩

/-! ## Preparation -/

theorem mapM_some_of_all (cells : List (Option Float)) (h : ∀ cell ∈ cells, cell.isSome = true) :
    ∃ row, (cells.mapM fun cell => cell) = some row := by
  induction cells with
  | nil => exact ⟨[], rfl⟩
  | cons cell rest ih =>
      rcases Option.isSome_iff_exists.mp (h cell List.mem_cons_self) with ⟨x, rfl⟩
      rcases ih fun c hc => h c (List.mem_cons_of_mem _ hc) with ⟨row, hrow⟩
      exact ⟨x :: row, by rw [List.mapM_cons, hrow]; rfl⟩

/-- A complete commit has a row and a label. -/
theorem Commit.row?_of_isComplete (c : Commit) (h : c.isComplete = true) :
    c.row?.isSome = true := by
  rw [Commit.isComplete, Bool.and_eq_true, List.all_eq_true] at h
  rcases Option.isSome_iff_exists.mp h.1 with ⟨label, hlabel⟩
  have hcells : ∀ cell ∈ c.metrics, cell.isSome = true := by
    intro cell hcell
    have hnumber := h.2 cell hcell
    cases cell with
    | none => exact hnumber
    | some x => rfl
  rcases mapM_some_of_all c.metrics hcells with ⟨row, hrow⟩
  have hfeatures : c.features? = some row := hrow
  simp only [Commit.row?, hfeatures, hlabel, Option.isSome_some]

theorem length_newest (limit : Nat) (commits : List Commit) :
    (newest limit commits).length = min limit commits.length := by
  unfold newest
  split
  · rw [List.length_take, List.length_mergeSort]
  · omega

/-- Preparation finds a row and a label for each of the newest commits it keeps. -/
theorem prepare_of_trainable (commits : List Commit) (cutoff : Int64) (limit : Nat)
    (hlimit : limit ≠ 0) (h : trainable commits cutoff ≠ []) :
    ∃ set, prepare commits cutoff limit = .ok set ∧
      set.samples.length = min limit (trainable commits cutoff).length ∧
      set.labels.length = set.samples.length := by
  have hlength := length_newest limit (trainable commits cutoff)
  have hpos := List.length_pos_iff.mpr h
  have hkept : (newest limit (trainable commits cutoff)).isEmpty = false := by
    rw [List.isEmpty_eq_false_iff, ← List.length_pos_iff]
    omega
  -- Every commit that is kept is complete, so none of them is left out.
  have hrows : ((newest limit (trainable commits cutoff)).filterMap Commit.row?).length
      = (newest limit (trainable commits cutoff)).length := by
    rw [List.length_filterMap_eq_countP, List.countP_eq_length]
    intro c hc
    exact c.row?_of_isComplete (of_mem_newest_trainable commits cutoff limit c hc).2.1
  unfold prepare
  simp only [hkept, Bool.false_eq_true, if_false]
  refine ⟨_, rfl, ?_, ?_⟩
  · rw [List.length_map, hrows, hlength]
  · rw [List.length_map, List.length_map]

theorem prepare_of_not_trainable (commits : List Commit) (cutoff : Int64) (limit : Nat)
    (h : trainable commits cutoff = []) :
    prepare commits cutoff limit = .error (.emptyTrainingSet cutoff) := by
  have hnone : newest limit [] = [] := by
    rw [← List.length_eq_zero_iff, length_newest, List.length_nil, Nat.min_zero]
  unfold prepare
  simp only [h, hnone, List.isEmpty_nil, if_true]

/-! ## The two parts -/

theorem shuffle_length (n : Nat) (seed : UInt64) : (shuffle n seed).length = n := by
  rw [(shuffle_perm n seed).length_eq, List.length_range]

/-- A share that is neither nothing nor all divides a set into two parts. -/
theorem split_of_heldOut (set : TrainingSet) (testSize : Float) (seed : UInt64)
    (hsome : heldOut testSize set.size ≠ 0) (hrest : heldOut testSize set.size < set.size) :
    ∃ training test, set.split testSize seed = .ok (training, test) ∧
      training.samples ≠ [] ∧ training.labels.length = training.samples.length := by
  have hboth : ¬ (set.size - heldOut testSize set.size = 0 ∨ heldOut testSize set.size = 0) := by
    omega
  unfold TrainingSet.split
  simp only [hboth, if_false]
  refine ⟨_, _, rfl, ?_, ?_⟩
  · rw [TrainingSet.select, ← List.length_pos_iff, List.length_map, List.length_drop,
      shuffle_length]
    omega
  · rw [TrainingSet.select, List.length_map, List.length_map]

theorem split_of_not_heldOut (set : TrainingSet) (testSize : Float) (seed : UInt64)
    (h : heldOut testSize set.size = 0 ∨ set.size ≤ heldOut testSize set.size) :
    set.split testSize seed = .error (.emptyTrainSplit set.size testSize) := by
  unfold TrainingSet.split
  simp only []
  rw [if_pos (by omega)]

/-! ## The forest -/

theorem firstInconsistent?_eq_none_iff (width row : Nat) (rows : List (List Float)) :
    firstInconsistent? width row rows = none ↔ ∀ cells ∈ rows, cells.length = width := by
  induction rows generalizing row with
  | nil => exact ⟨fun _ cells hcells => absurd hcells List.not_mem_nil, fun _ => rfl⟩
  | cons cells rest ih =>
      rw [List.forall_mem_cons]
      by_cases hcells : cells.length = width
      · rw [firstInconsistent?, if_pos hcells, ih, and_iff_right hcells]
      · rw [firstInconsistent?, if_neg hcells]
        exact ⟨fun h => absurd h (Option.some_ne_none _), fun h => absurd h.1 hcells⟩

theorem HyperParameters.fault?_eq_none_iff (params : HyperParameters) :
    params.fault? = none ↔ params.estimators ≠ 0 ∧ params.maxDepth ≠ some 0 := by
  unfold fault?
  by_cases htrees : params.estimators = 0
  · simp only [htrees, if_true, reduceCtorEq, ne_eq, not_true_eq_false, false_and]
  · by_cases hdepth : params.maxDepth = some 0
    · simp only [htrees, hdepth, if_true, if_false, reduceCtorEq, ne_eq, not_true_eq_false,
        and_false]
    · simp only [htrees, hdepth, if_false, ne_eq, not_false_eq_true, and_self]

/-- On labelled rows of one width a forest can be grown exactly if its parameters allow
    for a tree with a question. -/
theorem fit_isOk_iff (samples : List (List Float)) (labels : List Bool) (params : HyperParameters)
    (chance : Chance) (width : Nat) (hsome : samples ≠ [])
    (hlabels : labels.length = samples.length) (hwidth : ∀ row ∈ samples, row.length = width) :
    (∃ forest, Forest.fit samples labels params chance = .ok forest) ↔
      params.estimators ≠ 0 ∧ params.maxDepth ≠ some 0 := by
  rw [← params.fault?_eq_none_iff]
  unfold Forest.fit
  cases params.fault? with
  | some fault => simp only [reduceCtorEq, exists_false]
  | none =>
      refine ⟨fun _ => rfl, fun _ => ?_⟩
      cases samples with
      | nil => exact absurd rfl hsome
      | cons first rest =>
          -- The first row has the width of all.
          have hnone : firstInconsistent? first.length 0 (first :: rest) = none :=
            (firstInconsistent?_eq_none_iff _ 0 _).mpr fun cells hcells => by
              rw [hwidth cells hcells, hwidth first List.mem_cons_self]
          simp only [hlabels, ne_eq, not_true_eq_false, if_false, hnone]
          exact ⟨_, rfl⟩

/-! ## The stored model -/

/-- What a model that was saved has left. -/
theorem saveModel_eq_ok (files left : Files) (path createdAt : String) (label : ArchiveLabel)
    (m : PortableModel) (h : saveModel files path createdAt label m = (.ok (), left)) :
    m.fits = true ∧ ∃ made place, Files.target made path = .ok place ∧
      left = made.put place (.file (writeArchive createdAt label m)) := by
  unfold saveModel at h
  cases hmade : makeParent files path with
  | mk answer made =>
      cases answer with
      | error e => simp only [hmade, Prod.mk.injEq, reduceCtorEq, false_and] at h
      | ok _ =>
          by_cases hfits : m.fits = true
          · simp only [hmade, hfits, if_true, Files.write_eq] at h
            cases htarget : made.target path with
            | error e =>
                simp only [htarget, Except.map, Prod.mk.injEq, reduceCtorEq, false_and] at h
            | ok place =>
                simp only [htarget, Except.map, Prod.mk.injEq, true_and] at h
                exact ⟨hfits, made, place, htarget, h.symm⟩
          · simp only [hmade, hfits, Bool.false_eq_true, if_false, Prod.mk.injEq, reduceCtorEq,
              false_and] at h

/-- A model that was saved has counts that fit, and its archive is what is read under the
    path and what is loaded. -/
theorem readArchive_of_saveModel (files left : Files) (path createdAt : String)
    (label : ArchiveLabel) (m : PortableModel)
    (h : saveModel files path createdAt label m = (.ok (), left)) :
    m.fits = true ∧ left.read path = .ok (writeArchive createdAt label m) ∧
      loadModel left path = (readArchive (writeArchive createdAt label m)).mapError .load := by
  rcases saveModel_eq_ok files left path createdAt label m h with
    ⟨hfits, made, place, htarget, rfl⟩
  exact ⟨hfits, made.read_put path place _ htarget, loadModel_put made path place _ htarget⟩

/-- Loading undoes saving. A file has fewer than 2 ^ 64 bytes, and this is all that it
    takes: what can be loaded from the archive of a model is that model. -/
theorem loadModel_of_saveModel (p : Pipeline) (now path : String) (m loaded : PortableModel)
    (files left : Files) (hnow : now.utf8ByteSize ≤ 2 ^ 30)
    (hwidth : m.forest.width = p.schema.width)
    (hsize : ∀ bytes, left.read path = .ok bytes → bytes.length < 2 ^ 64)
    (hsave : saveModel files path now p.archiveLabel m = (.ok (), left))
    (hload : loadModel left path = .ok loaded) : loaded = m ∧ m.forest.isFitted = true := by
  rcases readArchive_of_saveModel files left path now p.archiveLabel m hsave with
    ⟨hfits, hfile, harchive⟩
  rcases m.fits_iff.mp hfits with ⟨_, hwide, _⟩
  -- The file that is read is the archive, and the layout of the model is a part of it.
  have hlength := hsize _ hfile
  have hpayload := writeArchive_length now p.archiveLabel m
  rw [harchive, readArchive_writeArchive now p.archiveLabel m
    (p.archiveLabel_length now hnow (by omega))] at hload
  cases hread : modelOfPayload (encodeModel m) with
  | error e =>
      rw [hread] at hload
      cases hload
  | ok found =>
      rw [hread] at hload
      cases hload
      exact modelOfPayload_eq_ok m _ hfits (by omega) hread

namespace Pipeline

/-- A model is stored if it can be saved and what was saved can be loaded. -/
def Stores (p : Pipeline) (now path : String) (m : PortableModel) (files : Files) : Prop :=
  ∃ left loaded, saveModel files path now p.archiveLabel m = (.ok (), left) ∧
    loadModel left path = .ok loaded

theorem exportModel_of_not_stores (p : Pipeline) (now path : String) (m : PortableModel)
    (files : Files) (h : ¬ p.Stores now path m files) :
    ∃ e left, p.exportModel now path m files = (.error e, left) := by
  unfold exportModel
  cases hsave : saveModel files path now p.archiveLabel m with
  | mk answer left =>
      cases answer with
      | error e => exact ⟨e, left, by simp only⟩
      | ok _ =>
          cases hload : loadModel left path with
          | error e => exact ⟨e, left, by simp only [hload]⟩
          | ok loaded => exact absurd ⟨left, loaded, hsave, hload⟩ h

theorem exportModel_files (p : Pipeline) (now path : String) (m : PortableModel) (files : Files) :
    (p.exportModel now path m files).2 = (saveModel files path now p.archiveLabel m).2 := by
  unfold exportModel
  cases hsave : saveModel files path now p.archiveLabel m with
  | mk answer left =>
      cases answer with
      | error e => simp only
      | ok _ =>
          cases hload : loadModel left path with
          | error e => simp only [hload]
          | ok loaded =>
              cases hsuits : loaded.ensureFeatures p.schema.features with
              | error e => simp only [hload, hsuits]
              | ok _ => simp only [hload, hsuits]

/-- What a build stores for a forest comes back as it is, so the build goes on with it. -/
theorem exportModel_of_stores (p : Pipeline) (now path : String) (forest : Forest) (trained : Nat)
    (files : Files) (hnow : now.utf8ByteSize ≤ 2 ^ 30) (hwidth : forest.width = p.schema.width)
    (hsize : ∀ bytes, (p.exportModel now path (p.portable now forest trained) files).2.read path
      = .ok bytes → bytes.length < 2 ^ 64)
    (h : p.Stores now path (p.portable now forest trained) files) :
    ∃ after, p.exportModel now path (p.portable now forest trained) files
        = (.ok (p.portable now forest trained), after) ∧
      (p.portable now forest trained).Usable := by
  rcases h with ⟨left, loaded, hsave, hload⟩
  rw [exportModel_files, hsave] at hsize
  rcases loadModel_of_saveModel p now path _ loaded files left hnow hwidth hsize hsave hload with
    ⟨rfl, hfit⟩
  have hsuits : (p.portable now forest trained).ensureFeatures p.schema.features = .ok () :=
    if_pos rfl
  refine ⟨left, ?_, hwidth, hfit⟩
  unfold exportModel
  simp only [hsave, hload, hsuits]

/-! ## Judging and predicting -/

/-- A usable model with the features of the schema can be judged on rows of its width. -/
theorem judge_of_usable (p : Pipeline) (m : PortableModel) (test : TrainingSet)
    (medians : ModelMedians) (hm : m.Usable) (hnames : m.names = p.schema.features)
    (htest : ∀ row ∈ test.samples, row.length = p.schema.width)
    (hmedians : medians.all.values.length = p.schema.width) :
    ∃ report, p.judge m test medians = .ok report := by
  have hwidth : m.names.length = p.schema.width := by rw [hnames, Schema.width]
  have hscores := m.scoresRows hm
  rw [hwidth] at hscores
  -- The median commit is a row like the others.
  have hmedian := hscores [medians.all.values] fun row hrow => by
    rw [List.mem_singleton.mp hrow, hmedians]
  unfold judge evaluate RiskModel.predictOne
  simp only [hscores test.samples htest, hmedian, List.map_singleton, List.getLast?_singleton]
  exact ⟨_, rfl⟩

theorem attributions_of_usable (p : Pipeline) (m : PortableModel) (values : List Float)
    (mediansScore : Float) (commits : List Commit) (hm : m.Usable)
    (hnames : m.names = p.schema.features) (hvalues : values.length = p.schema.width)
    (hcommits : ∀ c ∈ commits, c.metrics.length = p.schema.width) :
    ∃ rows, p.attributions m (baselineOf p.schema values) mediansScore commits = .ok rows := by
  have hbaseline : baselineOf p.schema values = .ok ⟨p.schema.features.zip values⟩ := by
    rw [baselineOf, if_pos hvalues]
  have hwidth := baselineOf_width p.schema values _ hbaseline
  rw [hbaseline]
  exact ⟨_, p.attributions_eq_map m hm hnames _ hwidth mediansScore commits hcommits⟩

end Pipeline

end CommitRisk
