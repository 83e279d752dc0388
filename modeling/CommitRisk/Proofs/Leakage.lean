import CommitRisk.Proofs.Exits
import CommitRisk.Proofs.Records
import CommitRisk.Proofs.Replay
import CommitRisk.Proofs.Stamps
import CommitRisk.Proofs.TrainingRows

/-!
# Training Does Not See the Window

The labels of commits inside the prediction window cannot be trusted, so nothing
about these commits may reach a model except their dates, of which the newest
decides where the window begins. Two builds of tables that agree before the
window and on the newest date therefore train, store and judge alike, whatever
else is in the window.

The proof follows the two builds stage by stage. `SameTraining` is what holds
between their results at every moment. Preparation is where the commits of the
window drop out; after it the stages are handed the same rows. The only other
thing that differs is the time, which is stored with the model.

## Main definitions

* `IsNewest`: The newest date of some commits.
* `SameTraining`: Two results agree in all that training a model leaves.

## Theorems

* `predictionCutoff_of_isNewest`, `Config.windowStart_same`: The newest date decides the
  cutoff.
* `Config.windowStart_of_isNewest`: There is one, or the window cannot be counted.
* `prepare_same`, `prepareData_same`: Preparation looks at the rows before the
  cutoff only.
* `predictWindow_keeps`, `predictWindow_failure`: What the last stage can change.
* `judge_same`: The report on a model does not depend on the time in it.
* `buildFrom_same`: The stages after collection, one after the other.
* `build_sameDraw`: Chance comes in only without a seed.
* `build_ignores_window`: Two builds that differ in the window.
-/

namespace CommitRisk

/-- The newest date of some commits. -/
def IsNewest (commits : List Commit) (day : Int64) : Prop :=
  (∃ c ∈ commits, c.date = day) ∧ ∀ c ∈ commits, c.date ≤ day

instance (commits : List Commit) (day : Int64) : Decidable (IsNewest commits day) :=
  inferInstanceAs (Decidable (_ ∧ _))

theorem isNewest_unique (commits : List Commit) (day day' : Int64) (h : IsNewest commits day)
    (h' : IsNewest commits day') : day = day' := by
  rcases h with ⟨⟨c, hc, rfl⟩, hall⟩
  rcases h' with ⟨⟨c', hc', rfl⟩, hall'⟩
  exact Int64.le_antisymm (hall' c hc) (hall c' hc')

/-- The latest of some dates is one of them, and none is later. -/
theorem latest_spec (day : Int64) (days : List Int64) :
    latest day days ∈ day :: days ∧ ∀ d ∈ day :: days, d ≤ latest day days := by
  induction days generalizing day with
  | nil =>
      refine ⟨List.mem_singleton.mpr rfl, fun d hd => ?_⟩
      rw [List.mem_singleton.mp hd]
      exact Int64.le_refl _
  | cons next rest ih =>
      rw [latest]
      -- The later of the two dates goes on as the candidate.
      by_cases hlater : day < next
      · rw [if_pos hlater]
        rcases ih next with ⟨hmem, hall⟩
        refine ⟨List.mem_cons_of_mem day hmem, fun d hd => ?_⟩
        rcases List.mem_cons.mp hd with rfl | hd
        · exact Int64.le_trans (Int64.le_of_lt hlater) (hall next List.mem_cons_self)
        · exact hall d hd
      · rw [if_neg hlater]
        rcases ih day with ⟨hmem, hall⟩
        constructor
        · rcases List.mem_cons.mp hmem with heq | hmem
          · rw [heq]
            exact List.mem_cons_self
          · exact List.mem_cons_of_mem day (List.mem_cons_of_mem next hmem)
        · intro d hd
          rcases List.mem_cons.mp hd with rfl | hd
          · exact hall d List.mem_cons_self
          · rcases List.mem_cons.mp hd with rfl | hd
            · exact Int64.le_trans (Int64.not_lt.mp hlater) (hall day List.mem_cons_self)
            · exact hall d (List.mem_cons_of_mem day hd)

theorem latest_isNewest (c : Commit) (rest : List Commit) :
    IsNewest (c :: rest) (latest c.date (rest.map Commit.date)) := by
  rcases latest_spec c.date (rest.map Commit.date) with ⟨hmem, hall⟩
  rw [← List.map_cons] at hmem hall
  constructor
  · exact List.mem_map.mp hmem
  · intro d hd
    exact hall d.date (List.mem_map_of_mem hd)

theorem predictionCutoff_of_isNewest (commits : List Commit) (newest seconds : Int64)
    (h : IsNewest commits newest) :
    predictionCutoff commits seconds = (checkedSub newest seconds).map .ok := by
  cases commits with
  | nil =>
      rcases h with ⟨⟨c, hc, _⟩, _⟩
      exact absurd hc List.not_mem_nil
  | cons c rest =>
      rw [predictionCutoff,
        isNewest_unique (c :: rest) newest _ h (latest_isNewest c rest)]

/-- Commits with the same newest date have the same window. -/
theorem Config.windowStart_same (c : Config) (commits commits' : List Commit) (newest : Int64)
    (h : IsNewest commits newest) (h' : IsNewest commits' newest) :
    c.windowStart commits = c.windowStart commits' := by
  unfold windowStart
  simp only [predictionCutoff_of_isNewest commits newest _ h,
    predictionCutoff_of_isNewest commits' newest _ h']

/-- There is a cutoff if there is a newest date, unless the window cannot be counted. -/
theorem Config.windowStart_of_isNewest (c : Config) (commits : List Commit) (newest : Int64)
    (h : IsNewest commits newest) : (∃ overflow, c.windowStart commits = .error overflow) ∨
      ∃ cutoff, c.windowStart commits = .ok (.ok cutoff) := by
  unfold windowStart
  cases c.ignoredSeconds with
  | error overflow => exact .inl ⟨overflow, rfl⟩
  | ok seconds =>
      simp only [predictionCutoff_of_isNewest commits newest seconds h]
      cases checkedSub newest seconds with
      | error overflow => exact .inl ⟨overflow, rfl⟩
      | ok cutoff => exact .inr ⟨cutoff, rfl⟩

/-- The commits before a cutoff. -/
def commitsBefore (commits : List Commit) (cutoff : Int64) : List Commit :=
  commits.filter fun c => decide (c.date < cutoff)

theorem trainable_eq (commits : List Commit) (cutoff : Int64) :
    trainable commits cutoff = (commitsBefore commits cutoff).filter Commit.isComplete := by
  rw [trainable, commitsBefore, List.filter_filter]

theorem prepare_same (commits commits' : List Commit) (cutoff : Int64) (limit : Nat)
    (hbefore : commitsBefore commits cutoff = commitsBefore commits' cutoff) :
    prepare commits cutoff limit = prepare commits' cutoff limit := by
  rw [prepare, prepare, trainable_eq, trainable_eq, hbefore]

/-- Two results, each with the file tree it leaves, agree in all that training a
    model leaves: the medians, the counts of the two parts, the report, whether a
    model was built, the model that is stored, and the failure if there is one that
    comes before predicting. -/
structure SameTraining (path : String) (a b : Output × Files) : Prop where
  medians : a.1.medians = b.1.medians
  train : a.1.dataPoints.map DataPoints.train = b.1.dataPoints.map DataPoints.train
  test : a.1.dataPoints.map DataPoints.test = b.1.dataPoints.map DataPoints.test
  report : a.1.report = b.1.report
  isBuilt : a.1.isBuilt = b.1.isBuilt
  stored : SameUnstamped (loadModel a.2 path) (loadModel b.2 path)
  failure : (a.1.error.filter fun e => e.stage ≠ .predicting)
    = b.1.error.filter fun e => e.stage ≠ .predicting

namespace SameTraining

variable {path : String} {o o' : Output} {files files' : Files}

theorem fail (h : SameTraining path (o, files) (o', files')) (stage : Stage) (message : String) :
    SameTraining path (o.fail stage message, files) (o'.fail stage message, files') :=
  ⟨h.medians, h.train, h.test, h.report, h.isBuilt, h.stored, rfl⟩

theorem finish (h : SameTraining path (o, files) (o', files')) :
    SameTraining path (o.finish, files) (o'.finish, files') :=
  ⟨h.medians, h.train, h.test, h.report, h.isBuilt, h.stored, h.failure⟩

end SameTraining

namespace Pipeline

variable {path : String} {o o' : Output} {files files' : Files}

/-- Predicting the window leaves what the stages before have found. -/
theorem predictWindow_keeps (p : Pipeline) (m : PortableModel) (report : ModelReport)
    (d : Prepared) (o : Output) :
    (p.predictWindow m report d o).medians = o.medians ∧
      (p.predictWindow m report d o).dataPoints = o.dataPoints ∧
      (p.predictWindow m report d o).report = o.report ∧
      (p.predictWindow m report d o).isBuilt = o.isBuilt := by
  unfold predictWindow
  split <;> exact ⟨rfl, rfl, rfl, rfl⟩

/-- Predicting the window fails in its own stage only. -/
theorem predictWindow_failure (p : Pipeline) (m : PortableModel) (report : ModelReport)
    (d : Prepared) (o : Output) (ho : o.error = none) :
    ((p.predictWindow m report d o).error.filter fun e => e.stage ≠ .predicting) = none := by
  unfold predictWindow
  split
  · rfl
  · rw [ho, Option.filter_none]

/-- The prediction can go wrong in one run and not in the other, which is not
    looked at. -/
theorem predictWindow_same (p : Pipeline) (m m' : PortableModel) (report report' : ModelReport)
    (d d' : Prepared) (ho : o.error = none) (ho' : o'.error = none)
    (h : SameTraining path (o, files) (o', files')) :
    SameTraining path (p.predictWindow m report d o, files)
      (p.predictWindow m' report' d' o', files') := by
  rcases p.predictWindow_keeps m report d o with ⟨hm, hd, hr, hb⟩
  rcases p.predictWindow_keeps m' report' d' o' with ⟨hm', hd', hr', hb'⟩
  constructor
  · exact hm.trans (h.medians.trans hm'.symm)
  · simp only [hd, hd']
    exact h.train
  · simp only [hd, hd']
    exact h.test
  · exact hr.trans (h.report.trans hr'.symm)
  · exact hb.trans (h.isBuilt.trans hb'.symm)
  · exact h.stored
  · exact (p.predictWindow_failure m report d o ho).trans
      (p.predictWindow_failure m' report' d' o' ho').symm

/-- Judging a model looks at its names and its forest. -/
theorem judge_same (p : Pipeline) (m m' : PortableModel) (test : TrainingSet)
    (medians : ModelMedians) (h : m.unstamped = m'.unstamped) :
    p.judge m test medians = p.judge m' test medians := by
  change p.judge m.unstamped test medians = p.judge m'.unstamped test medians
  rw [h]

theorem exportAndJudge_files (p : Pipeline) (now : String) (m : PortableModel)
    (test : TrainingSet) (d : Prepared) :
    (p.exportAndJudge now path m test d o files).2 = (p.exportModel now path m files).2 := by
  unfold exportAndJudge
  rcases p.exportModel now path m files with ⟨answer, after⟩
  cases answer with
  | error e => rfl
  | ok stored =>
      simp only []
      split <;> rfl

theorem exportAndJudge_same (p : Pipeline) (now now' : String) (m : PortableModel)
    (test : TrainingSet) (d d' : Prepared) (hmedians : d.medians = d'.medians)
    (halike : ReadAlike now now' path
      (p.exportAndJudge now path (m.stamped now) test d o files).2
      (p.exportAndJudge now' path (m.stamped now') test d' o' files).2)
    (hshort : now.utf8ByteSize + m.back.length ≤ 2 ^ 30) (hshort' : now'.utf8ByteSize ≤ 2 ^ 30)
    (hwidth : m.forest.width = p.schema.width) (ho : o.error = none) (ho' : o'.error = none)
    (h : SameTraining path (o, files) (o', files)) :
    SameTraining path (p.exportAndJudge now path (m.stamped now) test d o files)
      (p.exportAndJudge now' path (m.stamped now') test d' o' files) := by
  rw [exportAndJudge_files, exportAndJudge_files] at halike
  -- Storing and loading is where the two times come in.
  have hexport := p.exportModel_stamped now now' path m files halike hshort hshort' hwidth
  unfold exportAndJudge
  generalize p.exportModel now path (m.stamped now) files = exported at hexport ⊢
  generalize p.exportModel now' path (m.stamped now') files = exported' at hexport ⊢
  rcases exported with ⟨answer, after⟩
  rcases exported' with ⟨answer', after'⟩
  -- The two file trees hold the same model up to the time, whatever comes next.
  have hafter : SameTraining path (o, after) (o', after') :=
    ⟨h.medians, h.train, h.test, h.report, h.isBuilt, hexport.2, h.failure⟩
  rcases hexport.1.fails_or_gives with ⟨e, ha, hb⟩ | ⟨s, s', ha, hb, hsame⟩
  · cases ha
    cases hb
    exact hafter.fail .modelExporting e.message
  · cases ha
    cases hb
    have hjudge : p.judge s test d.medians = p.judge s' test d'.medians := by
      rw [p.judge_same s s' test d.medians hsame, hmedians]
    simp only [hjudge]
    cases p.judge s' test d'.medians with
    | error e => exact hafter.fail .modelExporting e.message
    | ok report =>
        refine p.predictWindow_same s s' report report d d' ho ho' ?_
        exact ⟨h.medians, h.train, h.test, rfl, h.isBuilt, hexport.2, h.failure⟩

theorem train_same (p : Pipeline) (now now' : String) (chance : Chance)
    (params : HyperParameters) (train test : TrainingSet) (d d' : Prepared)
    (hmedians : d.medians = d'.medians)
    (hrows : ∀ row ∈ train.samples, row.length = p.schema.width)
    (halike : ReadAlike now now' path (p.train now chance path params train test d o files).2
      (p.train now' chance path params train test d' o' files).2)
    (hshort : now.utf8ByteSize ≤ 80) (hshort' : now'.utf8ByteSize ≤ 80)
    (ho : o.error = none) (ho' : o'.error = none)
    (h : SameTraining path (o, files) (o', files)) :
    SameTraining path (p.train now chance path params train test d o files)
      (p.train now' chance path params train test d' o' files) := by
  simp only [Pipeline.train, TrainingSet.fit_eq] at halike ⊢
  cases hfit : Forest.fit train.samples train.labels params chance with
  | error e => exact h.fail .modelBuilding _
  | ok forest =>
      simp only [hfit] at halike
      have hwidth := fit_width train.samples train.labels params chance p.schema.width forest
        hfit hrows
      -- Behind the time stand a count and the mark of a missing description.
      have hback : (p.portable "" forest train.size).back.length = 9 := by
        rw [PortableModel.back, List.length_append, encodeCount_length]
        rfl
      refine p.exportAndJudge_same now now' (p.portable "" forest train.size) test d d' hmedians
        halike (by omega) (by omega) hwidth ho ho' ?_
      exact ⟨h.medians, h.train, h.test, h.report, rfl, h.stored, h.failure⟩

theorem splitAndTrain_same (p : Pipeline) (now now' : String) (chance : Chance)
    (params : HyperParameters) (rows rows' : Nat) (d d' : Prepared) (hset : d.set = d'.set)
    (hmedians : d.medians = d'.medians)
    (hrows : ∀ row ∈ d.set.samples, row.length = p.schema.width)
    (halike : ReadAlike now now' path (p.splitAndTrain now chance path params rows d o files).2
      (p.splitAndTrain now' chance path params rows' d' o' files).2)
    (hshort : now.utf8ByteSize ≤ 80) (hshort' : now'.utf8ByteSize ≤ 80)
    (ho : o.error = none) (ho' : o'.error = none)
    (h : SameTraining path (o, files) (o', files)) :
    SameTraining path (p.splitAndTrain now chance path params rows d o files)
      (p.splitAndTrain now' chance path params rows' d' o' files) := by
  unfold splitAndTrain at halike ⊢
  rw [← hset] at halike ⊢
  cases hsplit : d.set.split p.config.testSize p.config.splitSeed with
  | error e => exact h.fail .dataSplitting e.message
  | ok parts =>
      rcases parts with ⟨training, test⟩
      simp only [hsplit] at halike
      -- The parts are the same in both runs, because the sets and the seed are.
      have hmem := (mem_of_split d.set training test _ _ hsplit).1
      refine p.train_same now now' chance params training test d d' hmedians
        (fun row hrow => hrows row (hmem row hrow)) halike hshort hshort' ho ho' ?_
      exact ⟨h.medians, rfl, rfl, h.report, h.isBuilt, h.stored, h.failure⟩

/-- Preparation finds the same rows and medians in two tables that agree before the
    cutoff, or nothing for the same reason. -/
theorem prepareData_same (p : Pipeline) (table table' : Table) (commits commits' : List Commit)
    (newest : Int64) (hcommits : table.commits p.schema = .ok commits)
    (hcommits' : table'.commits p.schema = .ok commits') (hnewest : IsNewest commits newest)
    (hnewest' : IsNewest commits' newest)
    (hbefore : ∀ cutoff, p.config.windowStart commits = .ok (.ok cutoff) →
      commitsBefore commits cutoff = commitsBefore commits' cutoff) :
    (∃ overflow, p.prepareData table = .error overflow ∧
      p.prepareData table' = .error overflow) ∨
    (∃ message, p.prepareData table = .ok (.error message) ∧
      p.prepareData table' = .ok (.error message)) ∨
    ∃ d d', p.prepareData table = .ok (.ok d) ∧ p.prepareData table' = .ok (.ok d') ∧
      d.set = d'.set ∧ d.medians = d'.medians ∧
      ∀ row ∈ d.set.samples, row.length = p.schema.width := by
  unfold prepareData
  simp only [hcommits, hcommits',
    ← p.config.windowStart_same commits commits' newest hnewest hnewest']
  rcases p.config.windowStart_of_isNewest commits newest hnewest with
    ⟨overflow, hstart⟩ | ⟨cutoff, hstart⟩
  · exact .inl ⟨overflow, by rw [hstart], by rw [hstart]⟩
  -- One cutoff for both tables, and the same rows before it.
  have hsame := prepare_same commits commits' cutoff p.config.maxTrainingRows
    (hbefore cutoff hstart)
  simp only [hstart, prepareFrom, ← hsame]
  -- From here on the commits of the window are in neither of the two sets.
  cases hset : prepare commits cutoff p.config.maxTrainingRows with
  | error e => exact .inr (.inl ⟨e.message, rfl, rfl⟩)
  | ok set =>
      simp only [ModelMedians.compute_eq]
      refine .inr (.inr ⟨_, _, rfl, rfl, rfl, rfl, ?_⟩)
      exact prepare_width commits _ _ p.schema.width set hset
        (table.commits_width p.schema commits hcommits)

theorem buildFrom_same (p : Pipeline) (now now' : String) (chance : Chance)
    (params : HyperParameters) (table table' : Table) (commits commits' : List Commit)
    (newest : Int64) (hcommits : table.commits p.schema = .ok commits)
    (hcommits' : table'.commits p.schema = .ok commits') (hnewest : IsNewest commits newest)
    (hnewest' : IsNewest commits' newest)
    (hbefore : ∀ cutoff, p.config.windowStart commits = .ok (.ok cutoff) →
      commitsBefore commits cutoff = commitsBefore commits' cutoff)
    (halike : ∀ left left', p.buildFrom now chance path params table o files = .ok left →
      p.buildFrom now' chance path params table' o' files = .ok left' →
        ReadAlike now now' path left.2 left'.2)
    (hshort : now.utf8ByteSize ≤ 80) (hshort' : now'.utf8ByteSize ≤ 80)
    (ho : o.error = none) (ho' : o'.error = none)
    (h : SameTraining path (o, files) (o', files)) :
    (∃ overflow, p.buildFrom now chance path params table o files = .error overflow ∧
      p.buildFrom now' chance path params table' o' files = .error overflow) ∨
    ∃ left left', p.buildFrom now chance path params table o files = .ok left ∧
      p.buildFrom now' chance path params table' o' files = .ok left' ∧
      SameTraining path left left' := by
  unfold buildFrom at halike ⊢
  rcases p.prepareData_same table table' commits commits' newest hcommits hcommits' hnewest
    hnewest' hbefore with ⟨overflow, ha, hb⟩ | ⟨message, ha, hb⟩ | ⟨d, d', ha, hb, hsame⟩
  · exact .inl ⟨overflow, by rw [ha], by rw [hb]⟩
  · simp only [ha, hb]
    exact .inr ⟨_, _, rfl, rfl, h.fail .dataPreparation message⟩
  · rcases hsame with ⟨hset, hmedians, hrows⟩
    simp only [ha, hb] at halike ⊢
    refine .inr ⟨_, _, rfl, rfl, ?_⟩
    refine p.splitAndTrain_same now now' chance params _ _ d d' hset hmedians hrows
      (halike _ _ rfl rfl) hshort hshort' ho ho' ?_
    exact ⟨congrArg some hmedians, h.train, h.test, h.report, h.isBuilt, h.stored, h.failure⟩

end Pipeline

/-! ## Two builds -/

/-- What chance draws is looked at only if there is no seed. -/
theorem Forest.fit_sameDraw (samples : List (List Float)) (labels : List Bool)
    (params : HyperParameters) (chance chance' : Chance)
    (h : params.seed = none → chance = chance') :
    fit samples labels params chance = fit samples labels params chance' := by
  cases hseed : params.seed with
  | none => rw [h hseed]
  | some seed =>
      have hwords : params.words chance = params.words chance' := by
        funext tree
        simp only [HyperParameters.words, hseed]
      unfold fit ofRows
      simp only [hwords]

theorem Pipeline.build_sameDraw (p : Pipeline) (source : Source) (now : String)
    (chance chance' : Chance) (path : String) (params : HyperParameters) (collector : Collector)
    (files : Files) (h : params.seed = none → chance = chance') :
    p.build source now chance path params collector files
      = p.build source now chance' path params collector files := by
  unfold build buildFrom splitAndTrain Pipeline.train
  simp only [TrainingSet.fit_eq, Forest.fit_sameDraw _ _ params chance chance' h]

/-- A build that has quantiles goes on with the commit table of its collector. -/
theorem Pipeline.build_with_quantiles (p : Pipeline) (source : Source) (now : String)
    (chance : Chance) (path : String) (params : HyperParameters) (collector : Collector)
    (files : Files) (table : Table) (hall : (collector.allCommits source true).1 = .ok table)
    (hquantiles : ∃ q, (collector.quantiles source).1 = .ok q) :
    ∃ (q : Quantiles) (after : Collector), p.build source now chance path params collector files
      = (p.buildFrom now chance path params table (Output.withQuantiles q) files).map
        fun (o, left) => ⟨o.finish, after, left⟩ := by
  rcases hquantiles with ⟨q, hq⟩
  rcases p.build_of_quantiles source now chance path params collector _ files q
    (Prod.ext hq rfl) with ⟨found, hfound, hbuild⟩
  rw [hall, Except.ok.injEq] at hfound
  rw [hfound]
  exact ⟨q, _, hbuild⟩

/-- Training does not see the window. Two builds whose tables agree on the newest
    date and on the commits before the cutoff agree in all that training, storing
    and testing a model leaves, whatever commits are inside the window, how many
    there are and where they stand. The model that is stored is the same up to the
    time it was trained at. A window that cannot be counted stops both alike. Without
    a seed the draws have to be the same. The two times are seconds since the epoch.
    Unless they have equally many digits, the archives have to be within the limit of
    a reader, because a reader says how large an archive is that it refuses. -/
theorem build_ignores_window (p : Pipeline) (source source' : Source) (seconds seconds' : UInt64)
    (chance chance' : Chance) (path : String) (params : HyperParameters)
    (collector collector' : Collector) (files : Files) (table table' : Table)
    (commits commits' : List Commit) (newest : Int64)
    (hdraw : params.seed = none → chance = chance')
    (hall : (collector.allCommits source true).1 = .ok table)
    (hall' : (collector'.allCommits source' true).1 = .ok table')
    (hcommits : table.commits p.schema = .ok commits)
    (hcommits' : table'.commits p.schema = .ok commits')
    (hnewest : IsNewest commits newest) (hnewest' : IsNewest commits' newest)
    (hbefore : ∀ cutoff, p.config.windowStart commits = .ok (.ok cutoff) →
      commitsBefore commits cutoff = commitsBefore commits' cutoff)
    (hquantiles : ∃ q, (collector.quantiles source).1 = .ok q)
    (hquantiles' : ∃ q, (collector'.quantiles source').1 = .ok q)
    (halike : ∀ built built',
      p.build source (toString seconds.toNat) chance path params collector files = .ok built →
      p.build source' (toString seconds'.toNat) chance' path params collector' files = .ok built' →
        ReadAlike (toString seconds.toNat) (toString seconds'.toNat) path built.files
          built'.files) :
    (∃ overflow,
      p.build source (toString seconds.toNat) chance path params collector files
        = .error overflow ∧
      p.build source' (toString seconds'.toNat) chance' path params collector' files
        = .error overflow) ∨
    ∃ built built',
      p.build source (toString seconds.toNat) chance path params collector files = .ok built ∧
      p.build source' (toString seconds'.toNat) chance' path params collector' files
        = .ok built' ∧
      SameTraining path (built.output, built.files) (built'.output, built'.files) := by
  rw [← p.build_sameDraw source' _ chance chance' path params collector' files hdraw] at halike ⊢
  rcases p.build_with_quantiles source (toString seconds.toNat) chance path params collector files
    table hall hquantiles with ⟨q, after, hbuild⟩
  rcases p.build_with_quantiles source' (toString seconds'.toNat) chance path params collector'
    files table' hall' hquantiles' with ⟨q', after', hbuild'⟩
  rw [hbuild, hbuild'] at halike ⊢
  -- Both builds start their later stages with nothing but quantiles.
  have hstart : SameTraining path (Output.withQuantiles q, files)
      (Output.withQuantiles q', files) := ⟨rfl, rfl, rfl, rfl, rfl, rfl, rfl⟩
  rcases p.buildFrom_same _ _ chance params table table' commits commits' newest hcommits hcommits'
    hnewest hnewest' hbefore (fun left left' hleft hleft' => halike _ _ (by rw [hleft]; rfl)
      (by rw [hleft']; rfl)) (utf8ByteSize_toString_le seconds.toNat seconds.toNat_lt)
    (utf8ByteSize_toString_le seconds'.toNat seconds'.toNat_lt) rfl rfl hstart with
    ⟨overflow, hfrom, hfrom'⟩ | ⟨left, left', hfrom, hfrom', hsame⟩
  · exact .inl ⟨overflow, by rw [hfrom]; rfl, by rw [hfrom']; rfl⟩
  · exact .inr ⟨_, _, by rw [hfrom]; rfl, by rw [hfrom']; rfl, hsame.finish⟩

/-- The commits before the window as in the small table, and one other commit in the
    window. -/
def otherWindowText : String :=
  "commit_id,author_date,buggy,la,exp\nx,9,1,7,8\na,0,1,1,5\nb,1,0,2,4\n"

def otherWindowSource : Source := fun _ request =>
  match request.resource with
  | .commits => .ok otherWindowText
  | _ => .ok "path\n"

def otherWindowTable : Table where
  columns := ["commit_id", "author_date", "buggy", "la", "exp"]
  rows := [["x", "9", "1", "7", "8"], ["a", "0", "1", "1", "5"], ["b", "1", "0", "2", "4"]]
  rows_width := by decide

def otherWindowCommits : List Commit := [
  ⟨"x", 9, [some 7.0, some 8.0], some true⟩, ⟨"a", 0, [some 1.0, some 5.0], some true⟩,
  ⟨"b", 1, [some 2.0, some 4.0], some false⟩]

/-- The small run at its time in seconds. -/
theorem smallRun_at :
    smallPipeline.build smallSource (toString (1700000000 : UInt64).toNat) fixedChance "m.apr"
      ⟨2, some 3, some 7⟩ (.ofJobs .all []) .empty = .ok smallBuild := by
  rw [← smallRun_eq, show toString (1700000000 : UInt64).toNat = "1700000000" by decide +kernel]
  rfl

set_option maxRecDepth 100000 in
theorem small_builds_ignore_window :
    IsNewest smallCommits 9 ∧ IsNewest otherWindowCommits 9 ∧
    smallPipeline.config.windowStart smallCommits = .ok (.ok 9) ∧
    commitsBefore smallCommits 9 = commitsBefore otherWindowCommits 9 ∧
    ∃ built built',
      smallPipeline.build smallSource (toString (1700000000 : UInt64).toNat) fixedChance "m.apr"
        ⟨2, some 3, some 7⟩ (.ofJobs .all []) .empty = .ok built ∧
      smallPipeline.build otherWindowSource (toString (1711111111 : UInt64).toNat)
        (fun _ => Words.ofSeed 5) "m.apr" ⟨2, some 3, some 7⟩ (.ofJobs .all []) .empty
        = .ok built' ∧
      built.output.error = none ∧
      SameTraining "m.apr" (built.output, built.files) (built'.output, built'.files) := by
  have hstart : smallPipeline.config.windowStart smallCommits = .ok (.ok 9) := rfl
  have hbefore : commitsBefore smallCommits 9 = commitsBefore otherWindowCommits 9 := by
    decide +kernel
  refine ⟨by decide +kernel, by decide +kernel, hstart, hbefore, ?_⟩
  rcases build_ignores_window smallPipeline smallSource otherWindowSource 1700000000 1711111111
    fixedChance (fun _ => Words.ofSeed 5) "m.apr" ⟨2, some 3, some 7⟩ (.ofJobs .all [])
    (.ofJobs .all []) .empty smallTable otherWindowTable smallCommits otherWindowCommits 9
    (fun hseed => by cases hseed) (by decide +kernel) (by decide +kernel) (by decide +kernel)
    (by decide +kernel) (by decide +kernel) (by decide +kernel)
    (fun cutoff hcutoff => by
      rw [hstart, Except.ok.injEq, Except.ok.injEq] at hcutoff
      rw [← hcutoff]
      exact hbefore)
    ⟨_, eq_ok_get _ (by decide +kernel)⟩ ⟨_, eq_ok_get _ (by decide +kernel)⟩
    (fun _ _ _ _ => .inl (by decide +kernel)) with
    ⟨overflow, hstopped, _⟩ | ⟨built, built', hbuilt, hbuilt', hsame⟩
  · rw [smallRun_at] at hstopped
    cases hstopped
  · rw [smallRun_at, Except.ok.injEq] at hbuilt
    subst hbuilt
    exact ⟨smallBuild, built', smallRun_at, hbuilt', smallBuild_found.1, hsame⟩

end CommitRisk
