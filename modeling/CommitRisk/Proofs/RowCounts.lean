import CommitRisk.Proofs.ClassFigures
import CommitRisk.Proofs.Stages

/-!
# Every Row Is Counted

A build reports how many rows there are, how many it trained and tested with and how
many it predicted. The figures come from different places: from the table, from the
two parts the prepared rows are cut into, and from the window. The report on the model
and the predictions count rows once more. All of them are counts of one list of
commits.

Every commit before the cutoff that is complete is trainable, and none of these is in
the window. Preparation keeps the newest of them up to a limit and loses none of those
it keeps. The two parts are positions of a shuffled list, so together they have the
labels of the set. The report tallies pairs, one for each row of the test part, and
attribution goes commit by commit.

## Main definitions

* `Commit.IsTrainable`: A commit that can be trained on.
* `Accounted`: The figures of a result are counts of its commits.

## Theorems

* `length_trainable`: How many commits can be trained on.
* `prepare_size`: How many rows are prepared.
* `count_select_cut`, `split_counts`: The two parts have the labels of the set.
* `ofLabelsWith_support`: The rows that a report counts.
* `judge_support`: The same for the report on a stored model.
* `attributions_commits`: Whose attributions these are.
* `buildEnds_of_points`: What a build with counts has done.
* `build_accounts`: The figures of a build.
-/

namespace CommitRisk

/-! ## Rows that are prepared -/

/-- The commit is labelled, all its metrics are numbers, and it is dated before the
    cutoff. -/
def Commit.IsTrainable (c : Commit) (cutoff : Int64) : Prop :=
  c.label.isSome = true ∧ (∀ cell ∈ c.metrics, ∃ x, cell = some x ∧ x.isNaN = false) ∧
    c.date < cutoff

theorem Commit.isTrainable_iff (c : Commit) (cutoff : Int64) :
    (c.isComplete && decide (c.date < cutoff)) = true ↔ c.IsTrainable cutoff := by
  rw [Bool.and_eq_true, decide_eq_true_iff, Commit.isComplete, Bool.and_eq_true,
    List.all_eq_true, and_assoc]
  refine and_congr_right fun _ => and_congr_left fun _ => forall₂_congr fun cell _ => ?_
  cases cell with
  | none => simp only [Bool.false_eq_true, reduceCtorEq, false_and, exists_false]
  | some x => simp only [Bool.not_eq_true', Option.some.injEq, exists_eq_left']

instance (c : Commit) (cutoff : Int64) : Decidable (c.IsTrainable cutoff) :=
  decidable_of_iff _ (c.isTrainable_iff cutoff)

theorem length_trainable (commits : List Commit) (cutoff : Int64) :
    (trainable commits cutoff).length
      = commits.countP fun c => decide (c.IsTrainable cutoff) := by
  rw [trainable, ← List.countP_eq_length_filter]
  refine List.countP_congr fun c _ => ?_
  rw [c.isTrainable_iff, decide_eq_true_iff]

/-- No commit is both trainable and in the window, so together they are no more than all. -/
theorem countP_trainable_add_window (commits : List Commit) (cutoff : Int64) :
    (commits.countP fun c => decide (c.IsTrainable cutoff))
      + (commits.countP fun c => decide (cutoff ≤ c.date)) ≤ commits.length := by
  have htrainable : (commits.countP fun c => decide (c.IsTrainable cutoff))
      ≤ commits.countP fun c => decide ¬ decide (cutoff ≤ c.date) = true :=
    List.countP_mono_left fun c _ h => by
      rw [decide_eq_true_iff] at h ⊢
      rw [decide_eq_true_iff, Int64.not_le]
      exact h.2.2
  rw [List.length_eq_countP_add_countP fun c : Commit => decide (cutoff ≤ c.date)]
  omega

/-- Preparation keeps as many trainable commits as it may, each with a row and a label. -/
theorem prepare_size (commits : List Commit) (cutoff : Int64) (limit : Nat) (set : TrainingSet)
    (h : prepare commits cutoff limit = .ok set) :
    set.labels.length = min limit (trainable commits cutoff).length ∧
      set.labels.length = set.samples.length := by
  by_cases hnone : trainable commits cutoff = []
  · rw [prepare_of_not_trainable commits cutoff limit hnone] at h
    cases h
  · by_cases hlimit : limit = 0
    · -- Where nothing may be kept, nothing is.
      have hkept : newest 0 (trainable commits cutoff) = [] := by
        rw [← List.length_eq_zero_iff, length_newest, Nat.zero_min]
      simp only [prepare, hlimit, hkept, List.isEmpty_nil, if_true, reduceCtorEq] at h
    · rcases prepare_of_trainable commits cutoff limit hlimit hnone with
        ⟨found, hfound, hsize, hlabels⟩
      rw [h, Except.ok.injEq] at hfound
      rw [hfound, hlabels]
      exact ⟨hsize, rfl⟩

/-! ## The two parts -/

namespace TrainingSet

theorem counts_total (set : TrainingSet) : set.counts.total = set.labels.length :=
  List.count_true_add_count_false set.labels

theorem length_select (set : TrainingSet) (positions : List Nat) :
    (set.select positions).labels.length = positions.length ∧
      (set.select positions).samples.length = positions.length :=
  ⟨List.length_map _, List.length_map _⟩

/-- Whatever the order in which all positions are taken, the labels are those of the set. -/
theorem select_labels_perm (set : TrainingSet) (positions : List Nat)
    (h : positions.Perm (List.range set.labels.length)) :
    (set.select positions).labels.Perm set.labels := by
  have hall : (List.range set.labels.length).map (fun i => set.labels[i]?.getD false)
      = set.labels := by
    refine List.ext_getElem ?_ fun i _ hi => ?_
    · rw [List.length_map, List.length_range]
    · rw [List.getElem_map, List.getElem_range, List.getElem?_eq_getElem hi, Option.getD_some]
  have hperm := h.map fun i => set.labels[i]?.getD false
  rw [hall] at hperm
  exact hperm

/-- Wherever an order of all positions is cut, both parts together have the labels of the
    set. -/
theorem count_select_cut (set : TrainingSet) (order : List Nat) (held : Nat) (label : Bool)
    (horder : order.Perm (List.range set.labels.length)) :
    (set.select (order.take held)).labels.count label
      + (set.select (order.drop held)).labels.count label = set.labels.count label := by
  -- What is taken and what is dropped make up the whole order.
  have hwhole : (set.select (order.take held)).labels ++ (set.select (order.drop held)).labels
      = (set.select order).labels := by
    rw [select, select, select, ← List.map_append, List.take_append_drop]
  rw [← (set.select_labels_perm order horder).count_eq label, ← hwhole, List.count_append]

/-- Neither part of a set is empty, and together they have the labels of the set. -/
theorem split_counts (set training test : TrainingSet) (testSize : Float) (seed : UInt64)
    (hlabels : set.labels.length = set.samples.length)
    (h : set.split testSize seed = .ok (training, test)) :
    (∀ label, training.labels.count label + test.labels.count label = set.labels.count label) ∧
      training.labels ≠ [] ∧ test.labels ≠ [] ∧ test.labels.length = test.samples.length := by
  unfold split at h
  simp only [] at h
  split at h
  · cases h
  · rename_i hboth
    cases h
    have hlength := shuffle_length set.size seed
    have hperm := shuffle_perm set.size seed
    generalize shuffle set.size seed = order at hlength hperm ⊢
    generalize heldOut testSize set.size = held at hboth ⊢
    refine ⟨fun label => ?_, ?_, ?_, ?_⟩
    · rw [Nat.add_comm]
      refine set.count_select_cut order held label ?_
      rw [hlabels]
      exact hperm
    · rw [← List.length_pos_iff, (set.length_select _).1, List.length_drop]
      omega
    · rw [← List.length_pos_iff, (set.length_select _).1, List.length_take]
      omega
    · rw [(set.length_select _).1, (set.length_select _).2]

end TrainingSet

/-! ## The report -/

namespace Report

variable {α β : Type} [Scalar α] [Scalar β]

/-- The rows that a report counts are the true labels. -/
theorem ofLabelsWith_support (carry : β → α) (truth predicted : List Bool) (hsome : truth ≠ [])
    (hlength : truth.length = predicted.length) :
    (ofLabelsWith carry truth predicted).buggy.support = truth.count true ∧
      (ofLabelsWith carry truth predicted).clean.support = truth.count false ∧
      (ofLabelsWith carry truth predicted).weightedAvg.support = truth.length := by
  have hmatch : (truth.isEmpty || truth.length != predicted.length) = false := by
    rw [List.isEmpty_eq_false_iff.mpr hsome, hlength, bne_self_eq_false, Bool.or_false]
  rw [ofLabelsWith, hmatch, if_neg Bool.false_ne_true]
  refine ⟨?_, ?_, ?_⟩
  · exact (ClassMetrics.ofConfusion_support _ true).trans
      (Tally.ofPairs_support truth predicted hlength true)
  · exact (ClassMetrics.ofConfusion_support _ false).trans
      (Tally.ofPairs_support truth predicted hlength false)
  · change (truth.zip predicted).length = truth.length
    rw [List.length_zip, ← hlength, Nat.min_self]

end Report

theorem PortableModel.length_of_predict (m : PortableModel) (rows : List (List Float))
    (scores : List Float) (h : m.model.predict rows = .ok scores) :
    scores.length = rows.length := by
  rcases m.usable_of_predict rows scores h with ⟨hwidth, hfit⟩
  simp only [model, hwidth, ne_eq, not_true_eq_false, if_false, Forest.model, hfit, Bool.not_true,
    Bool.false_eq_true] at h
  split at h
  · cases h
  · cases h
    exact List.length_map _

namespace Pipeline

/-- The report on a stored model counts the rows of the test part. -/
theorem judge_support (p : Pipeline) (m : PortableModel) (test : TrainingSet)
    (medians : ModelMedians) (report : ModelReport) (hsome : test.labels ≠ [])
    (hlabels : test.labels.length = test.samples.length)
    (h : p.judge m test medians = .ok report) :
    report.classification.buggy.support = test.counts.buggy ∧
      report.classification.clean.support = test.counts.clean ∧
      report.classification.weightedAvg.support = test.counts.total := by
  unfold judge evaluate at h
  cases hpredict : m.model.predict test.samples with
  | error e => simp only [hpredict, reduceCtorEq] at h
  | ok scores =>
      simp only [hpredict] at h
      cases hmedian : m.model.predictOne medians.all.values with
      | error e => simp only [hmedian, reduceCtorEq] at h
      | ok mediansScore =>
          simp only [hmedian, Except.ok.injEq] at h
          rw [← h, test.counts_total]
          refine Report.ofLabelsWith_support widen test.labels _ hsome ?_
          rw [List.length_map, m.length_of_predict test.samples scores hpredict, hlabels]

/-- A stored model that suits the schema attributes every commit, in their order. -/
theorem attributions_commits (p : Pipeline) (m : PortableModel) (hm : m.Usable)
    (hnames : m.names = p.schema.features) (values : List Float) (mediansScore : Float)
    (commits : List Commit) (hcommits : ∀ c ∈ commits, c.metrics.length = p.schema.width)
    (rows : List (Attribution Float))
    (h : p.attributions m (baselineOf p.schema values) mediansScore commits = .ok rows) :
    rows.map Attribution.commit = commits.map Commit.id := by
  -- There are attributions, so there was a baseline.
  rcases (bind_eq_ok _ _ _).mp h with ⟨b, hb, _⟩
  have hall := p.attributions_eq_map m hm hnames b (baselineOf_width p.schema values b hb)
    mediansScore commits hcommits
  rw [hb, hall, Except.ok.injEq] at h
  rw [← h, List.map_map]
  rfl

/-! ## The build -/

/-- A build that counted its rows has divided them. If it reports on a model, it has
    judged it with the test part, and if it has predictions, they are attributions of the
    window with a model that was judged. -/
theorem buildEnds_of_points {p : Pipeline} {now : String} {chance : Chance} {path : String}
    {params : HyperParameters} {table : Table} {q : Quantiles} {files after : Files} {o : Output}
    {points : DataPoints}
    (h : p.BuildEnds now chance path params table (Output.withQuantiles q) files o after)
    (hpoints : o.dataPoints = some points) :
    ∃ d training test, Divided p table d training test ∧
      points = pointsOf table d training test ∧
      (∀ report, o.report = some report → ∃ m, p.judge m test d.medians = .ok report) ∧
      ∀ rows, o.prediction = some rows → ∃ m mediansScore, m.Usable ∧
        m.names = p.schema.features ∧
        p.attributions m (baselineOf p.schema d.medians.all.values) mediansScore d.window
          = .ok rows := by
  cases h with
  | unprepared | undivided => cases hpoints
  | unfitted d training test e hdiv =>
      cases hpoints
      refine ⟨d, training, test, hdiv, rfl, ?_, ?_⟩ <;> rintro _ ⟨⟩
  | unexported d training test forest e _ hfit =>
      cases hpoints
      refine ⟨d, training, test, hfit.toDivided, rfl, ?_, ?_⟩ <;> rintro _ ⟨⟩
  | unjudged d training test forest stored _ e hexp =>
      cases hpoints
      refine ⟨d, training, test, hexp.toDivided, rfl, ?_, ?_⟩ <;> rintro _ ⟨⟩
  | unpredicted d training test forest stored _ report e hjudge =>
      cases hpoints
      refine ⟨d, training, test, hjudge.toDivided, rfl, ?_, ?_⟩ <;> rintro _ ⟨⟩
      exact ⟨stored, hjudge.judged⟩
  | finished d training test forest stored _ report rows hjudge hrows =>
      cases hpoints
      refine ⟨d, training, test, hjudge.toDivided, rfl, ?_, ?_⟩ <;> rintro _ ⟨⟩
      · exact ⟨stored, hjudge.judged⟩
      · exact ⟨stored, report.mediansScore,
          p.judge_usable stored test d.medians report hjudge.judged,
          (p.exportModel_eq_ok now path _ stored files _ hjudge.exported).2, hrows⟩

/-- The figures of a result are counts of its commits: all rows of the table, those in
    the window, and those that are trained and tested with, which are as many of the
    trainable ones as are allowed. -/
structure Accounted (p : Pipeline) (table : Table) (commits : List Commit) (cutoff : Int64)
    (set : TrainingSet) (o : Output) (points : DataPoints) : Prop where
  all : points.all = table.rows.length
  predict : points.predict = commits.countP fun c => decide (cutoff ≤ c.date)
  used : points.train.total + points.test.total
    = min (commits.countP fun c => decide (c.IsTrainable cutoff)) p.config.maxTrainingRows
  train_pos : 0 < points.train.total
  test_pos : 0 < points.test.total
  within : (commits.countP fun c => decide (c.IsTrainable cutoff)) + points.predict ≤ points.all
  apart : ∀ c ∈ commits, ¬ (c.IsTrainable cutoff ∧ cutoff ≤ c.date)
  buggy : points.train.buggy + points.test.buggy = set.counts.buggy
  clean : points.train.clean + points.test.clean = set.counts.clean
  report : ∀ report, o.report = some report →
    report.classification.buggy.support = points.test.buggy ∧
    report.classification.clean.support = points.test.clean ∧
    report.classification.weightedAvg.support = points.test.total
  prediction : ∀ rows, o.prediction = some rows → rows.length = points.predict ∧
    rows.map Attribution.commit
      = (commits.filter fun c => decide (cutoff ≤ c.date)).map Commit.id

theorem Accounted.finish {p : Pipeline} {table : Table} {commits : List Commit} {cutoff : Int64}
    {set : TrainingSet} {o : Output} {points : DataPoints}
    (h : p.Accounted table commits cutoff set o points) :
    p.Accounted table commits cutoff set o.finish points :=
  ⟨h.all, h.predict, h.used, h.train_pos, h.test_pos, h.within, h.apart, h.buggy, h.clean,
    h.report, h.prediction⟩

theorem accounted_of_buildEnds {p : Pipeline} {now : String} {chance : Chance} {path : String}
    {params : HyperParameters} {table : Table} {q : Quantiles} {files after : Files} {o : Output}
    {points : DataPoints}
    (h : p.BuildEnds now chance path params table (Output.withQuantiles q) files o after)
    (hpoints : o.dataPoints = some points) :
    ∃ commits cutoff set, table.commits p.schema = .ok commits ∧
      p.config.windowStart commits = .ok (.ok cutoff) ∧
      prepare commits cutoff p.config.maxTrainingRows = .ok set ∧
      p.Accounted table commits cutoff set o points := by
  rcases buildEnds_of_points h hpoints with ⟨d, training, test, hdiv, rfl, hreport, hprediction⟩
  rcases p.prepareData_eq_ok table d hdiv.prepared with
    ⟨commits, cutoff, hcommits, hcutoff, hset, _, hwindow⟩
  rcases prepare_size commits cutoff _ d.set hset with ⟨hsize, hlabels⟩
  rcases d.set.split_counts training test _ _ hlabels hdiv.split with
    ⟨hcounts, htrain, htest, htestLabels⟩
  have hpredict : d.window.length = commits.countP fun c => decide (cutoff ≤ c.date) := by
    rw [hwindow, predictionSet, ← List.countP_eq_length_filter]
  have hwithin := countP_trainable_add_window commits cutoff
  rw [table.commits_length p.schema commits hcommits, ← hpredict] at hwithin
  -- The rows of both parts are those of the set, of either label as of both.
  have hused : training.counts.total + test.counts.total
      = min (commits.countP fun c => decide (c.IsTrainable cutoff)) p.config.maxTrainingRows := by
    have hbuggy := hcounts true
    have hclean := hcounts false
    have htotal := d.set.counts_total
    rw [hsize, length_trainable, Nat.min_comm] at htotal
    rw [← htotal]
    simp only [LabelCounts.total, TrainingSet.counts]
    omega
  have hids : ∀ rows, o.prediction = some rows →
      rows.map Attribution.commit = d.window.map Commit.id := by
    intro rows hrows
    rcases hprediction rows hrows with ⟨m, mediansScore, hm, hnames, hattributions⟩
    have hwidths := table.commits_width p.schema commits hcommits
    refine p.attributions_commits m hm hnames _ mediansScore d.window (fun c hc => ?_) rows
      hattributions
    rw [hwindow] at hc
    exact hwidths c (List.mem_filter.mp hc).1
  refine ⟨commits, cutoff, d.set, hcommits, hcutoff, hset, rfl, hpredict, hused, ?_, ?_, hwithin,
    fun c _ h => Int64.not_le.mpr h.1.2.2 h.2, hcounts true, hcounts false, ?_, ?_⟩
  · rw [pointsOf, training.counts_total]
    exact List.length_pos_iff.mpr htrain
  · rw [pointsOf, test.counts_total]
    exact List.length_pos_iff.mpr htest
  · intro report h
    rcases hreport report h with ⟨m, hjudge⟩
    exact p.judge_support m test d.medians report htest htestLabels hjudge
  · intro rows hrows
    have hcommit := hids rows hrows
    have hlength := congrArg List.length hcommit
    rw [List.length_map, List.length_map] at hlength
    rw [hwindow] at hcommit
    exact ⟨hlength, hcommit⟩

/-- The figures of a build. Whenever a build says how many rows it used, the rows are
    those of the table it asked for, and every figure is the count that it is said to be:
    of all rows, of those trained and tested with, of those in the window, of those that
    the report rests on and of those that are predicted. -/
theorem build_accounts (p : Pipeline) (source : Source) (now : String) (chance : Chance)
    (path : String) (params : HyperParameters) (collector : Collector) (files : Files)
    (built : Outcome) (hbuilt : p.build source now chance path params collector files = .ok built)
    (points : DataPoints) (hpoints : built.output.dataPoints = some points) :
    ∃ table commits cutoff set, (collector.allCommits source true).1 = .ok table ∧
      table.commits p.schema = .ok commits ∧
      p.config.windowStart commits = .ok (.ok cutoff) ∧
      prepare commits cutoff p.config.maxTrainingRows = .ok set ∧
      p.Accounted table commits cutoff set built.output points := by
  rcases build_ends hbuilt with
    ⟨e, left, _, rfl⟩ | ⟨q, table, o, left, after, _, htable, hends, rfl⟩
  · -- Without quantiles there are no counts.
    cases hpoints
  · rcases accounted_of_buildEnds hends hpoints with
      ⟨commits, cutoff, set, hcommits, hcutoff, hset, haccounts⟩
    exact ⟨table, commits, cutoff, set, htable, hcommits, hcutoff, hset, haccounts.finish⟩

theorem small_build_accounts :
    smallRun = .ok smallBuild ∧
    smallBuild.output.dataPoints = some ⟨4, ⟨1, 0⟩, ⟨0, 1⟩, 2⟩ ∧
    ∃ table commits cutoff set,
      ((Collector.ofJobs .all []).allCommits smallSource true).1 = .ok table ∧
      table.commits smallSchema = .ok commits ∧
      smallPipeline.config.windowStart commits = .ok (.ok cutoff) ∧
      prepare commits cutoff smallPipeline.config.maxTrainingRows = .ok set ∧
      smallPipeline.Accounted table commits cutoff set smallBuild.output
        ⟨4, ⟨1, 0⟩, ⟨0, 1⟩, 2⟩ := by
  have hpoints := smallBuild_found.2.1
  exact ⟨smallRun_eq, hpoints, build_accounts smallPipeline smallSource "1700000000" fixedChance
    "m.apr" ⟨2, some 3, some 7⟩ (.ofJobs .all []) .empty smallBuild smallRun_eq
    ⟨4, ⟨1, 0⟩, ⟨0, 1⟩, 2⟩ hpoints⟩

end Pipeline

end CommitRisk
