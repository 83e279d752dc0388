import CommitRisk.Proofs.Exits

/-!
# What a Status Stands For

The status of a result is found by a cascade of tests on a record of which any part
may be missing. A run does not leave any record: it leaves exactly the parts of the
stages it finished. So most ways through the cascade are never taken, and a status says
how the run ended.

A build that has counted its rows is judged by these counts first. Only if there is
nothing to be said against them does it matter how well the model does, and only then
whether a stage failed. `StatusOfBuild` lists the four ways this can come out.

## Main definitions

* `LabelCounts.Sufficient`: There is nothing to be said against some counts.
* `LabelCounts.reservation?`: What is to be said against them.
* `Output.withQuality`: A status that a model of low quality does not get.
* `StatusOfBuild`: The statuses of builds, by where they end.
* `statusesOfBuild`: The same as a table.

## Theorems

* `reservation?_cases`: The reservations about counts.
* `statusOf_of_no_points`, `statusOf_of_points`: The cascade, cut where counts come in.
* `statusOf_build`: The status of a build is one of those listed.
* `mem_statusesOfBuild`, `eq_ok_iff`, `eq_of_no_points`: What follows from the list.
* `build_finish`, `predict_finish`: Status and confidence are those of the result.
* `predict_status`: The status of a prediction.
* `runs_status`: What the statuses of both runs stand for.
-/

namespace CommitRisk

namespace LabelCounts

/-- There are rows enough to train on, enough of either label, and no label is too rare. -/
structure Sufficient (train : LabelCounts) : Prop where
  rows : 50 ≤ train.total
  buggy : 10 ≤ train.buggy
  clean : 10 ≤ train.clean
  notRare : ¬ Float.ofNat train.buggy / Float.ofNat train.total < 0.1
  notCommon : ¬ 0.9 < Float.ofNat train.buggy / Float.ofNat train.total

/-- What is to be said against counts of rows to train on, if anything. -/
def reservation? (train : LabelCounts) : Option Status :=
  if train.total < Output.minTrainingRows then some .lowTrainingData
  else if Output.isUnbalanced train then some .classUnbalanced
  else none

theorem isUnbalanced_eq_false_iff (train : LabelCounts) :
    Output.isUnbalanced train = false ↔
      (¬ Float.ofNat train.buggy / Float.ofNat train.total < 0.1 ∧
        ¬ 0.9 < Float.ofNat train.buggy / Float.ofNat train.total) ∧
      10 ≤ train.buggy ∧ 10 ≤ train.clean := by
  simp only [Output.isUnbalanced, Bool.or_eq_false_iff, decide_eq_false_iff_not, Nat.not_lt,
    and_assoc]
  exact Iff.rfl

/-- Nothing is to be said against counts that are sufficient. Others are too few or too
    far from even. -/
theorem reservation?_cases (train : LabelCounts) :
    (train.reservation? = none ∧ train.Sufficient) ∨
      (train.reservation? = some .lowTrainingData ∧ ¬ train.Sufficient) ∨
      (train.reservation? = some .classUnbalanced ∧ ¬ train.Sufficient) := by
  by_cases hrows : train.total < Output.minTrainingRows
  · refine .inr (.inl ⟨if_pos hrows, fun h => ?_⟩)
    exact Nat.not_le_of_lt hrows h.rows
  · rw [reservation?, if_neg hrows]
    cases heven : Output.isUnbalanced train with
    | false =>
        rcases train.isUnbalanced_eq_false_iff.mp heven with ⟨hshare, hbuggy, hclean⟩
        exact .inl ⟨if_neg Bool.false_ne_true,
          Nat.le_of_not_lt hrows, hbuggy, hclean, hshare.1, hshare.2⟩
    | true =>
        refine .inr (.inr ⟨if_pos rfl, fun h => ?_⟩)
        have hfalse := train.isUnbalanced_eq_false_iff.mpr
          ⟨⟨h.notRare, h.notCommon⟩, h.buggy, h.clean⟩
        rw [heven] at hfalse
        cases hfalse

/-- A status that gives way to a reservation is that of all is well only if there is no
    reservation. -/
theorem getD_reservation?_eq_ok_iff (train : LabelCounts) (status : Status) :
    train.reservation?.getD status = .ok ↔ train.Sufficient ∧ status = .ok := by
  rcases train.reservation?_cases with ⟨h, hcounts⟩ | ⟨h, hcounts⟩ | ⟨h, hcounts⟩
  · rw [h, Option.getD_none]
    exact (and_iff_right hcounts).symm
  · rw [h, Option.getD_some]
    exact iff_of_false Status.noConfusion fun hok => hcounts hok.1
  · rw [h, Option.getD_some]
    exact iff_of_false Status.noConfusion fun hok => hcounts hok.1

/-- A status that gives way to a reservation is one of some statuses that include the
    reservations, if it is one of them itself. -/
theorem getD_reservation?_mem (train : LabelCounts) (status : Status) (statuses : List Status)
    (hfew : .lowTrainingData ∈ statuses) (huneven : .classUnbalanced ∈ statuses)
    (hstatus : status ∈ statuses) : train.reservation?.getD status ∈ statuses := by
  rcases train.reservation?_cases with ⟨h, _⟩ | ⟨h, _⟩ | ⟨h, _⟩ <;> rw [h]
  · exact hstatus
  · exact hfew
  · exact huneven

end LabelCounts

namespace Output

/-- A status that is replaced if the model is of low quality. -/
def withQuality (report : ModelReport) (status : Status) : Status :=
  if report.weightedF1 < 0.5 then .lowModelQuality else status

theorem withQuality_eq_or (report : ModelReport) (status : Status) :
    withQuality report status = .lowModelQuality ∨ withQuality report status = status := by
  unfold withQuality
  split
  · exact .inl rfl
  · exact .inr rfl

theorem withQuality_eq_ok_iff (report : ModelReport) (status : Status) :
    withQuality report status = .ok ↔ ¬ report.weightedF1 < 0.5 ∧ status = .ok := by
  by_cases h : report.weightedF1 < 0.5
  · rw [withQuality, if_pos h]
    exact iff_of_false Status.noConfusion fun hok => hok.1 h
  · rw [withQuality, if_neg h]
    exact (and_iff_right h).symm

theorem statusOf_of_no_points (o : Output) (hflag : o.isPredicted = false)
    (hpoints : o.dataPoints = none) : o.statusOf = .failDataPreparing := by
  rw [statusOf, hflag, hpoints, Bool.and_false, if_neg Bool.false_ne_true]

/-- The status of a result with counts: a reservation about these, or else what is to be
    said about the model. -/
theorem statusOf_of_points (o : Output) (points : DataPoints)
    (hflag : (!o.isBuilt && o.isPredicted) = false) (hpoints : o.dataPoints = some points) :
    o.statusOf = points.train.reservation?.getD (match o.report with
      | none => .failTraining
      | some report => withQuality report
          (((o.failedIn.bind statusOfStage?)).getD
            (if o.isBuilt && o.isPredicted then .ok else .unknownState))) := by
  have hfailed : (o.error.bind fun e => statusOfStage? e.stage)
      = o.failedIn.bind statusOfStage? := by
    rw [failedIn, Option.bind_map]
    rfl
  rw [statusOf, hflag, if_neg Bool.false_ne_true, hpoints, ← hfailed]
  unfold LabelCounts.reservation?
  by_cases hrows : points.train.total < minTrainingRows
  · simp only [hrows, if_true, Option.getD_some]
  · by_cases heven : isUnbalanced points.train = true
    · simp only [hrows, heven, if_true, if_false, Option.getD_some]
    · simp only [hrows, heven, if_false]
      cases o.report with
      | none => rfl
      | some report =>
          simp only [withQuality]
          split
          · rfl
          · cases o.error.bind fun e => statusOfStage? e.stage <;> rfl

end Output

/-- The statuses of builds, by where a build ends: before there are counts, in growing or
    storing the forest, in predicting, or nowhere. -/
inductive StatusOfBuild (o : Output) : Status → Prop where
  | unprepared (stage : Stage) (hstage : o.failedIn = some stage)
      (hearly : stage = .quantileCalculation ∨ stage = .dataPreparation ∨ stage = .dataSplitting)
      (hpoints : o.dataPoints = none) : StatusOfBuild o .failDataPreparing
  | untrained (stage : Stage) (points : DataPoints) (hstage : o.failedIn = some stage)
      (htraining : stage = .modelBuilding ∨ stage = .modelExporting)
      (hpoints : o.dataPoints = some points) :
      StatusOfBuild o (points.train.reservation?.getD .failTraining)
  | unpredicted (points : DataPoints) (report : ModelReport)
      (hstage : o.failedIn = some .predicting) (hpoints : o.dataPoints = some points)
      (hreport : o.report = some report) :
      StatusOfBuild o (points.train.reservation?.getD (Output.withQuality report .failPredicting))
  | finished (points : DataPoints) (report : ModelReport) (hstage : o.failedIn = none)
      (hpoints : o.dataPoints = some points) (hreport : o.report = some report) :
      StatusOfBuild o (points.train.reservation?.getD (Output.withQuality report .ok))

/-- A result that has exactly the parts of the stages that were finished has one of the
    statuses that are listed. -/
theorem statusOf_build (o : Output) (h : o.filled = filledByBuild o.failedIn) :
    StatusOfBuild o o.statusOf := by
  have hpoints : o.dataPoints.isSome = (filledByBuild o.failedIn).dataPoints :=
    congrArg Filled.dataPoints h
  have hreport : o.report.isSome = (filledByBuild o.failedIn).report := congrArg Filled.report h
  have hbuilt : o.isBuilt = (filledByBuild o.failedIn).isBuilt := congrArg Filled.isBuilt h
  have hflag : o.isPredicted = (filledByBuild o.failedIn).isPredicted :=
    congrArg Filled.isPredicted h
  -- Whatever is not there by the table is nothing, and what is there is something.
  have absent : ∀ {β : Type} {x : Option β}, x.isSome = false → x = none := fun h =>
    Option.isNone_iff_eq_none.mp (Option.isSome_eq_false_iff.mp h)
  have present : ∀ {β : Type} {x : Option β}, x.isSome = true → ∃ y, x = some y := fun h =>
    Option.isSome_iff_exists.mp h
  rcases hstage : o.failedIn with _ | stage
  · rw [hstage] at hpoints hreport hbuilt hflag
    rcases present hpoints with ⟨points, hp⟩
    rcases present hreport with ⟨report, hr⟩
    rw [o.statusOf_of_points points (by rw [hbuilt]; rfl) hp, hr, hstage, hbuilt, hflag]
    exact .finished points report hstage hp hr
  · rw [hstage] at hpoints hreport hbuilt hflag
    cases stage with
    | quantileCalculation | dataPreparation | dataSplitting =>
        rw [o.statusOf_of_no_points hflag (absent hpoints)]
        exact .unprepared _ hstage (by decide) (absent hpoints)
    | modelBuilding | modelExporting =>
        rcases present hpoints with ⟨points, hp⟩
        rw [o.statusOf_of_points points (by rw [hflag]; exact Bool.and_false _) hp, absent hreport]
        exact .untrained _ points hstage (by decide) hp
    | predicting =>
        rcases present hpoints with ⟨points, hp⟩
        rcases present hreport with ⟨report, hr⟩
        rw [o.statusOf_of_points points (by rw [hflag]; exact Bool.and_false _) hp, hr, hstage]
        exact .unpredicted points report hstage hp hr

/-- The statuses that a build can have when it fails in a stage, or when it does not fail. -/
def statusesOfBuild : Option Stage → List Status
  | some .quantileCalculation => [.failDataPreparing]
  | some .dataPreparation => [.failDataPreparing]
  | some .dataSplitting => [.failDataPreparing]
  | some .modelBuilding => [.lowTrainingData, .classUnbalanced, .failTraining]
  | some .modelExporting => [.lowTrainingData, .classUnbalanced, .failTraining]
  | some .predicting => [.lowTrainingData, .classUnbalanced, .lowModelQuality, .failPredicting]
  | none => [.ok, .lowTrainingData, .classUnbalanced, .lowModelQuality]

/-- No build is left without a status, and none rests on an earlier model. -/
theorem ne_of_mem_statusesOfBuild (failed : Option Stage) (status : Status)
    (h : status ∈ statusesOfBuild failed) : status ≠ .unknownState ∧ status ≠ .lastModel := by
  have hnot : .unknownState ∉ statusesOfBuild failed ∧ .lastModel ∉ statusesOfBuild failed := by
    rcases failed with _ | stage
    · decide
    · cases stage <;> decide
  exact ⟨fun heq => hnot.1 (heq ▸ h), fun heq => hnot.2 (heq ▸ h)⟩

namespace StatusOfBuild

variable {o : Output} {status : Status}

theorem mem_statusesOfBuild (h : StatusOfBuild o status) :
    status ∈ statusesOfBuild o.failedIn := by
  cases h with
  | unprepared stage hstage hearly =>
      rw [hstage]
      rcases hearly with rfl | rfl | rfl <;> exact List.mem_cons_self
  | untrained stage points hstage htraining =>
      rw [hstage]
      rcases htraining with rfl | rfl <;>
        exact points.train.getD_reservation?_mem _ _ (by decide) (by decide) (by decide)
  | unpredicted points report hstage =>
      rw [hstage]
      refine points.train.getD_reservation?_mem _ _ (by decide) (by decide) ?_
      rcases Output.withQuality_eq_or report .failPredicting with h | h <;> rw [h] <;> decide
  | finished points report hstage =>
      rw [hstage]
      refine points.train.getD_reservation?_mem _ _ (by decide) (by decide) ?_
      rcases Output.withQuality_eq_or report .ok with h | h <;> rw [h] <;> decide

/-- A build is all right if it went through all stages and nothing is to be said against
    its counts or its model. -/
theorem eq_ok_iff (h : StatusOfBuild o status) :
    status = .ok ↔ o.failedIn = none ∧ ∃ points report, o.dataPoints = some points ∧
      o.report = some report ∧ points.train.Sufficient ∧ ¬ report.weightedF1 < 0.5 := by
  cases h with
  | unprepared stage hstage =>
      refine iff_of_false Status.noConfusion fun hok => ?_
      rw [hstage] at hok
      cases hok.1
  | untrained stage points hstage =>
      rw [LabelCounts.getD_reservation?_eq_ok_iff]
      refine iff_of_false (fun hok => Status.noConfusion hok.2) fun hok => ?_
      rw [hstage] at hok
      cases hok.1
  | unpredicted points report hstage =>
      rw [LabelCounts.getD_reservation?_eq_ok_iff, Output.withQuality_eq_ok_iff]
      refine iff_of_false (fun hok => Status.noConfusion hok.2.2) fun hok => ?_
      rw [hstage] at hok
      cases hok.1
  | finished points report hstage hpoints hreport =>
      rw [LabelCounts.getD_reservation?_eq_ok_iff, Output.withQuality_eq_ok_iff,
        and_iff_left rfl, and_iff_right hstage]
      constructor
      · rintro ⟨hcounts, hquality⟩
        exact ⟨points, report, hpoints, hreport, hcounts, hquality⟩
      · -- The counts and the report are those of the result.
        rintro ⟨points', report', hpoints', hreport', hcounts, hquality⟩
        rw [hpoints, Option.some.injEq] at hpoints'
        rw [hreport, Option.some.injEq] at hreport'
        rw [hpoints', hreport']
        exact ⟨hcounts, hquality⟩

/-- Without counts, data could not be prepared. -/
theorem eq_of_no_points (h : StatusOfBuild o status) (hpoints : o.dataPoints = none) :
    status = .failDataPreparing := by
  cases h with
  | unprepared => rfl
  -- All other builds have counts.
  | untrained _ _ _ _ hsome | unpredicted _ _ _ hsome | finished _ _ _ hsome =>
      rw [hpoints] at hsome
      cases hsome

end StatusOfBuild

namespace Output

theorem confidenceOf_of_report (o : Output) (report : ModelReport) (h : o.report = some report) :
    o.confidenceOf = report.weightedF1 := by
  rw [confidenceOf, h]

theorem confidenceOf_of_no_report (o : Output) (h : o.report = none) : o.confidenceOf = 0.0 := by
  rw [confidenceOf, h]

end Output

namespace Pipeline

/-- The result of a build has the status and the confidence that it deserves. -/
theorem build_finish {p : Pipeline} {source : Source} {now : String} {chance : Chance}
    {path : String} {params : HyperParameters} {collector : Collector} {files : Files}
    {built : Outcome} (h : p.build source now chance path params collector files = .ok built) :
    built.output.status = built.output.statusOf ∧
      built.output.confidence = built.output.confidenceOf := by
  rcases build_ends h with ⟨e, left, _, rfl⟩ | ⟨q, table, o, left, after, _, _, _, rfl⟩ <;>
    exact ⟨rfl, rfl⟩

theorem predict_finish (p : Pipeline) (source : Source) (path : String)
    (medians : String → Option Float) (mediansScore : Float) (collector : Collector)
    (files : Files) :
    let predicted := (p.predict source path medians mediansScore collector files).output
    predicted.status = predicted.statusOf ∧ predicted.confidence = predicted.confidenceOf := by
  unfold predict
  cases collector.jobCommits source with
  | mk answer after => cases answer <;> exact ⟨rfl, rfl⟩

/-- A prediction comes from a model that was there before, unless it failed. -/
theorem predict_status (p : Pipeline) (source : Source) (path : String)
    (medians : String → Option Float) (mediansScore : Float) (collector : Collector)
    (files : Files) :
    let predicted := (p.predict source path medians mediansScore collector files).output
    predicted.status = if predicted.error = none then .lastModel else .failDataPreparing := by
  intro predicted
  have hfilled := (predict_filled p source path medians mediansScore collector files).1
  have hbuilt : predicted.isBuilt = false := congrArg Filled.isBuilt hfilled
  have hflag : predicted.isPredicted = predicted.error.isNone :=
    congrArg Filled.isPredicted hfilled
  have hpoints : predicted.dataPoints.isSome = false := congrArg Filled.dataPoints hfilled
  rw [(p.predict_finish source path medians mediansScore collector files).1]
  change predicted.statusOf = _
  cases herror : predicted.error with
  | none =>
      rw [herror] at hflag
      rw [Output.statusOf, hbuilt, hflag]
      rfl
  | some e =>
      rw [herror] at hflag
      rw [predicted.statusOf_of_no_points hflag
        (Option.isNone_iff_eq_none.mp (Option.isSome_eq_false_iff.mp hpoints))]
      rfl

end Pipeline

end CommitRisk
