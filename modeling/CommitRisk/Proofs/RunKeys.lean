import CommitRisk.Proofs.Finiteness
import CommitRisk.Proofs.PayloadKeys
import CommitRisk.Proofs.Predictions
import CommitRisk.Proofs.QuantileTables

/-!
# The Keys in the Results of Runs

A run names what it reports by its schema and by the columns of the tables. The medians have the
names of the features, the importances the first of them, and the entries of a quantile table are
kept by their names, at whatever steps it is worked out. All of these come once each.

The contributions of an attribution have the names of the dimensions. These come once each too,
but a schema may use the two names that an attribution has of its own, and then every row of a
prediction has a key twice. Nothing else in a run does that, so its payload can be read by its
keys exactly if there is no such row in it.

## Main definitions

* `Output.NamedBy`: The names in a result are those of a schema, and steps and columns come once.

## Theorems

* `namesOnce_of_quantileTable`, `namesOnce_of_quantiles`: The names in quantiles.
* `importances_of_judge`: The names in a report are those of the model.
* `dimensions_of_attributions`: The names in attributions are those of the dimensions.
* `namedBy_build`, `namedBy_predict`: The names in the results of runs.
* `nodup_attribution_iff`: When an attribution has a key twice.
* `distinctKeys_of_namedBy`: When the payload of a run can be read by its keys.
* `payload_lossless`: What is read from a payload, and when it can be read by keys.
-/

namespace CommitRisk

/-! ## The names in the parts of a result -/

theorem namesOnce_of_quantileTable (steps : List Float) (excluded : List String) (t : Table)
    (q : QuantileTable) (h : quantileTable steps excluded t = .ok q) : q.NamesOnce := by
  rw [quantileTable_eq_bind] at h
  rcases (bind_eq_ok _ _ _).mp h with ⟨columns, _, hq⟩
  cases hq
  refine ⟨(rising_byName _).imp ne_of_lt, fun entry hentry => ?_⟩
  rcases List.mem_map.mp (mem_of_mem_byName _ entry hentry) with ⟨step, _, rfl⟩
  exact (rising_byName _).imp ne_of_lt

/-- Quantiles that are worked out are three quantile tables. -/
theorem namesOnce_of_quantiles (source : Source) (c after : Collector) (q : Quantiles)
    (h : c.quantiles source = (.ok q, after)) :
    ∀ t ∈ [q.commit, q.file, q.developer], QuantileTable.NamesOnce t := by
  unfold Collector.quantiles at h
  -- Whatever fails on the way leaves no quantiles.
  split at h
  · cases h
  · split at h
    · cases h
    · rename_i commit hcommit
      split at h
      · cases h
      · split at h
        · cases h
        · rename_i file hfile
          split at h
          · cases h
          · split at h
            · cases h
            · rename_i developer hdeveloper
              cases h
              simp only [List.forall_mem_cons, List.not_mem_nil, false_imp_iff, implies_true,
                and_true]
              exact ⟨namesOnce_of_quantileTable _ _ _ _ hcommit,
                namesOnce_of_quantileTable _ _ _ _ hfile,
                namesOnce_of_quantileTable _ _ _ _ hdeveloper⟩

theorem sublist_map_fst_zip {α β : Type} (xs : List α) (ys : List β) :
    ((xs.zip ys).map Prod.fst).Sublist xs := by
  induction xs generalizing ys with
  | nil => exact List.Sublist.refl _
  | cons x xs ih =>
      cases ys with
      | nil => exact List.nil_sublist _
      | cons y ys => exact (ih ys).cons_cons x

namespace Pipeline

variable (p : Pipeline)

theorem medians_of_prepareData (table : Table) (d : Prepared)
    (h : p.prepareData table = .ok (.ok d)) :
    ∀ v ∈ [d.medians.all, d.medians.buggy, d.medians.clean],
      v.entries.map Prod.fst = p.schema.features := by
  rcases p.prepareData_eq_ok table d h with ⟨_, _, _, _, _, hmedians, _⟩
  rw [hmedians]
  simp only [ModelMedians.ofSet, List.forall_mem_cons, columnMedians_names, List.not_mem_nil,
    false_imp_iff, implies_true, and_self]

/-- A report lists the names of the model as far as there are importances. -/
theorem importances_of_judge (m : PortableModel) (test : TrainingSet) (medians : ModelMedians)
    (report : ModelReport) (h : p.judge m test medians = .ok report) :
    (report.importances.map Prod.fst).Sublist m.names := by
  unfold judge at h
  cases hclassified : evaluate m.model test p.config.decisionThreshold with
  | error e => simp only [hclassified, reduceCtorEq] at h
  | ok classification =>
      simp only [hclassified] at h
      cases hscore : m.model.predictOne medians.all.values with
      | error e => simp only [hscore, reduceCtorEq] at h
      | ok score =>
          simp only [hscore, Except.ok.injEq] at h
          rw [← h]
          exact sublist_map_fst_zip m.names m.forest.importances

theorem dimensions_of_attributions (m : PortableModel)
    (baseline : Except AttributionError NamedValues) (mediansScore : Float)
    (commits : List Commit) (rows : List (Attribution Float))
    (h : p.attributions m baseline mediansScore commits = .ok rows) :
    ∀ a ∈ rows, a.contributions.map Prod.fst = p.schema.dimensionNames := by
  rcases (bind_eq_ok _ _ _).mp h with ⟨b, _, hengine⟩
  rcases (bind_eq_ok _ _ _).mp hengine with ⟨e, he, hrows⟩
  rcases Engine.ofBaseline_eq_ok _ _ _ _ e he with ⟨_, hschema, _, _⟩
  rcases e.attributions_eq_collect commits rows hrows with ⟨scores, byDimension, _, hlength, rfl⟩
  intro a ha
  rcases List.mem_map.mp ha with ⟨asked, _, rfl⟩
  rw [← hschema]
  exact e.attributeOne_dimensions _ _ _ (by rw [List.length_map, hlength])

end Pipeline

/-! ## The names in a result -/

/-- The names in a result are those of a schema, and steps and columns come once each. -/
structure Output.NamedBy (s : Schema) (o : Output) : Prop where
  importances : ∀ r, o.report = some r → (r.importances.map Prod.fst).Sublist s.features
  medians : ∀ m, o.medians = some m →
    ∀ v ∈ [m.all, m.buggy, m.clean], v.entries.map Prod.fst = s.features
  quantiles : ∀ q, o.quantiles = some q →
    ∀ t ∈ [q.commit, q.file, q.developer], QuantileTable.NamesOnce t
  rows : ∀ rows, o.prediction = some rows →
    ∀ a ∈ rows, a.contributions.map Prod.fst = s.dimensionNames

theorem forall_some {α : Type} {P : α → Prop} {x : α} (h : P x) : ∀ y, some x = some y → P y := by
  rintro y ⟨⟩
  exact h

namespace Pipeline

theorem namedBy_buildEnds {p : Pipeline} {now : String} {chance : Chance} {path : String}
    {params : HyperParameters} {table : Table} {q : Quantiles} {files after : Files} {o : Output}
    (hq : ∀ t ∈ [q.commit, q.file, q.developer], QuantileTable.NamesOnce t)
    (h : p.BuildEnds now chance path params table (Output.withQuantiles q) files o after) :
    o.NamedBy p.schema := by
  have hmedians : ∀ d, p.prepareData table = .ok (.ok d) → ∀ m, some d.medians = some m →
      ∀ v ∈ [m.all, m.buggy, m.clean], v.entries.map Prod.fst = p.schema.features :=
    fun d hprep => forall_some (p.medians_of_prepareData table d hprep)
  have hreport : ∀ {d training test forest stored left report},
      Judged p now chance path params table files d training test forest stored left report →
      ∀ r, some report = some r → (r.importances.map Prod.fst).Sublist p.schema.features := by
    intro d training test forest stored left report hjudge
    refine forall_some ?_
    rw [← (p.exportModel_eq_ok now path _ stored files left hjudge.exported).2]
    exact p.importances_of_judge stored test d.medians report hjudge.judged
  -- The quantiles are there from the beginning, and each stage adds a part.
  cases h with
  | unprepared message h => exact ⟨nofun, nofun, forall_some hq, nofun⟩
  | undivided d e hprep h => exact ⟨nofun, hmedians d hprep, forall_some hq, nofun⟩
  | unfitted d training test e hdiv h =>
      exact ⟨nofun, hmedians d hdiv.prepared, forall_some hq, nofun⟩
  | unexported d training test forest e _ hfit h =>
      exact ⟨nofun, hmedians d hfit.prepared, forall_some hq, nofun⟩
  | unjudged d training test forest stored _ e hexp h =>
      exact ⟨nofun, hmedians d hexp.prepared, forall_some hq, nofun⟩
  | unpredicted d training test forest stored _ report e hjudge h =>
      exact ⟨hreport hjudge, hmedians d hjudge.prepared, forall_some hq, nofun⟩
  | finished d training test forest stored _ report rows hjudge h =>
      exact ⟨hreport hjudge, hmedians d hjudge.prepared, forall_some hq,
        forall_some (p.dimensions_of_attributions stored _ _ _ rows h)⟩

theorem namedBy_build {p : Pipeline} {source : Source} {now : String} {chance : Chance}
    {path : String} {params : HyperParameters} {collector : Collector} {files : Files}
    {built : Outcome}
    (h : p.build source now chance path params collector files = .ok built) :
    built.output.NamedBy p.schema := by
  rcases build_ends h with
    ⟨e, left, _, rfl⟩ | ⟨q, table, o, left, after, hq, _, hends, rfl⟩
  · exact ⟨nofun, nofun, nofun, nofun⟩
  · have hnamed := namedBy_buildEnds (namesOnce_of_quantiles source collector left q hq) hends
    exact ⟨hnamed.importances, hnamed.medians, hnamed.quantiles, hnamed.rows⟩

theorem namedBy_predict (p : Pipeline) (source : Source) (path : String)
    (medians : String → Option Float) (mediansScore : Float) (collector : Collector)
    (files : Files) :
    (p.predict source path medians mediansScore collector files).output.NamedBy p.schema := by
  rcases p.predict_ends source path medians mediansScore collector files with
    ⟨message, houtput⟩ | ⟨table, ended, _, hends, houtput⟩
  · rw [houtput]
    exact ⟨nofun, nofun, nofun, nofun⟩
  · rw [houtput]
    cases hends with
    | finished commits m rows hread hload hsuits h =>
        exact ⟨nofun, nofun, nofun, forall_some (p.dimensions_of_attributions m _ _ _ rows h)⟩
    | _ => exact ⟨nofun, nofun, nofun, nofun⟩

end Pipeline

/-! ## Distinct keys -/

/-- An attribution has a key twice exactly if a dimension is named like its score or its
    commit. -/
theorem nodup_attribution_iff (s : Schema) :
    (s.dimensionNames ++ ["score", "commit_id"]).Nodup ↔
      ∀ d ∈ s.dimensions, d.name ≠ "score" ∧ d.name ≠ "commit_id" := by
  have hnames : s.dimensionNames.Nodup := s.partition.names_nodup
  have hown : ["score", "commit_id"].Nodup := by decide
  rw [List.nodup_append, and_iff_right hnames, and_iff_right hown]
  simp only [Schema.dimensionNames, List.forall_mem_map, List.forall_mem_cons, List.not_mem_nil,
    false_imp_iff, implies_true, and_true]

example : ¬ (Attribution.toJson ⟨"a1", 0.5, [("size", 0.2), ("score", 0.3)]⟩).DistinctKeys :=
  fun h => absurd ((Attribution.distinctKeys_iff _).mp h) (by decide)

/-- A result with the names of a schema has distinct keys exactly if it has no attribution or
    none has a key twice. -/
theorem distinctKeys_of_namedBy (s : Schema) (o : Output) (h : o.NamedBy s) :
    o.toJson.DistinctKeys ↔
      (∀ rows, o.prediction = some rows → rows = []) ∨
        ∀ d ∈ s.dimensions, d.name ≠ "score" ∧ d.name ≠ "commit_id" := by
  have hrows : o.toJson.DistinctKeys ↔
      ∀ rows, o.prediction = some rows → ∀ a ∈ rows,
        ∀ d ∈ s.dimensions, d.name ≠ "score" ∧ d.name ≠ "commit_id" := by
    have hreport : ∀ r, o.report = some r → r.toJson.DistinctKeys := fun r hr =>
      r.distinctKeys_iff.mpr (s.partition.features_nodup.sublist (h.importances r hr))
    have hmedians : ∀ m, o.medians = some m → m.toJson.DistinctKeys := by
      refine fun m hm => m.distinctKeys_iff.mpr fun v hv => ?_
      rw [h.medians m hm v hv]
      exact s.partition.features_nodup
    have hquantiles : ∀ q, o.quantiles = some q → q.toJson.DistinctKeys := fun q hq =>
      q.distinctKeys_iff.mpr (h.quantiles q hq)
    rw [o.distinctKeys_iff, and_iff_right hreport, and_iff_right hmedians,
      and_iff_right hquantiles]
    refine forall₂_congr fun rows hpred => forall₂_congr fun a ha => ?_
    rw [a.distinctKeys_iff, h.rows rows hpred a ha, nodup_attribution_iff]
  rw [hrows]
  constructor
  · intro hfree
    cases hpred : o.prediction with
    | none => exact .inl nofun
    | some rows =>
        cases rows with
        | nil => exact .inl (forall_some rfl)
        | cons a rest => exact .inr (hfree _ hpred a List.mem_cons_self)
  · rintro (hempty | hfree) rows hpred a ha
    · rw [hempty rows hpred] at ha
      exact absurd ha List.not_mem_nil
    · exact hfree

/-- What is printed of any result is read as its payload, with its members in order, each text
    character for character and each number as it is printed. The payload of a run has distinct
    keys, so every value in it can be read by its key, exactly if there is no row in its
    prediction or no dimension is named like the score or the commit of an attribution. -/
theorem payload_lossless :
    (∀ o : Output, Json.parse? o.text = some o.toJson ∧ o.shape o.toJson) ∧
    ∀ (p : Pipeline) (source : Source) (now : String) (chance : Chance) (path : String)
      (params : HyperParameters) (medians : String → Option Float) (mediansScore : Float)
      (collector : Collector) (files : Files) (o : Output),
      (∃ built, p.build source now chance path params collector files = .ok built ∧
          o = built.output) ∨
        o = (p.predict source path medians mediansScore collector files).output →
      (o.toJson.DistinctKeys → o.toJson.ReadByKey) ∧
      (o.toJson.DistinctKeys ↔
        (∀ rows, o.prediction = some rows → rows = []) ∨
          ∀ d ∈ p.schema.dimensions, d.name ≠ "score" ∧ d.name ≠ "commit_id") := by
  refine ⟨fun o => ⟨o.parse?_text, o.fits.shaped⟩, ?_⟩
  intro p source now chance path params medians mediansScore collector files o ho
  have hnamed : o.NamedBy p.schema := by
    rcases ho with ⟨built, hbuilt, rfl⟩ | rfl
    · exact Pipeline.namedBy_build hbuilt
    · exact p.namedBy_predict source path medians mediansScore collector files
  exact ⟨Json.DistinctKeys.readByKey, distinctKeys_of_namedBy p.schema o hnamed⟩

/-- The dimensions of the small build are named neither like the score nor like the commit. -/
theorem small_payload_lossless :
    smallRun = .ok smallBuild ∧
    Json.parse? smallBuild.output.text = some smallBuild.output.toJson ∧
    smallBuild.output.toJson.ReadByKey := by
  rcases payload_lossless with ⟨hread, hkeys⟩
  rcases hkeys smallPipeline smallSource "1700000000" fixedChance "m.apr" ⟨2, some 3, some 7⟩
    (fun _ => none) 0.0 (.ofJobs .all []) .empty smallBuild.output
    (.inl ⟨smallBuild, smallRun_eq, rfl⟩) with ⟨hback, hdistinct⟩
  exact ⟨smallRun_eq, (hread smallBuild.output).1, hback (hdistinct.mpr (.inr (by decide)))⟩

end CommitRisk
