import CommitRisk.Proofs.Replay

/-!
# Commits Do Not Mix

Attribution asks the model dimension by dimension and puts the answers together
commit by commit. With a model that scores row by row, a commit's result is the
same in every batch: a batch in two parts gives the results of the first part and
then those of the second. It does not matter what the other commits are, whether
they lack metrics or what they score.

Every result names its commit and has one contribution for every dimension, in
declared order. Names and contributions are zipped, so this takes that there are as
many contributions as dimensions, whichever way they come about.

Widths are checked before anything is scored, commit by commit, and the first commit
of another width is the one that is reported.

## Theorems

* `length_redistribute`: One contribution for each lift.
* `attributeOne_dimensions`: A result has all dimensions in order.
* `attributions_of_otherWidth`: The first commit of another width ends it.
* `width_of_batches`, `width_of_attributions`: Commits that are scored have the right width.
* `attributions_append`: A batch in two parts.
-/

namespace CommitRisk

variable {α : Type} [Scalar α]

theorem length_redistribute (lifts : List α) (score : α) :
    (redistribute lifts score).length = lifts.length := by
  dsimp only [redistribute]
  split
  · rw [List.length_map]
  · rw [List.length_map, List.length_map]

namespace Engine

theorem attributeOne_dimensions (e : Engine α) (commit : String) (score : α) (byDimension : List α)
    (h : byDimension.length = e.schema.dimensions.length) :
    (e.attributeOne commit score byDimension).contributions.map Prod.fst
      = e.schema.dimensionNames := by
  have hnames : e.schema.dimensionNames.length = byDimension.length := by
    rw [h, Schema.dimensionNames, List.length_map]
  unfold attributeOne
  refine List.map_fst_zip ?_
  -- There are as many contributions as dimensions, shared out or all zero.
  split
  · rw [List.length_map]
    exact Nat.le_of_eq hnames
  · rw [length_redistribute, List.length_map]
    exact Nat.le_of_eq hnames

theorem attributionOf_dimensions (e : Engine α) (score : List Float → α) (c : Commit) :
    (e.attributionOf score c).contributions.map Prod.fst = e.schema.dimensionNames :=
  e.attributeOne_dimensions c.id _ _ (by rw [List.length_map, Schema.masks, List.length_map,
    List.length_range])

theorem attributions_of_otherWidth (e : Engine α) (commits : List Commit) (c : Commit)
    (h : commits.find? (fun c => decide (c.metrics.length ≠ e.schema.width)) = some c) :
    e.attributions commits = .error (.rowWidth c.id e.schema.width c.metrics.length) := by
  rcases List.find?_eq_some_iff_append.mp h with ⟨hother, before, after, rfl, hbefore⟩
  have hrow : row e.schema c = .error (.rowWidth c.id e.schema.width c.metrics.length) := by
    rw [row, if_neg (of_decide_eq_true hother)]
  have hrows : ∀ b ∈ before, row e.schema b = .ok (rowOf b) := by
    intro b hb
    refine row_eq e.schema b ?_
    simpa only [Bool.not_eq_eq_eq_not, Bool.not_true, decide_eq_false_iff_not, ne_eq,
      not_not] using hbefore b hb
  -- The rows are made first, so the model is not asked.
  unfold attributions batches
  rw [mapM_eq_error (row e.schema) rowOf before c after _ hrows hrow]
  rfl

omit [Scalar α] in
/-- Commits that have rows have the right width, all of them. -/
theorem width_of_batches (e : Engine α) (commits : List Commit)
    (batches : List (List (List Float))) (h : e.batches commits = .ok batches) :
    ∀ c ∈ commits, c.metrics.length = e.schema.width := by
  rcases (bind_eq_ok _ _ _).mp h with ⟨rows, hrows, _⟩
  intro c hc
  rcases (mapM_isOk_iff (row e.schema) commits).mp ⟨rows, hrows⟩ c hc with ⟨cells, hcells⟩
  by_contra hother
  rw [row, if_neg hother] at hcells
  cases hcells

/-- So have commits that have results. -/
theorem width_of_attributions (e : Engine α) (commits : List Commit)
    (results : List (Attribution α)) (h : e.attributions commits = .ok results) :
    ∀ c ∈ commits, c.metrics.length = e.schema.width := by
  rcases (bind_eq_ok _ _ _).mp h with ⟨batches, hbatches, _⟩
  exact e.width_of_batches commits batches hbatches

/-- Commits do not mix. If all of them have as many metrics as the schema, the results of
    two batches in a row are the results of the first and then those of the second, in
    the order of the commits, and every result has all dimensions in declared order. If
    not, the first commit of another width is reported and there are no results. -/
theorem attributions_append (e : Engine α) (score : List Float → α)
    (hmodel : e.model.ScoresRows e.schema.width score) (xs ys : List Commit) :
    ((∀ c ∈ xs ++ ys, c.metrics.length = e.schema.width) →
      ∃ first second, e.attributions xs = .ok first ∧ e.attributions ys = .ok second ∧
        e.attributions (xs ++ ys) = .ok (first ++ second) ∧
        (first ++ second).map Attribution.commit = (xs ++ ys).map Commit.id ∧
        ∀ r ∈ first ++ second, r.contributions.map Prod.fst = e.schema.dimensionNames) ∧
    ∀ c, (xs ++ ys).find? (fun c => decide (c.metrics.length ≠ e.schema.width)) = some c →
      e.attributions (xs ++ ys) = .error (.rowWidth c.id e.schema.width c.metrics.length) := by
  refine ⟨fun hwidth => ?_, fun c hc => e.attributions_of_otherWidth _ c hc⟩
  refine ⟨xs.map (e.attributionOf score), ys.map (e.attributionOf score), ?_, ?_, ?_, ?_, ?_⟩
  · exact e.attributions_eq_map score hmodel xs fun c hc => hwidth c (List.mem_append_left ys hc)
  · exact e.attributions_eq_map score hmodel ys fun c hc => hwidth c (List.mem_append_right xs hc)
  · rw [e.attributions_eq_map score hmodel _ hwidth, List.map_append]
  · rw [← List.map_append, List.map_map]
    rfl
  · intro r hr
    rw [← List.map_append] at hr
    rcases List.mem_map.mp hr with ⟨c, _, rfl⟩
    exact e.attributionOf_dimensions score c

end Engine

/-- A stored model with one question: more than one line added goes to the buggy class. -/
def stump : PortableModel where
  names := smallSchema.features
  forest := {
    ensemble := {
      trees := [⟨some (.split 0 1.0 (.leaf 0 1) (.leaf 1 1)), some 1, some 2⟩]
      params := ⟨1, some 1, none⟩
      outOfBag := [[]]
      samples := some ⟨[1.0, 5.0, 2.0, 4.0], 2, 2⟩
      labels := some [0, 1] }
    width := 2
    params := ⟨1, some 1, none⟩
    importances := [1.0, 0.0] }
  note := ⟨"0.1.0", "0", 2, none⟩

def stumpEngine : Engine Float where
  model := stump.model
  schema := smallSchema
  baseline := ⟨[("la", 2.0), ("exp", 4.0)]⟩
  mediansScore := 1.0
  baseline_width := rfl

/-- A commit with all metrics. -/
def fullCommit : Commit := ⟨"a", 0, [some 1.0, some 5.0], some false⟩

/-- A commit that lacks a metric. -/
def gappedCommit : Commit := ⟨"b", 1, [none, some 3.0], none⟩

/-- A commit with a metric too few. -/
def narrowCommit : Commit := ⟨"c", 2, [some 1.0], none⟩

theorem attributions_append_stump :
    (∃ first second, stumpEngine.attributions [fullCommit] = .ok first ∧
      stumpEngine.attributions [gappedCommit] = .ok second ∧
      stumpEngine.attributions [fullCommit, gappedCommit] = .ok (first ++ second) ∧
      (first ++ second).map Attribution.commit = ["a", "b"] ∧
      ∀ r ∈ first ++ second, r.contributions.map Prod.fst = ["size", "experience"]) ∧
    stumpEngine.attributions [fullCommit, narrowCommit, gappedCommit]
      = .error (.rowWidth "c" 2 1) := by
  have hmodel : stumpEngine.model.ScoresRows stumpEngine.schema.width stump.forest.score :=
    stump.scoresRows ⟨rfl, rfl⟩
  refine ⟨?_, ?_⟩
  · refine (stumpEngine.attributions_append stump.forest.score hmodel [fullCommit]
      [gappedCommit]).1 fun c hc => ?_
    rcases List.mem_cons.mp hc with rfl | hc
    · rfl
    · rw [List.mem_singleton.mp hc]
      rfl
  · exact (stumpEngine.attributions_append stump.forest.score hmodel [fullCommit]
      [narrowCommit, gappedCommit]).2 narrowCommit rfl

end CommitRisk
