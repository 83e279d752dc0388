import CommitRisk.Archive.Model
import CommitRisk.Attribution.Basic
import CommitRisk.Proofs.Checked
import CommitRisk.Proofs.Partitions

/-!
# Attribution Row by Row

The engine asks its model about whole batches, one for the commits as they are
and one for every dimension, and puts the answers together again by position.
If the model scores every row by itself, none of this shows: the attribution of
a batch is the list of the attributions of its commits, `attributionOf`, and
what else is in the batch does not matter.

Forests are such models. A stored model has to have as many names as its forest
has columns before it scores anything, and after that it scores like its
forest.

## Main definitions

* `RiskModel.ScoresRows`: The model scores rows of a width one by one.
* `Engine.rowOf`: The row of a commit.
* `Engine.attributionOf`: The attribution of a commit by itself.

## Theorems

* `firstOfOtherWidth?_eq_none`: No row is refused exactly if all have the width.
* `Forest.scoresRows`, `PortableModel.scoresRows`: Forests score row by row.
* `PortableModel.usable_of_predict`: A model that has scored anything is usable.
* `holdAtBaseline_length`: Rows that are held at the baseline keep their width.
* `batches_eq`: The batches of commits of the right width.
* `attributions_eq_map`: The attributions of a batch, commit by commit.
-/

namespace CommitRisk

/-- The model answers a batch of rows of the given width with the score of each
    of them. -/
def RiskModel.ScoresRows {α : Type} (m : RiskModel α) (width : Nat) (score : List Float → α) :
    Prop :=
  ∀ rows : List (List Float), (∀ row ∈ rows, row.length = width) →
    m.predict rows = .ok (rows.map score)

theorem firstOfOtherWidth?_eq_none (width row : Nat) (rows : List (List Float)) :
    firstOfOtherWidth? width row rows = none ↔ ∀ cells ∈ rows, cells.length = width := by
  induction rows generalizing row with
  | nil => simp only [firstOfOtherWidth?, List.not_mem_nil, false_implies, implies_true]
  | cons cells rest ih =>
      unfold firstOfOtherWidth?
      by_cases h : cells.length = width
      · rw [if_pos h, ih]
        simp only [List.mem_cons, forall_eq_or_imp, h, true_and]
      · rw [if_neg h]
        simp only [List.mem_cons, forall_eq_or_imp, h, false_and, reduceCtorEq]

theorem Forest.scoresRows (f : Forest) (hfit : f.isFitted = true) :
    f.model.ScoresRows f.width f.score := by
  intro rows hrows
  simp only [Forest.model, hfit, Bool.not_true, Bool.false_eq_true, if_false,
    (firstOfOtherWidth?_eq_none f.width 0 rows).mpr hrows]

/-- A stored model can be asked for scores: its forest is fitted and has as many
    columns as are named. -/
def PortableModel.Usable (m : PortableModel) : Prop :=
  m.forest.width = m.names.length ∧ m.forest.isFitted = true

theorem PortableModel.scoresRows (m : PortableModel) (h : m.Usable) :
    m.model.ScoresRows m.names.length m.forest.score := by
  intro rows hrows
  have hforest := m.forest.scoresRows h.2 rows (by rw [h.1]; exact hrows)
  simp only [PortableModel.model, h.1, ne_eq, not_true_eq_false, if_false, hforest]

theorem PortableModel.usable_of_predict (m : PortableModel) (rows : List (List Float))
    (scores : List Float) (h : m.model.predict rows = .ok scores) : m.Usable := by
  unfold PortableModel.model at h
  by_cases hnames : m.forest.width = m.names.length
  · simp only [hnames, ne_eq, not_true_eq_false, if_false, Forest.model] at h
    -- A forest that is not fitted refuses every batch.
    by_cases hfit : m.forest.isFitted = true
    · exact ⟨hnames, hfit⟩
    · simp only [hfit, Bool.not_false, if_true, reduceCtorEq] at h
  · simp only [hnames, ne_eq, not_false_eq_true, if_true, reduceCtorEq] at h

theorem Schema.length_of_mem_masks (s : Schema) (mask : List Bool) (h : mask ∈ s.masks) :
    mask.length = s.width := by
  rcases List.mem_map.mp h with ⟨d, _, rfl⟩
  exact s.mask_length d

namespace Engine

/-- The row of a commit, with missing metrics as not a number. -/
def rowOf (c : Commit) : List Float :=
  c.metrics.map fun m => m.getD Scalar.nan

theorem row_eq (s : Schema) (c : Commit) (h : c.metrics.length = s.width) :
    row s c = .ok (rowOf c) := by
  rw [row, if_pos h, rowOf]

theorem rowOf_length (c : Commit) : (rowOf c).length = c.metrics.length := by
  rw [rowOf, List.length_map]

theorem holdAtBaseline_length (baseline : List Float) (mask : List Bool) (row : List Float)
    (hmask : mask.length = row.length) (hbase : baseline.length = row.length) :
    (holdAtBaseline baseline mask row).length = row.length := by
  -- Zipping takes the shortest of three lists, which are equally long.
  rw [holdAtBaseline, List.length_zipWith, List.length_zip, hmask, hbase, Nat.min_self,
    Nat.min_self]

variable {α : Type}

theorem baseline_values_length (e : Engine α) : e.baseline.values.length = e.schema.width := by
  rw [NamedValues.values, List.length_map, e.baseline_width]

/-- The row of a commit with everything outside a dimension at the baseline. -/
def heldRow (e : Engine α) (mask : List Bool) (c : Commit) : List Float :=
  holdAtBaseline e.baseline.values mask (rowOf c)

theorem heldRow_length (e : Engine α) (mask : List Bool) (c : Commit)
    (hmask : mask ∈ e.schema.masks) (hc : c.metrics.length = e.schema.width) :
    (e.heldRow mask c).length = e.schema.width := by
  have hrow : (rowOf c).length = e.schema.width := by rw [rowOf_length, hc]
  rw [heldRow, holdAtBaseline_length, hrow]
  · rw [e.schema.length_of_mem_masks mask hmask, hrow]
  · rw [e.baseline_values_length, hrow]

theorem batches_eq (e : Engine α) (commits : List Commit)
    (h : ∀ c ∈ commits, c.metrics.length = e.schema.width) :
    e.batches commits = .ok (commits.map rowOf
      :: e.schema.masks.map fun mask => commits.map (e.heldRow mask)) := by
  unfold batches
  rw [mapM_eq_ok (row e.schema) rowOf commits fun c hc => row_eq e.schema c (h c hc)]
  simp only [bind, Except.bind, pure, Except.pure, List.map_map]
  rfl

theorem ask_eq (e : Engine α) (score : List Float → α)
    (hmodel : e.model.ScoresRows e.schema.width score) (rows : List (List Float))
    (hrows : ∀ row ∈ rows, row.length = e.schema.width) : e.ask rows = .ok (rows.map score) := by
  simp only [ask, hmodel rows hrows, List.length_map, if_true]

/-- A batch that was not refused has been scored by the model, row for row. -/
theorem ask_eq_ok (e : Engine α) (rows : List (List Float)) (scores : List α)
    (h : e.ask rows = .ok scores) :
    e.model.predict rows = .ok scores ∧ scores.length = rows.length := by
  unfold ask at h
  cases hpredict : e.model.predict rows with
  | error fault => simp only [hpredict, reduceCtorEq] at h
  | ok found =>
      by_cases hlength : found.length = rows.length
      · simp only [hpredict, hlength, if_true, Except.ok.injEq] at h
        rw [← h]
        exact ⟨rfl, hlength⟩
      · simp only [hpredict, hlength, if_false, reduceCtorEq] at h

theorem ofBaseline_eq_ok (model : RiskModel α) (s : Schema) (baseline : NamedValues)
    (mediansScore : α) (e : Engine α) (h : ofBaseline model s baseline mediansScore = .ok e) :
    e.model = model ∧ e.schema = s ∧ e.baseline = baseline ∧ e.mediansScore = mediansScore := by
  unfold ofBaseline at h
  split at h
  · cases h
    exact ⟨rfl, rfl, rfl, rfl⟩
  · cases h

variable [Scalar α]

/-- The attribution of a commit under a model that scores rows one by one. -/
def attributionOf (e : Engine α) (score : List Float → α) (c : Commit) : Attribution α :=
  e.attributeOne c.id (score (rowOf c)) (e.schema.masks.map fun mask => score (e.heldRow mask c))

/-- Putting the answers together by position undoes asking dimension by
    dimension: what belongs to a commit stands at its position in every
    answer. -/
theorem collect_eq (e : Engine α) (score : List Float → α) (commits : List Commit) :
    e.collect commits (commits.map fun c => score (rowOf c))
      (e.schema.masks.map fun mask => commits.map fun c => score (e.heldRow mask c))
      = commits.map (e.attributionOf score) := by
  unfold collect
  refine List.ext_getElem ?_ fun i hleft hright => ?_
  · simp only [List.length_map, List.length_zipIdx, List.length_zip, Nat.min_self]
  · have hi : i < commits.length := by rwa [List.length_map] at hright
    simp only [List.getElem_map, List.getElem_zipIdx, List.getElem_zip, Nat.zero_add,
      List.map_map, attributionOf]
    -- What remains is the answer for one dimension at one position.
    congr 1
    refine List.map_congr_left fun mask _ => ?_
    rw [Function.comp_apply, List.getD_eq_getElem?_getD, List.getElem?_map,
      List.getElem?_eq_getElem hi, Option.map_some, Option.getD_some]

/-- A model that scores row by row makes attribution go commit by commit. -/
theorem attributions_eq_map (e : Engine α) (score : List Float → α)
    (hmodel : e.model.ScoresRows e.schema.width score) (commits : List Commit)
    (hwidth : ∀ c ∈ commits, c.metrics.length = e.schema.width) :
    e.attributions commits = .ok (commits.map (e.attributionOf score)) := by
  have hrows : ∀ row ∈ commits.map rowOf, row.length = e.schema.width := by
    intro row hrow
    rcases List.mem_map.mp hrow with ⟨c, hc, rfl⟩
    rw [rowOf_length, hwidth c hc]
  -- Rows that are held at the baseline are as wide as the others, so no batch is refused.
  have hheld : ∀ rows ∈ e.schema.masks.map fun mask => commits.map (e.heldRow mask),
      e.ask rows = .ok (rows.map score) := by
    intro rows hmem
    rcases List.mem_map.mp hmem with ⟨mask, hmask, rfl⟩
    refine e.ask_eq score hmodel _ fun row hrow => ?_
    rcases List.mem_map.mp hrow with ⟨c, hc, rfl⟩
    exact e.heldRow_length mask c hmask (hwidth c hc)
  -- The first answer is for the commits themselves, the others for the dimensions.
  unfold attributions
  rw [batches_eq e commits hwidth]
  simp only [bind, Except.bind, pure, Except.pure, List.mapM_cons]
  rw [e.ask_eq score hmodel _ hrows, mapM_eq_ok e.ask (fun rows => rows.map score) _ hheld]
  simp only [List.headD_cons, List.tail_cons, List.map_map, Function.comp_def]
  exact congrArg Except.ok (e.collect_eq score commits)

end Engine

end CommitRisk
