import CommitRisk.Proofs.RowWise

/-!
# The Forest and the Stored Model

A score can be asked of a forest that has just been grown, or of a model that was stored
with the names of its columns. Both look at one row at a time. Whether a batch is answered
at all is decided before any row is scored: there has to be a forest, and the first row of
another width is the one that is refused. What the rest of the batch holds makes no
difference to the score of a row.

`RiskModel.RowByRow` says all of this about one model. It only speaks of what is answered to
batches, so a model that answers every batch like another one has it from there. A stored
model with as many names as its forest has columns is such a model. With any other number
of names it answers no batch, not even one without rows, because the names are counted
before the batch is looked at.

## Main definitions

* `RiskModel.RowByRow`: How a model answers that scores rows of a width one by one.

## Theorems

* `firstOfOtherWidth?_append`: The first row of another width is the one that is named.
* `RiskModel.predictOne_congr`: A single row is a batch like any other.
* `RiskModel.RowByRow.congr`: What is only said of the answers.
* `Forest.rowByRow`: A forest scores rows one by one.
* `PortableModel.predict_eq_forest`: With the right number of names the forest answers.
* `PortableModel.predict_of_misnamed`: With another number nothing is answered.
* `backends_agree`: The two are one function on rows.
-/

namespace CommitRisk

variable {α : Type}

/-- How a model answers that scores rows of a width one by one, once it is ready to. -/
structure RiskModel.RowByRow (m : RiskModel α) (width : Nat) (ready : Prop) : Prop where
  isOk_iff : ∀ rows, (∃ scores, m.predict rows = .ok scores) ↔
    ready ∧ ∀ row ∈ rows, row.length = width
  /-- The scores of a batch are those of its rows, in order. -/
  rows : ∀ rows scores, m.predict rows = .ok scores →
    List.Forall₂ (fun row score => m.predictOne row = .ok score) rows scores
  append : ∀ xs ys first second, m.predict xs = .ok first → m.predict ys = .ok second →
    m.predict (xs ++ ys) = .ok (first ++ second)
  /-- The first row of another width is named, whatever comes after it. -/
  otherWidth : ready → ∀ before row after, (∀ r ∈ before, r.length = width) →
    row.length ≠ width →
      m.predict (before ++ row :: after) = .error (.widthMismatch before.length width row.length)
  /-- That it is not ready is said first, whatever the widths are. -/
  notReady : ¬ ready → ∀ rows, m.predict rows = .error .emptyModel

theorem firstOfOtherWidth?_append (width start : Nat) (before : List (List Float))
    (row : List Float) (after : List (List Float)) (hbefore : ∀ r ∈ before, r.length = width)
    (hrow : row.length ≠ width) :
    firstOfOtherWidth? width start (before ++ row :: after)
      = some (.widthMismatch (start + before.length) width row.length) := by
  induction before generalizing start with
  | nil => rw [List.nil_append, firstOfOtherWidth?, if_neg hrow, List.length_nil, Nat.add_zero]
  | cons first rest ih =>
      rw [List.cons_append, firstOfOtherWidth?, if_pos (hbefore first List.mem_cons_self),
        ih (start + 1) fun r hr => hbefore r (List.mem_cons_of_mem first hr), List.length_cons,
        Nat.add_right_comm, Nat.add_assoc]

theorem RiskModel.predictOne_congr (m m' : RiskModel α) (row : List Float)
    (h : m.predict [row] = m'.predict [row]) : m.predictOne row = m'.predictOne row := by
  rw [predictOne, predictOne, h]

/-- A model that answers every batch like another one scores rows one by one if that does. -/
theorem RiskModel.RowByRow.congr {m m' : RiskModel α} {width : Nat} {ready : Prop}
    (hm : m'.RowByRow width ready) (h : ∀ rows, m.predict rows = m'.predict rows) :
    m.RowByRow width ready where
  isOk_iff rows := by rw [h]; exact hm.isOk_iff rows
  rows rows scores hscores := by
    rw [h] at hscores
    refine (hm.rows rows scores hscores).imp fun row score hscore => ?_
    rw [m.predictOne_congr m' row (h [row]), hscore]
  append xs ys first second hxs hys := by
    rw [h] at hxs hys ⊢
    exact hm.append xs ys first second hxs hys
  otherWidth hready before row after hbefore hrow := by
    rw [h]
    exact hm.otherWidth hready before row after hbefore hrow
  notReady hready rows := by rw [h]; exact hm.notReady hready rows

theorem RiskModel.ScoresRows.predictOne {m : RiskModel α} {width : Nat} {score : List Float → α}
    (hm : m.ScoresRows width score) (row : List Float) (h : row.length = width) :
    m.predictOne row = .ok (score row) := by
  have hbatch := hm [row] fun r hr => by rw [List.mem_singleton.mp hr, h]
  rw [RiskModel.predictOne, hbatch]
  rfl

theorem Forest.predict_of_unfitted (f : Forest) (h : ¬ f.isFitted = true)
    (rows : List (List Float)) : f.model.predict rows = .error .emptyModel := by
  rw [Bool.not_eq_true] at h
  simp only [Forest.model, h, Bool.not_false, if_true]

theorem Forest.predict_of_otherWidth (f : Forest) (hfit : f.isFitted = true)
    (before : List (List Float)) (row : List Float) (after : List (List Float))
    (hbefore : ∀ r ∈ before, r.length = f.width) (hrow : row.length ≠ f.width) :
    f.model.predict (before ++ row :: after)
      = .error (.widthMismatch before.length f.width row.length) := by
  have hfault := firstOfOtherWidth?_append f.width 0 before row after hbefore hrow
  rw [Nat.zero_add] at hfault
  simp only [Forest.model, hfit, Bool.not_true, Bool.false_eq_true, if_false, hfault]

/-- A batch is answered by a fitted forest exactly if all rows have its width. -/
theorem Forest.predict_isOk_iff (f : Forest) (rows : List (List Float)) :
    (∃ scores, f.model.predict rows = .ok scores) ↔
      f.isFitted = true ∧ ∀ row ∈ rows, row.length = f.width := by
  constructor
  · rintro ⟨scores, hscores⟩
    by_cases hfit : f.isFitted = true
    · refine ⟨hfit, ?_⟩
      rw [← firstOfOtherWidth?_eq_none f.width 0]
      cases hfault : firstOfOtherWidth? f.width 0 rows with
      | none => rfl
      | some fault =>
          simp only [Forest.model, hfit, Bool.not_true, Bool.false_eq_true, if_false, hfault,
            reduceCtorEq] at hscores
    · rw [f.predict_of_unfitted hfit] at hscores
      cases hscores
  · rintro ⟨hfit, hrows⟩
    exact ⟨_, f.scoresRows hfit rows hrows⟩

theorem Forest.rowByRow (f : Forest) : f.model.RowByRow f.width (f.isFitted = true) where
  isOk_iff := f.predict_isOk_iff
  rows rows scores hscores := by
    rcases (f.predict_isOk_iff rows).mp ⟨scores, hscores⟩ with ⟨hfit, hrows⟩
    rw [f.scoresRows hfit rows hrows, Except.ok.injEq] at hscores
    rw [← hscores, List.forall₂_map_right_iff, List.forall₂_same]
    exact fun row hrow => (f.scoresRows hfit).predictOne row (hrows row hrow)
  append xs ys first second hxs hys := by
    rcases (f.predict_isOk_iff xs).mp ⟨first, hxs⟩ with ⟨hfit, hleft⟩
    rcases (f.predict_isOk_iff ys).mp ⟨second, hys⟩ with ⟨_, hright⟩
    rw [f.scoresRows hfit xs hleft, Except.ok.injEq] at hxs
    rw [f.scoresRows hfit ys hright, Except.ok.injEq] at hys
    rw [f.scoresRows hfit (xs ++ ys) fun row hrow =>
      (List.mem_append.mp hrow).elim (hleft row) (hright row), List.map_append, hxs, hys]
  otherWidth := f.predict_of_otherWidth
  notReady := f.predict_of_unfitted

/-- A stored model with a name for each column answers what its forest answers. -/
theorem PortableModel.predict_eq_forest (m : PortableModel) (h : m.names.length = m.forest.width)
    (rows : List (List Float)) : m.model.predict rows = m.forest.model.predict rows := by
  simp only [PortableModel.model, h, ne_eq, not_true_eq_false, if_false]

/-- The names are counted before the batch is looked at. -/
theorem PortableModel.predict_of_misnamed (m : PortableModel)
    (h : m.names.length ≠ m.forest.width) (rows : List (List Float)) :
    m.model.predict rows = .error (.misnamedColumns m.forest.width m.names.length) := by
  simp only [PortableModel.model, ne_eq, h.symm, not_false_eq_true, if_true]

/-- A forest and the model it is stored as are one function on rows. With a name for each
    column every batch is answered alike, scores and refusals, and both go row by row: a
    batch is answered exactly if the forest is fitted and all rows have its width, with the
    scores that the rows have by themselves, and two batches in a row have the scores of
    the first and then those of the second. The first row of another width is named, and
    nothing is scored then. With any other number of names no batch is answered. -/
theorem backends_agree (forest : Forest) (names : List String) (note : ModelNote) :
    let stored : PortableModel := ⟨names, forest, note⟩
    forest.model.RowByRow forest.width (forest.isFitted = true) ∧
    (names.length = forest.width →
      (∀ rows, stored.model.predict rows = forest.model.predict rows) ∧
      stored.model.RowByRow forest.width (forest.isFitted = true)) ∧
    (names.length ≠ forest.width → ∀ rows,
      stored.model.predict rows = .error (.misnamedColumns forest.width names.length)) := by
  intro stored
  refine ⟨forest.rowByRow, fun hnames => ?_, stored.predict_of_misnamed⟩
  have hsame := stored.predict_eq_forest hnames
  exact ⟨hsame, forest.rowByRow.congr hsame⟩

end CommitRisk
