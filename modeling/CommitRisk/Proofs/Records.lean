import CommitRisk.Commit
import CommitRisk.Proofs.Checked

/-!
# From Table Rows to Commits

Reading a table along a schema finds the columns first and then goes through
the rows. A table that is read has therefore one commit for every row, in the
order of the rows, and every commit has one metric for every feature.

## Theorems

* `columnIndex?_of_requireColumn`: Where a column is that has to be there.
* `commitOfRow_eq_ok`: What a row becomes.
* `commits_eq_ok`: What has to succeed for a table to be read.
* `commits_length`: One commit for every row.
* `commits_width`: One metric for every feature.
-/

namespace CommitRisk

namespace Table

theorem columnIndex?_of_requireColumn (t : Table) (name : String) (column : Nat)
    (h : t.requireColumn name = .ok column) : t.columnIndex? name = some column := by
  unfold requireColumn at h
  cases hindex : t.columnIndex? name with
  | none => simp only [hindex, reduceCtorEq] at h
  | some found =>
      simp only [hindex, Except.ok.injEq] at h
      rw [h]

theorem commitOfRow_eq_ok (id date : Nat) (label : Option Nat) (features : List Nat)
    (row : List String) (c : Commit) (h : commitOfRow id date label features row = .ok c) :
    c.id = row[id]?.getD "" ∧ cellDate? (row[date]?.getD "") = some c.date ∧
      c.metrics = features.map (fun column => cellNumber? (row[column]?.getD "")) ∧
      c.label = label.bind fun column => cellLabel? (row[column]?.getD "") := by
  unfold commitOfRow at h
  simp only [] at h
  cases hdate : cellDate? (row[date]?.getD "") with
  | none => rw [hdate] at h; exact absurd h (by simp only [reduceCtorEq, not_false_eq_true])
  | some day =>
      rw [hdate, Except.ok.injEq] at h
      rw [← h]
      exact ⟨rfl, rfl, rfl, rfl⟩

/-- A table is read if the id, the date and every feature have a column and every
    row becomes a commit. -/
theorem commits_eq_ok (t : Table) (s : Schema) (commits : List Commit)
    (h : t.commits s = .ok commits) :
    ∃ id date features, t.requireColumn idColumn = .ok id ∧ t.requireColumn dateColumn = .ok date ∧
      s.features.mapM t.requireColumn = .ok features ∧
      t.rows.mapM (commitOfRow id date (t.columnIndex? labelColumn) features) = .ok commits := by
  unfold Table.commits at h
  rcases (bind_eq_ok _ _ _).mp h with ⟨id, hid, h⟩
  rcases (bind_eq_ok _ _ _).mp h with ⟨date, hdate, h⟩
  rcases (bind_eq_ok _ _ _).mp h with ⟨features, hfeatures, h⟩
  exact ⟨id, date, features, hid, hdate, hfeatures, h⟩

theorem commits_length (t : Table) (s : Schema) (commits : List Commit)
    (h : t.commits s = .ok commits) : commits.length = t.rows.length := by
  rcases t.commits_eq_ok s commits h with ⟨id, date, features, _, _, _, hrows⟩
  exact length_of_mapM _ _ _ hrows

theorem commits_width (t : Table) (s : Schema) (commits : List Commit)
    (h : t.commits s = .ok commits) : ∀ c ∈ commits, c.metrics.length = s.width := by
  rcases t.commits_eq_ok s commits h with ⟨id, date, features, _, _, hfeatures, hrows⟩
  intro c hc
  -- Every commit is read from some row, along one position for each feature.
  rcases exists_of_mem_mapM _ _ _ hrows c hc with ⟨row, _, hrow⟩
  rw [(commitOfRow_eq_ok id date _ features row c hrow).2.2.1, List.length_map,
    length_of_mapM _ _ _ hfeatures, Schema.width]

end Table

end CommitRisk
