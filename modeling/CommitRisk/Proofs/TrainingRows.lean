import CommitRisk.Forest.Basic
import CommitRisk.Dataset

/-!
# Rows That Are Trained On

Rows are picked from a table, cut into two parts at random and handed to a
forest. Nothing is made up on the way: every row of either part is the row of a
commit. So the forest is as wide as the commits are.

## Theorems

* `shuffle_perm`: A shuffle puts the positions in another order.
* `of_mem_newest_trainable`: The commits whose rows are prepared.
* `prepare_width`: Rows that were prepared are as wide as the commits.
* `mem_of_split`: The rows of both parts are rows of the set.
* `fit_width`: A forest is as wide as the rows it was fitted to.
-/

namespace CommitRisk

theorem swapIfInBounds_perm (order : Array Nat) (i j : Nat) :
    (order.swapIfInBounds i j).toList.Perm order.toList := by
  rw [Array.swapIfInBounds_def]
  by_cases hi : i < order.size
  · by_cases hj : j < order.size
    · rw [dif_pos hi, dif_pos hj]
      exact (Array.swap_perm hi hj).toList
    · rw [dif_pos hi, dif_neg hj]
  · rw [dif_neg hi]

theorem shuffleFrom_perm (i : Nat) (order : Array Nat) (s : Words) :
    (shuffleFrom i order s).toList.Perm order.toList := by
  induction i generalizing order s with
  | zero => rfl
  | succ i ih => exact (ih _ _).trans (swapIfInBounds_perm order _ _)

theorem shuffle_perm (n : Nat) (seed : UInt64) : (shuffle n seed).Perm (List.range n) := by
  -- Whatever is drawn, positions only change places.
  have h := shuffleFrom_perm (n - 1) (Array.range n) (Words.ofSeed seed)
  rw [Array.toList_range] at h
  exact h

/-- Cells that all have a value are the values. -/
theorem cells_of_mapM_some (cells : List (Option Float)) (row : List Float)
    (h : (cells.mapM fun cell => cell) = some row) : cells = row.map some := by
  induction cells generalizing row with
  | nil =>
      rw [List.mapM_nil] at h
      cases h
      rfl
  | cons cell rest ih =>
      rw [List.mapM_cons] at h
      rcases Option.bind_eq_some_iff.mp h with ⟨x, hx, h⟩
      rcases Option.bind_eq_some_iff.mp h with ⟨values, hvalues, hrow⟩
      cases hrow
      rw [List.map_cons, ← ih values hvalues, hx]

/-- The row and the label of a commit are its own. -/
theorem Commit.of_row? (c : Commit) (row : List Float) (label : Bool)
    (h : c.row? = some (row, label)) : c.metrics = row.map some ∧ c.label = some label := by
  unfold Commit.row? at h
  split at h
  · rename_i hrow hlabel
    cases h
    exact ⟨cells_of_mapM_some c.metrics row hrow, hlabel⟩
  · cases h

theorem Commit.row?_width (c : Commit) (row : List Float) (label : Bool)
    (h : c.row? = some (row, label)) : row.length = c.metrics.length := by
  rw [(c.of_row? row label h).1, List.length_map]

theorem mem_of_newest (limit : Nat) (commits : List Commit) (c : Commit)
    (h : c ∈ newest limit commits) : c ∈ commits := by
  unfold newest at h
  split at h
  · exact List.mem_mergeSort.mp (List.mem_of_mem_take h)
  · exact h

/-- What is kept of the commits that can be trained on. -/
theorem of_mem_newest_trainable (commits : List Commit) (cutoff : Int64) (limit : Nat)
    (c : Commit) (h : c ∈ newest limit (trainable commits cutoff)) :
    c ∈ commits ∧ c.isComplete = true ∧ c.date < cutoff := by
  rcases List.mem_filter.mp (mem_of_newest limit _ c h) with ⟨hmem, hable⟩
  rw [Bool.and_eq_true, decide_eq_true_eq] at hable
  exact ⟨hmem, hable⟩

/-- Every row that was prepared is the row of a commit. -/
theorem prepare_width (commits : List Commit) (cutoff : Int64) (limit width : Nat)
    (set : TrainingSet) (hset : prepare commits cutoff limit = .ok set)
    (hwidth : ∀ c ∈ commits, c.metrics.length = width) :
    ∀ row ∈ set.samples, row.length = width := by
  intro row hrow
  unfold prepare at hset
  simp only [] at hset
  split at hset
  · cases hset
  · cases hset
    -- Back from the row to the commit it was taken from.
    rcases List.mem_map.mp hrow with ⟨⟨cells, label⟩, hpair, rfl⟩
    rcases List.mem_filterMap.mp hpair with ⟨c, hc, hcells⟩
    rw [c.row?_width cells label hcells]
    exact hwidth c (of_mem_newest_trainable commits cutoff limit c hc).1

theorem mem_of_select (set : TrainingSet) (positions : List Nat) (row : List Float)
    (hpositions : ∀ i ∈ positions, i < set.size) (hrow : row ∈ (set.select positions).samples) :
    row ∈ set.samples := by
  rcases List.mem_map.mp hrow with ⟨i, hi, rfl⟩
  -- The default for a missing row does not come up.
  have hlt : i < set.samples.length := hpositions i hi
  rw [List.getElem?_eq_getElem hlt, Option.getD_some]
  exact List.getElem_mem hlt

/-- Either part of a set is made of rows of the set. -/
theorem mem_of_split (set training test : TrainingSet) (testSize : Float) (seed : UInt64)
    (hsplit : set.split testSize seed = .ok (training, test)) :
    (∀ row ∈ training.samples, row ∈ set.samples) ∧ ∀ row ∈ test.samples, row ∈ set.samples := by
  -- Every position that is drawn is the position of a row.
  have hrange : ∀ i ∈ shuffle set.size seed, i < set.size := fun i hi =>
    List.mem_range.mp ((shuffle_perm set.size seed).mem_iff.mp hi)
  unfold TrainingSet.split at hsplit
  simp only [] at hsplit
  split at hsplit
  · cases hsplit
  · cases hsplit
    constructor
    · intro row hrow
      exact mem_of_select set _ row (fun i hi => hrange i (List.mem_of_mem_drop hi)) hrow
    · intro row hrow
      exact mem_of_select set _ row (fun i hi => hrange i (List.mem_of_mem_take hi)) hrow

theorem fit_width (samples : List (List Float)) (labels : List Bool) (params : HyperParameters)
    (chance : Chance) (width : Nat) (forest : Forest)
    (hfit : Forest.fit samples labels params chance = .ok forest)
    (hwidth : ∀ row ∈ samples, row.length = width) : forest.width = width := by
  unfold Forest.fit at hfit
  split at hfit
  · cases hfit
  · split at hfit
    · cases hfit
    · split at hfit
      · cases hfit
      · split at hfit
        · cases hfit
        · cases hfit
          exact hwidth _ List.mem_cons_self

end CommitRisk
