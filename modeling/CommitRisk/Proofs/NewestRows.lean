import CommitRisk.Proofs.RowCounts

/-!
# Which Rows Are Kept

Preparation keeps the commits that can be trained on, all of them while there are no
more than the limit. Above the limit they are put in order first, and here the order of
the input still counts: a newer commit comes before an older one, and commits of one
date come as they came.

`NewestFirst` says this of a list without a word about how it is sorted: the dates fall,
and for every date the commits of that date are the same in the same order. Nothing is
left open by it, `NewestFirst.unique`, so whatever sorts a list like this gives the list
that preparation cuts off at the limit. Where the cut runs through the commits of one
date, the earlier ones are kept.

Every commit that is kept is complete, so it has a row and a label. None of them is lost
when rows and labels are taken, and both are in the order of the commits.

## Main definitions

* `datedAt`: The commits of one date.
* `NewestFirst`: A list with the newest commits first.
* `KeepsNewest`: What is kept of some commits, and what is dropped.
* `TrainingSet.HasRowsOf`: The rows and labels of a set are those of some commits.

## Theorems

* `NewestFirst.unique`: There is one such list only.
* `newestFirst_mergeSort`: Sorting by date gives it.
* `keepsNewest_newest`: What is kept up to the limit and above it.
* `newest_eq_nil_iff`: When nothing is kept.
* `hasRowsOf_complete`: Complete commits have their rows and labels.
* `prepare_keeps_newest`: The whole of it.
-/

namespace CommitRisk

/-- The commits of one date, in order. -/
def datedAt (date : Int64) (commits : List Commit) : List Commit :=
  commits.filter fun c => decide (c.date = date)

/-- A list has the commits of another one with the newest first, and those of one date in
    the order that they have there. -/
structure NewestFirst (commits sorted : List Commit) : Prop where
  falling : sorted.Pairwise fun a b => b.date ≤ a.date
  stable : ∀ date, datedAt date sorted = datedAt date commits

/-! ## Newest first -/

theorem mem_datedAt (c : Commit) (commits : List Commit) :
    c ∈ datedAt c.date commits ↔ c ∈ commits := by
  rw [datedAt, List.mem_filter, decide_eq_true_eq]
  exact and_iff_left rfl

/-- Lists of falling dates that agree on every date are the same. Both begin with a newest
    commit, so the first ones have the same date, and being first on it they are the same. -/
theorem eq_of_datedAt (xs ys : List Commit) (hxs : xs.Pairwise fun a b => b.date ≤ a.date)
    (hys : ys.Pairwise fun a b => b.date ≤ a.date)
    (h : ∀ date, datedAt date xs = datedAt date ys) : xs = ys := by
  have hmem : ∀ c : Commit, c ∈ xs ↔ c ∈ ys := fun c => by
    rw [← mem_datedAt c xs, h, mem_datedAt]
  induction xs generalizing ys with
  | nil =>
      cases ys with
      | nil => rfl
      | cons y ys => exact absurd ((hmem y).mpr List.mem_cons_self) List.not_mem_nil
  | cons x xs ih =>
      cases ys with
      | nil => exact absurd ((hmem x).mp List.mem_cons_self) List.not_mem_nil
      | cons y ys =>
          rw [List.pairwise_cons] at hxs hys
          have hyx : y.date ≤ x.date := by
            rcases List.mem_cons.mp ((hmem y).mpr List.mem_cons_self) with rfl | hy
            · exact Int64.le_refl _
            · exact hxs.1 y hy
          have hxy : x.date ≤ y.date := by
            rcases List.mem_cons.mp ((hmem x).mp List.mem_cons_self) with rfl | hx
            · exact Int64.le_refl _
            · exact hys.1 x hx
          have hdate : y.date = x.date := Int64.le_antisymm hyx hxy
          have hfirst : x = y := by
            have hx := h x.date
            simp only [datedAt, List.filter_cons, hdate, decide_true, if_true] at hx
            exact (List.cons.inj hx).1
          subst hfirst
          -- What is behind the first commit agrees on every date as well.
          have hrest : ∀ date, datedAt date xs = datedAt date ys := fun date => by
            have hboth := h date
            simp only [datedAt, List.filter_cons] at hboth
            by_cases hx : decide (x.date = date) = true
            · rw [if_pos hx, if_pos hx] at hboth
              exact (List.cons.inj hboth).2
            · rw [if_neg hx, if_neg hx] at hboth
              exact hboth
          rw [ih ys hxs.2 hys.2 hrest fun c => by rw [← mem_datedAt c xs, hrest, mem_datedAt]]

theorem NewestFirst.unique {commits sorted other : List Commit} (h : NewestFirst commits sorted)
    (hother : NewestFirst commits other) : other = sorted :=
  eq_of_datedAt other sorted hother.falling h.falling fun date => by
    rw [hother.stable, h.stable]

/-- Sorting by falling dates puts the newest first. The commits of one date are in order to
    begin with, and sorting leaves what is in order as it is. -/
theorem newestFirst_mergeSort (commits : List Commit) :
    NewestFirst commits (commits.mergeSort fun a b => decide (b.date ≤ a.date)) := by
  have htrans : ∀ a b c : Commit, decide (b.date ≤ a.date) = true →
      decide (c.date ≤ b.date) = true → decide (c.date ≤ a.date) = true := by
    intro a b c hab hbc
    rw [decide_eq_true_eq] at hab hbc ⊢
    exact Int64.le_trans hbc hab
  have htotal : ∀ a b : Commit, (decide (b.date ≤ a.date) || decide (a.date ≤ b.date)) = true := by
    intro a b
    rw [Bool.or_eq_true, decide_eq_true_eq, decide_eq_true_eq]
    exact Int64.le_total b.date a.date
  refine ⟨?_, fun date => ?_⟩
  · refine (List.pairwise_mergeSort htrans htotal commits).imp fun h => ?_
    rwa [decide_eq_true_eq] at h
  · have hpair : (datedAt date commits).Pairwise fun a b => decide (b.date ≤ a.date) = true := by
      refine List.pairwise_iff_forall_sublist.mpr fun {a b} hab => ?_
      have ha := (List.mem_filter.mp (hab.mem List.mem_cons_self)).2
      have hb := (List.mem_filter.mp (hab.mem (List.mem_cons_of_mem a List.mem_cons_self))).2
      rw [decide_eq_true_eq] at ha hb ⊢
      rw [ha, hb]
      exact Int64.le_refl date
    -- The commits of the date are found in the sorted list, and there are no more of them.
    have hsub := (List.sublist_mergeSort htrans htotal hpair List.filter_sublist).filter
      fun c => decide (c.date = date)
    have hself : (datedAt date commits).filter (fun c => decide (c.date = date))
        = datedAt date commits := by
      rw [datedAt, List.filter_filter]
      simp only [Bool.and_self]
    rw [hself] at hsub
    have hperm := (List.mergeSort_perm commits fun a b => decide (b.date ≤ a.date)).filter
      fun c => decide (c.date = date)
    exact (hsub.eq_of_length hperm.length_eq.symm).symm

/-! ## What is kept -/

/-- Of some commits, in a way that respects the limit, some are kept and the others are
    dropped: none while there are no more than the limit, and above it those that do not
    come first in the list that has the newest first. -/
structure KeepsNewest (limit : Nat) (commits kept dropped : List Commit) : Prop where
  all : commits.length ≤ limit → kept = commits ∧ dropped = []
  first : limit < commits.length → ∃ sorted, NewestFirst commits sorted ∧
    (∀ other, NewestFirst commits other → other = sorted) ∧
    kept = sorted.take limit ∧ dropped = sorted.drop limit
  /-- Nothing that is dropped is newer than anything that is kept. -/
  newer : ∀ k ∈ kept, ∀ d ∈ dropped, d.date ≤ k.date
  /-- Of one date the earlier ones are kept, in order. -/
  earlier : ∀ date, datedAt date commits = datedAt date kept ++ datedAt date dropped

theorem keepsNewest_newest (limit : Nat) (commits : List Commit) :
    ∃ dropped, KeepsNewest limit commits (newest limit commits) dropped := by
  by_cases hlimit : limit < commits.length
  · have hsorted := newestFirst_mergeSort commits
    rw [newest, if_pos hlimit]
    generalize commits.mergeSort (fun a b => decide (b.date ≤ a.date)) = sorted at hsorted ⊢
    have hcut : sorted.take limit ++ sorted.drop limit = sorted :=
      List.take_append_drop limit sorted
    refine ⟨sorted.drop limit, fun h => by omega, fun _ => ⟨sorted, hsorted,
      fun other hother => hsorted.unique hother, rfl, rfl⟩, ?_, fun date => ?_⟩
    · -- The dates fall across the cut.
      have hfalling := hsorted.falling
      rw [← hcut] at hfalling
      exact (List.pairwise_append.mp hfalling).2.2
    · rw [← hsorted.stable date]
      simp only [datedAt, ← List.filter_append, hcut]
  · rw [newest, if_neg hlimit]
    refine ⟨[], fun _ => ⟨rfl, rfl⟩, fun h => absurd h hlimit, ?_, fun date => ?_⟩
    · exact fun _ _ d hd => absurd hd List.not_mem_nil
    · exact (List.append_nil _).symm

/-- Nothing is kept if there is nothing or nothing may be kept. -/
theorem newest_eq_nil_iff (limit : Nat) (commits : List Commit) :
    newest limit commits = [] ↔ commits = [] ∨ limit = 0 := by
  rw [← List.length_eq_zero_iff, ← List.length_eq_zero_iff, length_newest]
  omega

/-! ## What is made of it -/

/-- A set has the rows and the labels of some commits, one for each and in their order. -/
structure TrainingSet.HasRowsOf (set : TrainingSet) (commits : List Commit) : Prop where
  samples : commits.map Commit.metrics = set.samples.map fun row => row.map some
  labels : commits.map Commit.label = set.labels.map some

theorem TrainingSet.HasRowsOf.length_eq {set : TrainingSet} {commits : List Commit}
    (h : set.HasRowsOf commits) :
    set.samples.length = commits.length ∧ set.labels.length = commits.length := by
  have hsamples := congrArg List.length h.samples
  have hlabels := congrArg List.length h.labels
  rw [List.length_map, List.length_map] at hsamples hlabels
  omega

/-- None of some complete commits is lost when their rows and labels are taken. -/
theorem hasRowsOf_complete (commits : List Commit) (h : ∀ c ∈ commits, c.isComplete = true) :
    TrainingSet.HasRowsOf ⟨(commits.filterMap Commit.row?).map Prod.fst,
      (commits.filterMap Commit.row?).map Prod.snd⟩ commits := by
  induction commits with
  | nil => exact ⟨rfl, rfl⟩
  | cons c rest ih =>
      have hrest := ih fun d hd => h d (List.mem_cons_of_mem c hd)
      rcases Option.isSome_iff_exists.mp (c.row?_of_isComplete (h c List.mem_cons_self)) with
        ⟨⟨row, label⟩, hrow⟩
      rcases c.of_row? row label hrow with ⟨hmetrics, hlabel⟩
      rw [List.filterMap_cons_some hrow]
      constructor
      · rw [List.map_cons, hmetrics, hrest.samples]
        rfl
      · rw [List.map_cons, hlabel, hrest.labels]
        rfl

theorem trainable_eq_filter (commits : List Commit) (cutoff : Int64) :
    trainable commits cutoff = commits.filter fun c => decide (c.IsTrainable cutoff) := by
  refine List.filter_congr fun c _ => ?_
  rw [Bool.eq_iff_iff, c.isTrainable_iff, decide_eq_true_eq]

/-- What preparation keeps of the commits that can be trained on: all of them, in input
    order, up to the limit, and above it the first ones of the one list that has the newest
    first. It fails exactly if nothing is kept, which is if nothing can be trained on or
    the limit is zero, and says so with the cutoff. Otherwise there are a row and a label
    for each of the commits that are kept, in their order. -/
theorem prepare_keeps_newest (commits : List Commit) (cutoff : Int64) (limit : Nat) :
    let able := commits.filter fun c => decide (c.IsTrainable cutoff)
    ∃ kept dropped, KeepsNewest limit able kept dropped ∧
      (prepare commits cutoff limit = .error (.emptyTrainingSet cutoff) ↔ kept = []) ∧
      (kept = [] ↔ able = [] ∨ limit = 0) ∧
      (kept ≠ [] → ∃ set, prepare commits cutoff limit = .ok set ∧ set.HasRowsOf kept ∧
        set.samples.length = set.labels.length) := by
  intro able
  have hable : trainable commits cutoff = able := trainable_eq_filter commits cutoff
  rcases keepsNewest_newest limit able with ⟨dropped, hkeeps⟩
  have hcomplete : ∀ c ∈ newest limit able, c.isComplete = true := by
    intro c hc
    have hc := mem_of_newest limit able c hc
    rw [← hable] at hc
    have htrainable := (List.mem_filter.mp hc).2
    rw [Bool.and_eq_true] at htrainable
    exact htrainable.1
  have hrows := hasRowsOf_complete _ hcomplete
  refine ⟨newest limit able, dropped, hkeeps, ?_, newest_eq_nil_iff limit able, fun hsome => ?_⟩
  · rw [prepare, hable, ← List.isEmpty_iff]
    cases (newest limit able).isEmpty <;> simp
  · have hempty := List.isEmpty_eq_false_iff.mpr hsome
    refine ⟨_, ?_, hrows, ?_⟩
    · simp only [prepare, hable, hempty, Bool.false_eq_true, if_false]
    · rw [hrows.length_eq.1, hrows.length_eq.2]

/-- The cut runs through the commits of one date, and the earlier one is kept. -/
example : (newest 2 [⟨"a", 5, [], none⟩, ⟨"b", 9, [], none⟩, ⟨"c", 5, [], none⟩]).map Commit.id
    = ["b", "a"] := by
  cbv

end CommitRisk
