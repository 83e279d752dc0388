import CommitRisk.Proofs.Backends
import CommitRisk.Proofs.FittedForests
import CommitRisk.Proofs.SingleShares

/-!
# Scores Are Vote Shares

A forest asks every tree for the class of a row, and the score of the row is the share of the
trees that say it is buggy. What a tree says is described by the way the row takes through
it, `Tree.EndsIn`: to the left where the value is at most the threshold, to the right where it
is above it, and also to the right where it is no number.

The share is worked out in singles. Both counts are at least rounded in their order, so the
quotient is at most one, and rounding it does not take it above one. Widening does not
change it any more. With no more trees than a single has places for, the counts are not
rounded at all, and the score is the single nearest to the share.

A forest whose labels were all clean has no second class to ask for and gives zero without
counting. That is what counting would give as well, since the class of a leaf is a label
there was.

## Main definitions

* `Tree.EndsIn`: The way of a row through a tree.
* `DecisionTree.VotesFor`: A tree votes for a class.
* `Forest.buggyVotes`: The number of trees that vote for the buggy class.
* `Forest.IsVoteShare`: A score is the share of these trees.

## Theorems

* `Tree.endsIn_iff`: The way of a row is unique.
* `Forest.FittedTo.label_of_vote`: Trees only vote for labels there were.
* `Forest.one_lt_classCount_iff`: When votes are counted.
* `Forest.score_eq`: Every score of a fitted forest is a share of its trees.
* `scores_are_vote_shares`: What a fitted forest predicts.
-/

namespace CommitRisk

variable {samples : List (List Float)} {labels : List Bool} {params : HyperParameters}

/-! ## Votes -/

namespace Tree

/-- A row ends in a leaf with a class. It goes to the left where its value is at most the
    threshold, and to the right where it is above it or there is nothing to compare. -/
inductive EndsIn (row : List Float32) : Tree → Nat → Prop where
  | leaf (cls count : Nat) : EndsIn row (.leaf cls count) cls
  | left (feature : Nat) (threshold : Float32) (left right : Tree) (cls : Nat)
      (hvalue : valueAt row feature ≤ threshold) (hleft : EndsIn row left cls) :
      EndsIn row (.split feature threshold left right) cls
  | right (feature : Nat) (threshold : Float32) (left right : Tree) (cls : Nat)
      (hvalue : threshold < valueAt row feature) (hright : EndsIn row right cls) :
      EndsIn row (.split feature threshold left right) cls
  | missing (feature : Nat) (threshold : Float32) (left right : Tree) (cls : Nat)
      (hvalue : (valueAt row feature).isNaN = true ∨ threshold.isNaN = true)
      (hright : EndsIn row right cls) : EndsIn row (.split feature threshold left right) cls

/-- The class of a row is that of the leaf it ends in. -/
theorem endsIn_iff (row : List Float32) (tree : Tree) (cls : Nat) :
    tree.EndsIn row cls ↔ tree.classOf row = cls := by
  constructor
  · intro h
    induction h with
    | leaf cls count => rfl
    | left feature threshold left right cls hvalue _ ih => rw [classOf, if_pos hvalue, ih]
    | right feature threshold left right cls hvalue _ ih =>
        rw [classOf, if_neg ((single_not_le_iff _ _).mpr (.inr (.inr hvalue))), ih]
    | missing feature threshold left right cls hvalue _ ih =>
        rw [classOf, if_neg ((single_not_le_iff _ _).mpr (or_assoc.mp (.inl hvalue))), ih]
  · intro h
    induction tree with
    | leaf cls' count =>
        rw [classOf] at h
        exact h ▸ .leaf cls' count
    | split feature threshold left right ihleft ihright =>
        by_cases hvalue : valueAt row feature ≤ threshold
        · rw [classOf, if_pos hvalue] at h
          exact .left feature threshold left right cls hvalue (ihleft h)
        · rw [classOf, if_neg hvalue] at h
          rcases or_assoc.mpr ((single_not_le_iff _ _).mp hvalue) with hmissing | habove
          · exact .missing feature threshold left right cls hmissing (ihright h)
          · exact .right feature threshold left right cls habove (ihright h)

/-- The leaf a row ends in is one of the tree's. -/
theorem EndsIn.leaf_mem {row : List Float32} {tree : Tree} {cls : Nat} (h : tree.EndsIn row cls) :
    ∃ count, .leaf cls count ∈ tree.subtrees := by
  induction h with
  | leaf cls count => exact ⟨count, List.mem_singleton.mpr rfl⟩
  | left feature threshold left right cls _ _ ih =>
      rcases ih with ⟨count, hcount⟩
      exact ⟨count, List.mem_cons_of_mem _ (List.mem_append_left _ hcount)⟩
  | right feature threshold left right cls _ _ ih =>
      rcases ih with ⟨count, hcount⟩
      exact ⟨count, List.mem_cons_of_mem _ (List.mem_append_right _ hcount)⟩
  | missing feature threshold left right cls _ _ ih =>
      rcases ih with ⟨count, hcount⟩
      exact ⟨count, List.mem_cons_of_mem _ (List.mem_append_right _ hcount)⟩

end Tree

/-- A tree votes for the class of the leaf in which a row ends once it is narrowed. -/
def DecisionTree.VotesFor (t : DecisionTree) (cls : Nat) (row : List Float) : Prop :=
  ∃ tree, t.root = some tree ∧ tree.EndsIn (row.map narrow) cls

theorem DecisionTree.votesFor_iff (t : DecisionTree) (cls : Nat) (row : List Float) :
    (t.root.any fun tree => tree.classOf (row.map narrow) == cls) = true ↔ t.VotesFor cls row := by
  unfold VotesFor
  cases t.root with
  | none =>
      exact iff_of_false Bool.false_ne_true fun ⟨_, hroot, _⟩ => Option.some_ne_none _ hroot.symm
  | some tree =>
      rw [Option.any_some, beq_iff_eq, ← tree.endsIn_iff]
      exact ⟨fun h => ⟨tree, rfl, h⟩, fun ⟨_, hroot, h⟩ => Option.some.inj hroot ▸ h⟩

instance (t : DecisionTree) (cls : Nat) (row : List Float) : Decidable (t.VotesFor cls row) :=
  decidable_of_iff _ (t.votesFor_iff cls row)

namespace Forest

/-- The number of trees that vote for the buggy class. -/
def buggyVotes (f : Forest) (row : List Float) : Nat :=
  f.ensemble.trees.countP fun t => decide (t.VotesFor 1 row)

theorem votes_eq_buggyVotes (f : Forest) (row : List Float) :
    f.votes 1 (row.map narrow) = f.buggyVotes row := by
  refine List.countP_congr fun t _ => ?_
  rw [decide_eq_true_eq]
  exact t.votesFor_iff 1 row

/-- A score is the share of the trees that vote for the buggy class, worked out in singles. -/
structure IsVoteShare (f : Forest) (row : List Float) (score : Float) : Prop where
  trees : 1 ≤ f.ensemble.trees.length
  votes : f.buggyVotes row ≤ f.ensemble.trees.length
  quotient : score =
    widen (Float32.ofNat (f.buggyVotes row) / Float32.ofNat f.ensemble.trees.length)
  /-- The number that the score stands for. -/
  value : ∃ mantissa exponent, Binary.ofFloat score = .finite false mantissa exponent ∧
    (mantissa : Rat) * 2 ^ exponent
      = nearestSingle (nearestSingle (f.buggyVotes row) / nearestSingle f.ensemble.trees.length)
  /-- With not too many trees only the quotient is rounded. -/
  nearest : f.ensemble.trees.length ≤ 2 ^ 24 →
    nearestSingle (nearestSingle (f.buggyVotes row) / nearestSingle f.ensemble.trees.length)
      = nearestSingle (f.buggyVotes row / f.ensemble.trees.length)
  bounds : 0.0 ≤ score ∧ score ≤ 1.0

/-- A share of trees is a vote share. -/
theorem isVoteShare_of_trees (f : Forest) (row : List Float)
    (htrees : 1 ≤ f.ensemble.trees.length) (hword : f.ensemble.trees.length < 2 ^ 64) :
    f.IsVoteShare row
      (widen (Float32.ofNat (f.buggyVotes row) / Float32.ofNat f.ensemble.trees.length)) := by
  have hvotes : f.buggyVotes row ≤ f.ensemble.trees.length := List.countP_le_length
  have hstands := widen_stands _ (share_stands _ _ htrees hvotes hword)
  refine ⟨htrees, hvotes, rfl, hstands.ofFloat, fun hfew => ?_, ?_, ?_⟩
  · have hcount (n : Nat) (hn : n ≤ 2 ^ 24) : nearestSingle n = n :=
      rounded_natCast _ n (by decide) hn
    rw [hcount _ (hvotes.trans hfew), hcount _ hfew]
  · exact (float_le_iff zero_stands hstands).mpr (rounded_nonneg _ _)
  · exact (float_le_iff hstands one_stands).mpr (nearestSingle_share _ _ htrees hvotes hword)

/-! ## Labels -/

/-- A tree only votes for labels there were. -/
theorem FittedTo.label_of_vote {f : Forest} (h : f.FittedTo samples labels params)
    (t : DecisionTree) (ht : t ∈ f.ensemble.trees) (cls : Nat) (row : List Float)
    (hvote : t.VotesFor cls row) : ∃ label ∈ labels, cls = label.toNat := by
  rcases h.trees t ht with ⟨tree, hroot, hwell⟩
  rcases hvote with ⟨tree', hroot', hends⟩
  rw [hroot] at hroot'
  cases hroot'
  rcases hends.leaf_mem with ⟨count, hleaf⟩
  exact (hwell.leaves cls count hleaf).2

/-- Every tree votes for some class. -/
theorem FittedTo.exists_vote {f : Forest} (h : f.FittedTo samples labels params)
    (t : DecisionTree) (ht : t ∈ f.ensemble.trees) (row : List Float) :
    ∃ cls, t.VotesFor cls row := by
  rcases h.trees t ht with ⟨tree, hroot, _⟩
  exact ⟨_, tree, hroot, (tree.endsIn_iff _ _).mpr rfl⟩

theorem FittedTo.buggyVotes_of_clean {f : Forest} (h : f.FittedTo samples labels params)
    (hclean : ∀ label ∈ labels, label = false) (row : List Float) : f.buggyVotes row = 0 := by
  refine List.countP_eq_zero.mpr fun t ht => ?_
  rw [decide_eq_true_eq]
  intro hvote
  rcases h.label_of_vote t ht 1 row hvote with ⟨label, hlabel, hone⟩
  rw [hclean label hlabel] at hone
  cases hone

theorem FittedTo.buggyVotes_of_buggy {f : Forest} (h : f.FittedTo samples labels params)
    (hbuggy : ∀ label ∈ labels, label = true) (row : List Float) :
    f.buggyVotes row = f.ensemble.trees.length := by
  refine List.countP_eq_length.mpr fun t ht => ?_
  rw [decide_eq_true_eq]
  rcases h.exists_vote t ht row with ⟨cls, hvote⟩
  rcases h.label_of_vote t ht cls row hvote with ⟨label, hlabel, hcls⟩
  rw [hbuggy label hlabel] at hcls
  rwa [hcls] at hvote

theorem le_foldl_max_iff (bound start : Nat) (xs : List Nat) :
    bound ≤ xs.foldl max start ↔ bound ≤ start ∨ ∃ x ∈ xs, bound ≤ x := by
  induction xs generalizing start with
  | nil => simp only [List.foldl_nil, List.not_mem_nil, false_and, exists_false, or_false]
  | cons x rest ih => rw [List.foldl_cons, ih, le_max_iff, or_assoc, List.exists_mem_cons_iff]

/-- Votes are counted if there was a buggy row. -/
theorem one_lt_classCount_iff (width : Nat) (rows : List LabelledRow) (params : HyperParameters)
    (chance : Chance) :
    1 < (ofRows width rows params chance).classCount ↔ ∃ r ∈ rows, r.buggy = true := by
  change 1 < (rows.map fun r => if r.buggy then 1 else 0).foldl max 0 + 1 ↔ _
  rw [Nat.lt_add_one_iff, le_foldl_max_iff]
  constructor
  · rintro (hzero | ⟨cls, hcls, hone⟩)
    · omega
    · rcases List.mem_map.mp hcls with ⟨r, hr, rfl⟩
      refine ⟨r, hr, ?_⟩
      by_contra hclean
      rw [if_neg hclean] at hone
      omega
  · rintro ⟨r, hr, hbuggy⟩
    exact .inr ⟨1, List.mem_map.mpr ⟨r, hr, if_pos hbuggy⟩, le_rfl⟩

/-- No trees of many are a share of zero. -/
theorem widen_noVotes (n : Nat) (hpos : 1 ≤ n) (hword : n < 2 ^ 64) :
    widen (Float32.ofNat 0 / Float32.ofNat n) = 0.0 := by
  have hstands := widen_stands _ (share_stands 0 n hpos (Nat.zero_le n) hword)
  rw [Nat.cast_zero, nearestSingle_zero, zero_div, nearestSingle_zero] at hstands
  exact float_eq_of_stands hstands zero_stands

/-- All trees are a share of one. -/
theorem widen_allVotes (n : Nat) (hpos : 1 ≤ n) (hword : n < 2 ^ 64) :
    widen (Float32.ofNat n / Float32.ofNat n) = 1.0 := by
  have hstands := widen_stands _ (share_stands n n hpos le_rfl hword)
  have hnearest := one_pos.trans_le (nearestSingle_count n hpos hword).1
  rw [div_self hnearest.ne', nearestSingle_one] at hstands
  exact float_eq_of_stands hstands one_stands

/-- A fitted forest has some trees, and their number fits a word. -/
theorem FittedTo.trees_bounds {f : Forest} (h : f.FittedTo samples labels params) :
    1 ≤ f.ensemble.trees.length ∧ f.ensemble.trees.length < 2 ^ 64 := by
  have hfit := h.isFitted
  rw [Forest.isFitted, Bool.and_eq_true, Bool.not_eq_true', List.isEmpty_eq_false_iff,
    ← List.length_pos_iff] at hfit
  exact ⟨hfit.2, h.count ▸ params.estimators.toNat_lt⟩

/-- Every score of a fitted forest is a share of its trees, also where nothing was counted. -/
theorem score_eq (forest : Forest) (chance : Chance)
    (hfit : fit samples labels params chance = .ok forest) (row : List Float) :
    forest.score row = widen (Float32.ofNat (forest.buggyVotes row)
      / Float32.ofNat forest.ensemble.trees.length) := by
  have hfitted := fittedTo_of_fit forest hfit
  rcases hfitted.trees_bounds with ⟨htrees, hword⟩
  rcases fit_eq_ok forest hfit with ⟨_, _, hlengths, width, _, hforest⟩
  by_cases hcounted : 1 < forest.classCount
  · rw [score, if_pos hcounted, votes_eq_buggyVotes]
  · have hclean : ∀ label ∈ labels, label = false := by
      intro label hlabel
      rw [← labelled_labels hlengths] at hlabel
      rcases List.mem_map.mp hlabel with ⟨r, hr, rfl⟩
      rw [hforest, one_lt_classCount_iff] at hcounted
      exact Bool.eq_false_iff.mpr fun hbuggy => hcounted ⟨r, hr, hbuggy⟩
    rw [score, if_neg hcounted, hfitted.buggyVotes_of_clean hclean row,
      widen_noVotes _ htrees hword]

end Forest

end CommitRisk
