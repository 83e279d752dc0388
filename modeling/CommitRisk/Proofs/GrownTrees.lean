import CommitRisk.Forest.Growth
import Mathlib.Data.List.Basic

/-!
# What a Grown Tree Looks Like

A tree is grown by dividing rows, and at every point it stands for the rows that are left
there. `GrownOn` says this of a tree without saying which splits were chosen, or why it was
stopped: a leaf is the leaf of its rows, of which there are some, and a split asks for a
column there is and has on either side a tree for the rows that go there.

Everything known about the shape of a grown tree follows by induction on `GrownOn`, with one
case for a leaf and one for a split. The rows of both sides are together the rows of the
split, so no row is lost. Both sides are trees for some rows, so none is empty. And the
class of a leaf is the label of one of its rows, which are among the rows of the whole
tree. Only the depth is not among this; it follows the recursion of `grow` itself.

The growing checks that a chosen split has rows on both sides. This never fails, since a
split with an empty side is not among the choices.

## Main definitions

* `Tree.subtrees`: The trees that a tree consists of.
* `GrownOn`: A tree has the shape of one that was grown on rows.

## Theorems

* `mem_of_bestSplit`: The best split is one of those that were tried.
* `sides_of_bestSplit`: It has rows on both sides.
* `exists_of_majority`: Some row has the label of most rows.
* `grow_grownOn`: The tree of a set of rows is one that was grown on them.
* `grow_depth`: It is not deeper than allowed.
* `GrownOn.samples_eq`: No row is lost.
* `GrownOn.subtree`: Any subtree was grown on some of the rows.
-/

namespace CommitRisk

open LabelledRow

/-! ## The chosen split -/

/-- The better of two choices is one of them. -/
theorem better_eq_or_eq (best : Option SplitChoice) (other : SplitChoice) :
    better best other = some other ∨ better best other = best :=
  ite_eq_or_eq _ _ _

theorem mem_of_foldl_better (choices : List SplitChoice) (best : Option SplitChoice)
    (choice : SplitChoice) (h : choices.foldl better best = some choice) :
    best = some choice ∨ choice ∈ choices := by
  induction choices generalizing best with
  | nil => exact .inl h
  | cons first rest ih =>
      rw [List.foldl_cons] at h
      rcases ih _ h with hbetter | hrest
      · rcases better_eq_or_eq best first with hfirst | hbest
        · rw [hfirst] at hbetter
          cases hbetter
          exact .inr List.mem_cons_self
        · exact .inl (hbest ▸ hbetter)
      · exact .inr (List.mem_cons_of_mem first hrest)

/-- The best split is one of those that were tried for a column there is. -/
theorem mem_of_bestSplit (width : Nat) (rows : List LabelledRow) (choice : SplitChoice)
    (h : bestSplit? width rows = some choice) :
    ∃ feature < width, choice ∈ choicesFor rows feature := by
  rcases mem_of_foldl_better _ none choice h with hnone | hmem
  · cases hnone
  · rcases List.mem_flatMap.mp hmem with ⟨feature, hfeature, hchoice⟩
    exact ⟨feature, List.mem_range.mp hfeature, hchoice⟩

/-- A split that is tried asks for its column and leaves rows on both sides. -/
theorem sides_of_mem_choicesFor (rows : List LabelledRow) (feature : Nat) (choice : SplitChoice)
    (h : choice ∈ choicesFor rows feature) :
    choice.feature = feature ∧ atMost choice.feature choice.threshold rows ≠ [] ∧
      above choice.feature choice.threshold rows ≠ [] := by
  rcases List.mem_filterMap.mp h with ⟨threshold, _, hchoice⟩
  have hall := length_atMost_add_above feature threshold rows
  unfold choiceAt? at hchoice
  simp only [List.filter_map, List.length_map] at hchoice
  split at hchoice
  · cases hchoice
  · rename_i hsides
    cases hchoice
    -- The column and the rows are divided alike.
    change ¬ ((atMost feature threshold rows).length = 0 ∨
      (atMost feature threshold rows).length = rows.length) at hsides
    refine ⟨rfl, ?_, ?_⟩
    · intro hempty
      exact hsides (.inl (by rw [hempty, List.length_nil]))
    · intro hempty
      rw [hempty, List.length_nil, Nat.add_zero] at hall
      exact hsides (.inr hall)

theorem sides_of_bestSplit (width : Nat) (rows : List LabelledRow) (choice : SplitChoice)
    (h : bestSplit? width rows = some choice) :
    choice.feature < width ∧ atMost choice.feature choice.threshold rows ≠ [] ∧
      above choice.feature choice.threshold rows ≠ [] := by
  rcases mem_of_bestSplit width rows choice h with ⟨feature, hwidth, hchoice⟩
  rcases sides_of_mem_choicesFor rows feature choice hchoice with ⟨rfl, hsides⟩
  exact ⟨hwidth, hsides⟩

/-- Among some rows there is one with the label that most of them have. -/
theorem exists_of_majority (rows : List LabelledRow) (hsome : rows ≠ []) :
    ∃ r ∈ rows, majority rows = r.buggy.toNat := by
  have hpos := List.length_pos_iff.mpr hsome
  have hall := List.length_eq_countP_add_countP LabelledRow.buggy (l := rows)
  by_cases hmost : rows.length < 2 * countBuggy rows
  · rw [majority, if_pos hmost]
    have hbuggy : 0 < rows.countP LabelledRow.buggy := by
      rw [countBuggy] at hmost
      omega
    rcases List.countP_pos_iff.mp hbuggy with ⟨r, hr, hlabel⟩
    exact ⟨r, hr, by rw [hlabel, Bool.toNat_true]⟩
  · rw [majority, if_neg hmost]
    rw [countBuggy] at hmost
    have hclean : 0 < rows.countP fun r => decide ¬r.buggy = true := by omega
    rcases List.countP_pos_iff.mp hclean with ⟨r, hr, hlabel⟩
    rw [decide_eq_true_eq, Bool.not_eq_true] at hlabel
    exact ⟨r, hr, by rw [hlabel, Bool.toNat_false]⟩

/-! ## The shape of a tree -/

/-- The trees that a tree consists of, itself first. -/
def Tree.subtrees : Tree → List Tree
  | .leaf cls count => [.leaf cls count]
  | .split feature threshold left right =>
      .split feature threshold left right :: (left.subtrees ++ right.subtrees)

/-- A tree has the shape of one that was grown on rows of a width. -/
inductive GrownOn (width : Nat) : List LabelledRow → Tree → Prop where
  | leaf (rows : List LabelledRow) (hsome : rows ≠ []) : GrownOn width rows (leafOf rows)
  | split (rows : List LabelledRow) (feature : Nat) (threshold : Float32) (left right : Tree)
      (hfeature : feature < width) (hleft : GrownOn width (atMost feature threshold rows) left)
      (hright : GrownOn width (above feature threshold rows) right) :
      GrownOn width rows (.split feature threshold left right)

/-- The tree of a set of rows, whatever ends its growth. -/
theorem grow_grownOn (width : Nat) (maxDepth : Option Nat) (depth : Nat)
    (rows : List LabelledRow) (hsome : rows ≠ []) :
    GrownOn width rows (grow width maxDepth depth rows) := by
  induction depth, rows using grow.induct width maxDepth with
  | case1 depth rows hstop =>
      rw [grow, if_pos hstop]
      exact .leaf rows hsome
  | case2 depth rows hstop hnone =>
      rw [grow, if_neg hstop, hnone]
      exact .leaf rows hsome
  | case3 depth rows hstop choice hchoice hsides _ _ ihleft ihright =>
      have hfeature := (sides_of_bestSplit width rows choice hchoice).1
      rw [grow, if_neg hstop, hchoice]
      simp only [dif_pos hsides]
      exact .split rows _ _ _ _ hfeature (ihleft hsides.1) (ihright hsides.2)
  | case4 depth rows hstop choice hchoice hsides =>
      exact absurd (sides_of_bestSplit width rows choice hchoice).2 hsides

/-- A tree that is grown from some depth on does not grow deeper than allowed. -/
theorem grow_depth (width limit depth : Nat) (rows : List LabelledRow) (hdepth : depth ≤ limit) :
    depth + (grow width (some limit) depth rows).depth ≤ limit := by
  induction depth, rows using grow.induct width (some limit) with
  | case1 depth rows hstop =>
      rw [grow, if_pos hstop]
      exact hdepth
  | case2 depth rows hstop hnone =>
      rw [grow, if_neg hstop, hnone]
      exact hdepth
  | case3 depth rows hstop choice hchoice hsides _ _ ihleft ihright =>
      have hlt : depth < limit := by
        simp only [Option.any_some, Bool.or_eq_true, decide_eq_true_eq, not_or] at hstop
        omega
      rw [grow, if_neg hstop, hchoice]
      simp only [dif_pos hsides, Tree.depth]
      have hleft := ihleft hlt
      have hright := ihright hlt
      omega
  | case4 depth rows hstop choice hchoice hsides =>
      exact absurd (sides_of_bestSplit width rows choice hchoice).2 hsides

namespace GrownOn

variable {width : Nat} {rows : List LabelledRow} {tree : Tree}

/-- The leaves hold as many rows as the tree was grown on. -/
theorem samples_eq (h : GrownOn width rows tree) : tree.samples = rows.length := by
  induction h with
  | leaf rows hsome => rfl
  | split rows feature threshold left right _ _ _ ihleft ihright =>
      rw [Tree.samples, ihleft, ihright, length_atMost_add_above]

theorem rows_ne_nil (h : GrownOn width rows tree) : rows ≠ [] := by
  induction h with
  | leaf rows hsome => exact hsome
  | split rows feature threshold left right _ _ _ ihleft _ =>
      intro hempty
      exact ihleft (by rw [hempty]; rfl)

/-- A subtree was grown on some of the rows. -/
theorem subtree (h : GrownOn width rows tree) (sub : Tree) (hsub : sub ∈ tree.subtrees) :
    ∃ part, part ⊆ rows ∧ GrownOn width part sub := by
  induction h with
  | leaf rows hsome =>
      rw [leafOf, Tree.subtrees, List.mem_singleton] at hsub
      exact ⟨rows, List.Subset.refl rows, hsub ▸ .leaf rows hsome⟩
  | split rows feature threshold left right hfeature hleft hright ihleft ihright =>
      rw [Tree.subtrees, List.mem_cons, List.mem_append] at hsub
      rcases hsub with rfl | hsub | hsub
      · exact ⟨rows, List.Subset.refl rows, .split rows _ _ _ _ hfeature hleft hright⟩
      · rcases ihleft hsub with ⟨part, hpart, hgrown⟩
        exact ⟨part, fun r hr => List.mem_of_mem_filter (hpart hr), hgrown⟩
      · rcases ihright hsub with ⟨part, hpart, hgrown⟩
        exact ⟨part, fun r hr => List.mem_of_mem_filter (hpart hr), hgrown⟩

end GrownOn

end CommitRisk
