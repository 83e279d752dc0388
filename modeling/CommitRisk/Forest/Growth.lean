import CommitRisk.Forest.Tree

/-!
# Growing a Tree

A tree is grown on labelled rows by splitting them where that makes the labels
on the two sides most uniform, and again on either side, until a side has one
label, the largest depth is reached or no split makes anything more uniform.

How mixed a set of labels is, is its Gini impurity. The thresholds that are
tried for a feature lie halfway between neighbouring values; values closer than
a tenth of a billionth count as one. Of equally good splits the first one wins,
in the order of the features and then of the thresholds.

## Main definitions

* `LabelledRow`: A row of singles with its label.
* `gini`: How mixed the labels of a set are.
* `thresholds`: The thresholds that are tried for a column.
* `bestSplit?`: The split that helps most.
* `grow`: The tree of a set of rows.

## Theorems

* `length_atMost_lt`, `length_above_lt`: Both sides of a proper split are
  smaller than the whole.
-/

namespace CommitRisk

/-- A row of singles with its label. -/
structure LabelledRow where
  cells : List Float32
  buggy : Bool

namespace LabelledRow

/-- How many of the rows are buggy. -/
def countBuggy (rows : List LabelledRow) : Nat :=
  rows.countP LabelledRow.buggy

/-- The rows whose value in a column is at most a threshold. -/
def atMost (feature : Nat) (threshold : Float32) (rows : List LabelledRow) : List LabelledRow :=
  rows.filter fun r => decide (Tree.valueAt r.cells feature ≤ threshold)

/-- The rows whose value in a column is not at most a threshold. -/
def above (feature : Nat) (threshold : Float32) (rows : List LabelledRow) : List LabelledRow :=
  rows.filter fun r => !decide (Tree.valueAt r.cells feature ≤ threshold)

theorem length_atMost_add_above (feature : Nat) (threshold : Float32) (rows : List LabelledRow) :
    (atMost feature threshold rows).length + (above feature threshold rows).length
      = rows.length := by
  induction rows with
  | nil => rfl
  | cons r rest ih =>
      by_cases h : Tree.valueAt r.cells feature ≤ threshold
      · simp only [atMost, above, List.filter_cons, h, decide_true, if_true, Bool.not_true,
          Bool.false_eq_true, if_false, List.length_cons] at ih ⊢
        omega
      · simp only [atMost, above, List.filter_cons, h, decide_false, Bool.false_eq_true, if_false,
          Bool.not_false, if_true, List.length_cons] at ih ⊢
        omega

theorem length_atMost_lt {feature : Nat} {threshold : Float32} {rows : List LabelledRow}
    (h : above feature threshold rows ≠ []) :
    (atMost feature threshold rows).length < rows.length := by
  have := length_atMost_add_above feature threshold rows
  have := List.length_pos_iff.2 h
  omega

theorem length_above_lt {feature : Nat} {threshold : Float32} {rows : List LabelledRow}
    (h : atMost feature threshold rows ≠ []) :
    (above feature threshold rows).length < rows.length := by
  have := length_atMost_add_above feature threshold rows
  have := List.length_pos_iff.2 h
  omega

end LabelledRow

open LabelledRow

/-- The square of a class's share of the rows. -/
def squaredShare (part total : Nat) : Float32 :=
  let share := Float32.ofNat part / Float32.ofNat total
  share * share

/-- The chance that two rows drawn with replacement differ in their label: one
    minus the squared share of either class. -/
def gini (total buggy : Nat) : Float32 :=
  1.0 - squaredShare (total - buggy) total - squaredShare buggy total

/-- Drops every value that is not clearly above the last one kept. -/
def spaced : Float32 → List Float32 → List Float32
  | _, [] => []
  | kept, v :: rest => if 1e-10 < v - kept then v :: spaced v rest else spaced kept rest

/-- The distinct values of a column in rising order. -/
def distinctValues (values : List Float32) : List Float32 :=
  match values.mergeSort fun a b => decide (a ≤ b) with
  | [] => []
  | v :: rest => v :: spaced v rest

/-- The points halfway between neighbours. -/
def midpoints : List Float32 → List Float32
  | a :: b :: rest => (a + b) / 2.0 :: midpoints (b :: rest)
  | _ => []

/-- The thresholds that are tried for the values of a column. -/
def thresholds (values : List Float32) : List Float32 :=
  midpoints (distinctValues values)

/-- A split and how much more uniform it makes the labels. -/
structure SplitChoice where
  feature : Nat
  threshold : Float32
  gain : Float32

/-- How much more uniform a split makes the labels, for the numbers of all rows
    and of the rows on the left and how many of each are buggy. -/
def gain (total buggy left leftBuggy : Nat) : Float32 :=
  let right := total - left
  let leftShare := Float32.ofNat left / Float32.ofNat total
  let rightShare := Float32.ofNat right / Float32.ofNat total
  gini total buggy
    - (leftShare * gini left leftBuggy + rightShare * gini right (buggy - leftBuggy))

/-- The split of a column at a threshold, if both sides get a row. The column
    is given as values with their labels. -/
def choiceAt? (feature total buggy : Nat) (column : List (Float32 × Bool))
    (threshold : Float32) : Option SplitChoice :=
  let left := column.filter fun (v, _) => decide (v ≤ threshold)
  if left.length = 0 ∨ left.length = total then none
  else some ⟨feature, threshold, gain total buggy left.length (left.countP Prod.snd)⟩

/-- The splits that are tried for a column. -/
def choicesFor (rows : List LabelledRow) (feature : Nat) : List SplitChoice :=
  let column := rows.map fun r => (Tree.valueAt r.cells feature, r.buggy)
  let total := rows.length
  let buggy := countBuggy rows
  (thresholds (column.map Prod.fst)).filterMap (choiceAt? feature total buggy column)

/-- The better of the best choice so far and another: a choice has to gain
    something, and more than the one before it. -/
def better (best : Option SplitChoice) (other : SplitChoice) : Option SplitChoice :=
  let toBeat := match best with
    | some b => b.gain
    | none => 0.0
  if toBeat < other.gain then some other else best

/-- The split that helps most, if any helps. -/
def bestSplit? (width : Nat) (rows : List LabelledRow) : Option SplitChoice :=
  ((List.range width).flatMap (choicesFor rows)).foldl better none

/-- The class most rows have; clean if there are as many of either. -/
def majority (rows : List LabelledRow) : Nat :=
  if rows.length < 2 * countBuggy rows then 1 else 0

/-- The leaf of a set of rows. -/
def leafOf (rows : List LabelledRow) : Tree :=
  .leaf (majority rows) rows.length

/-- All rows have one label. -/
def isUniform (rows : List LabelledRow) : Bool :=
  countBuggy rows == 0 || countBuggy rows == rows.length

/-- The tree of a set of rows at some depth. -/
def grow (width : Nat) (maxDepth : Option Nat) (depth : Nat) (rows : List LabelledRow) : Tree :=
  if isUniform rows || maxDepth.any fun d => decide (d ≤ depth) then leafOf rows
  else
    match bestSplit? width rows with
    | none => leafOf rows
    | some choice =>
        if h : atMost choice.feature choice.threshold rows ≠ []
            ∧ above choice.feature choice.threshold rows ≠ [] then
          have := length_atMost_lt h.2
          have := length_above_lt h.1
          .split choice.feature choice.threshold
            (grow width maxDepth (depth + 1) (atMost choice.feature choice.threshold rows))
            (grow width maxDepth (depth + 1) (above choice.feature choice.threshold rows))
        else leafOf rows
termination_by rows.length

end CommitRisk
