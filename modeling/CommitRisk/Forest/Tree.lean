/-!
# Decision Trees

A tree asks one feature at a time whether it is at most a threshold and ends in
a leaf with a class. A value that is not a number is at most nothing, so it
goes to the right.

## Main definitions

* `Tree`: A decision tree.
* `Tree.classOf`: The class of the leaf a row ends in.
* `Tree.samples`: The number of rows a tree was grown on.
* `Tree.depth`: The number of questions on the longest path.
* `Tree.addImportances`: What the splits of a tree add to the features.
-/

namespace CommitRisk

/-- A decision tree. A leaf remembers how many rows it was made from. -/
inductive Tree where
  | leaf (cls : Nat) (count : Nat)
  | split (feature : Nat) (threshold : Float32) (left right : Tree)
deriving DecidableEq, Repr

namespace Tree

/-- The value of a row in a column, not a number past its end. -/
def valueAt (row : List Float32) (feature : Nat) : Float32 :=
  row.getD feature (Float32.ofBits 0x7fc00000)

/-- The class of the leaf that a row ends in. -/
def classOf : Tree → List Float32 → Nat
  | .leaf cls _, _ => cls
  | .split feature threshold left right, row =>
      if valueAt row feature ≤ threshold then left.classOf row else right.classOf row

/-- The number of rows in the leaves. -/
def samples : Tree → Nat
  | .leaf _ count => count
  | .split _ _ left right => left.samples + right.samples

/-- The number of questions on the longest path. -/
def depth : Tree → Nat
  | .leaf _ _ => 0
  | .split _ _ left right => max left.depth right.depth + 1

/-- Adds to every feature the number of rows under each split that asks for it,
    from the root down. -/
def addImportances : Tree → List Float32 → List Float32
  | .leaf _ _, totals => totals
  | .split feature threshold left right, totals =>
      let rows := Float32.ofNat (Tree.split feature threshold left right).samples
      right.addImportances (left.addImportances (totals.modify feature fun t => t + rows))

end Tree

end CommitRisk
