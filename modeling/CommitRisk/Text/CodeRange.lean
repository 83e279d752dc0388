/-!
# Ranges of Code Points

A property of characters, given by ranges of their code points.

## Main definitions

* `CodeRange`: The code points from one to another, both included.
* `inRanges`: The characters in some of the ranges.
-/

namespace CommitRisk

/-- The code points from one to another, both included. -/
abbrev CodeRange := Nat × Nat

/-- The character is in one of the ranges. -/
def inRanges (ranges : List CodeRange) (c : Char) : Bool :=
  ranges.any fun (low, high) => low ≤ c.toNat && c.toNat ≤ high

end CommitRisk
