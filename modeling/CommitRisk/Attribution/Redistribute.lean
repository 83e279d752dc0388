import CommitRisk.Number.Scalar

/-!
# From Lifts to Contributions

A lift says how far one dimension alone moves a commit's score away from the
score of the baseline, as a share of the latter. Lifts may be negative and do
not add up to anything. Contributions do: the lifts are moved up until none is
negative and then scaled so that they add up to the commit's own score.

A lift that is not a number is left out of the minimum and of the total, and its
contribution is zero. If nothing is left to share out, all contributions are
zero.

## Main definitions

* `smallest?`: The least of the lifts that are numbers.
* `liftShift`: How far the lifts are moved up.
* `redistribute`: The contributions of a list of lifts.
-/

namespace CommitRisk

variable {α : Type} [Scalar α]

/-- The values that are numbers. -/
def numbers (values : List α) : List α :=
  values.filter fun v => !Scalar.isNaN v

/-- The least of the values that are numbers, if there is any. -/
def smallest? (values : List α) : Option α :=
  (numbers values).foldl
    (fun least v => match least with
      | none => some v
      | some m => some (if Scalar.less v m then v else m))
    none

/-- How far lifts are moved up so that none is negative. Without any number
    among them the distance is undefined too. -/
def liftShift (lifts : List α) : α :=
  match smallest? lifts with
  | none => Scalar.nan
  | some m => if Scalar.less (Scalar.ofNat 0) m then Scalar.ofNat 0 else Scalar.abs m

/-- The sum of the values that are numbers. -/
def sumOfNumbers (values : List α) : α :=
  (numbers values).foldl (· + ·) (Scalar.ofNat 0)

/-- The contributions of lifts to a score. -/
def redistribute (lifts : List α) (score : α) : List α :=
  let adjusted := lifts.map fun v => v + liftShift lifts
  let total := sumOfNumbers adjusted
  if Scalar.isZero total then lifts.map fun _ => Scalar.ofNat 0
  else adjusted.map fun a => finiteOrZero (a / total * score)

end CommitRisk
