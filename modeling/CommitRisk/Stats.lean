import CommitRisk.Number.Format
import CommitRisk.Selection

/-!
# Medians and Quantiles

The two summaries of a metric. Medians are exact: the middle value of a sample
in the total order of doubles, or the mean of the two middle values. They make
the baseline commit, which is fed back to a model. Quantiles only describe a
column in the output; they interpolate between the two nearest ranks and are
worked out in single precision.

## Main definitions

* `StatError`: Why a sample has no such summary.
* `median`: The middle of a sample.
* `medianOfPresent`: The same, with missing values left out.
* `medianOfPresent?`: The same, if there is one.
* `quantile`: The value below which a share of the sample lies.
-/

namespace CommitRisk

/-- Why a sample has no median or no quantile. -/
inductive StatError where
  | quantileOfEmpty
  | quantileOutOfRange (q : Float)
  | medianOfEmpty
  | medianOfNaN
deriving DecidableEq, Repr

/-- The message of a statistics error. -/
def StatError.message : StatError → String
  | .quantileOfEmpty => "Cannot compute quantile of an empty sample"
  | .quantileOutOfRange q => s!"Quantile must be in [0, 1], got {plainText q}"
  | .medianOfEmpty => "Cannot compute median of an empty sample"
  | .medianOfNaN => "Cannot compute median of a sample containing NaN"

/-- A sample in the total order of doubles. -/
def sorted (values : List Float) : List Float :=
  values.mergeSort fun a b => decide (totalKey a ≤ totalKey b)

/-- The middle value of an ordered sample, or the mean of the two middle ones. -/
def middle (ordered : List Float) : Float :=
  let half := ordered.length / 2
  if ordered.length % 2 == 0 then (ordered.getD (half - 1) 0.0 + ordered.getD half 0.0) / 2.0
  else ordered.getD half 0.0

/-- The median of a sample without a NaN in it. -/
def median (values : List Float) : Except StatError Float :=
  if values.isEmpty then .error .medianOfEmpty
  else if values.any Float.isNaN then .error .medianOfNaN
  else .ok (middle (sorted values))

/-- The values of a sample that are there and are numbers. -/
def present (values : List (Option Float)) : List Float :=
  (values.filterMap fun v => v).filter fun x => !x.isNaN

/-- The median of the values that are present, if there are any. -/
def medianOfPresent (values : List (Option Float)) : Except StatError (Option Float) :=
  if (present values).isEmpty then .ok none else (median (present values)).map some

/-- The median of the values that are present, where it does not matter why there is
    none. -/
def medianOfPresent? (values : List (Option Float)) : Option Float :=
  (medianOfPresent values).toOption.join

/-- The share of a sample is between nothing and all of it. -/
def isShare (q : Float) : Bool :=
  decide (0.0 ≤ q) && decide (q ≤ 1.0)

/-- The value at a fractional rank of a sample, on the line between the values at
    the two ranks around it. -/
def atRank (sample : List Float32) (rank : Float) : Float32 :=
  let below := floorCount rank
  let fraction := rank - Float.ofNat below
  let value (n : Nat) : Float32 := (atRank? (fun a b => decide (a < b)) sample n).getD 0.0
  if fraction == 0.0 then value below
  else value below + narrow fraction * (value (below + 1) - value below)

/-- The quantile of a nonempty sample at a share. -/
def quantile (values : List Float) (q : Float) : Except StatError Float :=
  if values.isEmpty then .error .quantileOfEmpty
  else if !isShare q then .error (.quantileOutOfRange q)
  else .ok (widen (atRank (values.map narrow) (Float.ofNat (values.length - 1) * q)))

end CommitRisk
