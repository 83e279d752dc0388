import CommitRisk.Dataset
import CommitRisk.Number.Scalar
import CommitRisk.RiskModel

/-!
# Model Quality

How well predicted labels agree with true ones: precision, recall and their
harmonic mean for either class, and averages over the classes.

Classes are counted up to the largest label that occurs: if no row is buggy and
none is predicted to be, there is only the clean class to average over. A
quotient without anything to divide by is zero.

The two sets of figures are counted apart. Those of a class are read off a table
of how often which class was predicted for which: its own entry, the sum of its
column and the sum of its row. An average goes over the pairs of labels once for
every class.

The figures of a class are worked out in one arithmetic and the averages in a
narrower one, from figures of their own. Both are parameters, so the two can be
compared where nothing is rounded.

## Main definitions

* `Confusion`: How often which class was predicted for which.
* `Tally`: The counts that the figures of one class depend on.
* `ClassMetrics`: Precision, recall, their harmonic mean and the support.
* `Report`: The figures of both classes and their averages.
* `Report.ofLabels`: The report of true and predicted labels.
* `evaluate`: The report of a model on a test set.
-/

namespace CommitRisk

/-- How often which class was predicted for which: a row of counts for every true
    class, and in it a count for every predicted one. -/
structure Confusion where
  counts : List (List Nat)

namespace Confusion

/-- The class that a label is counted as. -/
def classOf (label : Bool) : Nat :=
  if label then 1 else 0

/-- One more than the largest class of some pairs of true and predicted class. -/
def classCount (pairs : List (Nat × Nat)) : Nat :=
  (pairs.map fun pair => max pair.1 pair.2).max?.getD 0 + 1

/-- The table of pairs of true and predicted class, for every class up to the
    largest one. -/
def ofPairs (pairs : List (Nat × Nat)) : Confusion where
  counts :=
    let classes := List.range (classCount pairs)
    classes.map fun truth => classes.map fun predicted => pairs.count (truth, predicted)

/-- The table of pairs of true and predicted label. -/
def ofLabels (pairs : List (Bool × Bool)) : Confusion :=
  ofPairs (pairs.map fun pair => (classOf pair.1, classOf pair.2))

/-- Number of rows, and of columns. -/
def size (c : Confusion) : Nat :=
  c.counts.length

/-- How often a class was predicted for a true one. -/
def count (c : Confusion) (truth predicted : Nat) : Nat :=
  (c.counts[truth]?.bind fun row => row[predicted]?).getD 0

end Confusion

/-- What there is to count about one class: rows of it that were predicted as
    such, rows predicted as such, and rows of it. -/
structure Tally where
  hits : Nat
  predicted : Nat
  support : Nat
deriving DecidableEq, Repr

/-- The counts of a class in a table: its entry on the diagonal, the sum of its
    column and the sum of its row. -/
def Tally.ofConfusion (c : Confusion) (cls : Nat) : Tally where
  hits := c.count cls cls
  predicted := ((List.range c.size).map fun truth => c.count truth cls).foldl (· + ·) 0
  support := ((List.range c.size).map fun predicted => c.count cls predicted).foldl (· + ·) 0

/-- The counts of a class over pairs of true and predicted label. -/
def Tally.ofPairs (pairs : List (Bool × Bool)) (cls : Bool) : Tally where
  hits := pairs.countP fun (truth, predicted) => truth == cls && predicted == cls
  predicted := pairs.countP fun (_, predicted) => predicted == cls
  support := pairs.countP fun (truth, _) => truth == cls

/-- Precision, recall (the sensitivity), their harmonic mean and the number of
    rows. -/
structure ClassMetrics (α : Type) where
  precision : α
  sensitivity : α
  f1 : α
  support : Nat

/-- The figures of both classes, their averages and the share of rows that were
    predicted right. -/
structure Report (α : Type) where
  accuracy : α
  buggy : ClassMetrics α
  clean : ClassMetrics α
  macroAvg : ClassMetrics α
  weightedAvg : ClassMetrics α

namespace ClassMetrics

variable {α β : Type} [Scalar α] [Scalar β]

/-- Every figure is zero. -/
def zero : ClassMetrics α :=
  ⟨Scalar.ofNat 0, Scalar.ofNat 0, Scalar.ofNat 0, 0⟩

/-- The harmonic mean of precision and recall, zero if both are. -/
def harmonicMean (precision sensitivity : α) : α :=
  if Scalar.isZero (precision + sensitivity) then Scalar.ofNat 0
  else Scalar.ofNat 2 * precision * sensitivity / (precision + sensitivity)

/-- The figures of one class from its counts. -/
def ofTally (t : Tally) : ClassMetrics α :=
  let precision : α := ratio t.hits t.predicted
  let sensitivity : α := ratio t.hits t.support
  ⟨precision, sensitivity, harmonicMean precision sensitivity, t.support⟩

/-- The figures of a class read off a table, all zero if the table does not have
    the class. -/
def ofConfusion (c : Confusion) (cls : Nat) : ClassMetrics α :=
  if c.size ≤ cls then zero else ofTally (Tally.ofConfusion c cls)

/-- The sum of one figure over the classes, each divided by their number. -/
def macroMean (classes : List (ClassMetrics β)) (figure : ClassMetrics β → β) : β :=
  (classes.map figure).foldl (· + ·) (Scalar.ofNat 0) / Scalar.ofNat classes.length

/-- The sum of one figure over the classes, each weighted by its share of the
    rows. -/
def weightedMean (total : Nat) (classes : List (ClassMetrics β)) (figure : ClassMetrics β → β) :
    β :=
  (classes.map fun c => figure c * Scalar.ofNat c.support / Scalar.ofNat total).foldl (· + ·)
    (Scalar.ofNat 0)

/-- The figures of an average, taken one by one. -/
def averaged (mean : (ClassMetrics β → β) → β) (support : Nat) : ClassMetrics β where
  precision := mean precision
  sensitivity := mean sensitivity
  f1 := mean f1
  support := support

/-- The same figures in another arithmetic. -/
def map (f : β → α) (m : ClassMetrics β) : ClassMetrics α :=
  ⟨f m.precision, f m.sensitivity, f m.f1, m.support⟩

end ClassMetrics

namespace Report

variable {α β : Type} [Scalar α] [Scalar β]

/-- Nothing was evaluated. -/
def zero : Report α :=
  ⟨Scalar.ofNat 0, .zero, .zero, .zero, .zero⟩

/-- The classes up to the largest label that occurs. -/
def classes (pairs : List (Bool × Bool)) : List Bool :=
  if pairs.any fun (truth, predicted) => truth || predicted then [false, true] else [false]

/-- The report of pairs of true and predicted label. The averages are worked
    out in the second arithmetic and carried over into the first. -/
def ofPairs (carry : β → α) (pairs : List (Bool × Bool)) : Report α :=
  let confusion := Confusion.ofLabels pairs
  let perClass : List (ClassMetrics β) :=
    (classes pairs).map fun cls => .ofTally (Tally.ofPairs pairs cls)
  let total := pairs.length
  let right := pairs.countP fun (truth, predicted) => truth == predicted
  { accuracy := carry (ratio right total)
    buggy := .ofConfusion confusion (Confusion.classOf true)
    clean := .ofConfusion confusion (Confusion.classOf false)
    macroAvg := (ClassMetrics.averaged (ClassMetrics.macroMean perClass) total).map carry
    weightedAvg :=
      (ClassMetrics.averaged (ClassMetrics.weightedMean total perClass) total).map carry }

/-- The report of true and predicted labels; all zero if there are none or the
    two lists do not match. -/
def ofLabelsWith (carry : β → α) (truth predicted : List Bool) : Report α :=
  if truth.isEmpty || truth.length != predicted.length then .zero
  else ofPairs carry (truth.zip predicted)

/-- The report in doubles, with averages in singles. -/
def ofLabels (truth predicted : List Bool) : Report Float :=
  ofLabelsWith widen truth predicted

end Report

/-- The report of a model on a test set. A row counts as predicted buggy if its
    score reaches the threshold. -/
def evaluate (m : RiskModel Float) (test : TrainingSet) (threshold : Float) :
    Except InferenceError (Report Float) :=
  match m.predict test.samples with
  | .error e => .error e
  | .ok scores =>
      .ok (Report.ofLabels test.labels (scores.map fun score => decide (threshold ≤ score)))

end CommitRisk
