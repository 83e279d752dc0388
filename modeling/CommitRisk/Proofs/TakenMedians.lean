import CommitRisk.Medians
import CommitRisk.Proofs.Checked

/-!
# Medians Can Always Be Taken

A median fails for a sample without values and for one with a NaN in it. Neither
comes up where medians are taken of a column: a column with nothing in it is given
no median at all, and what is left of a column when the NaNs are out has none.

So the errors of a median never reach a training set, and the medians of one are
the plain values that a reader of the model can go on with.

## Theorems

* `not_isNaN_of_mem_present`: What is present is a number.
* `medianOfPresent_eq`: The median of what is present.
* `featureMedians_eq`: There is a median for every feature.
* `ModelMedians.compute_eq`: There are medians of every training set.
-/

namespace CommitRisk

theorem not_isNaN_of_mem_present (values : List (Option Float)) (x : Float)
    (h : x ∈ present values) : x.isNaN = false := by
  have hkept := (List.mem_filter.mp h).2
  rw [Bool.not_eq_true'] at hkept
  exact hkept

/-- Neither of the two reasons for a median to fail is left. -/
theorem medianOfPresent_eq (values : List (Option Float)) :
    medianOfPresent values = .ok
      (if (present values).isEmpty then none else some (middle (sorted (present values)))) := by
  have hnumbers : (present values).any Float.isNaN = false := by
    rw [List.any_eq_false]
    intro x hx
    rw [not_isNaN_of_mem_present values x hx]
    exact Bool.false_ne_true
  -- The sample is asked twice whether it is empty, and the answer is the same.
  unfold medianOfPresent median
  cases (present values).isEmpty with
  | true => rfl
  | false =>
      rw [hnumbers]
      rfl

theorem medianOfPresent_eq_ok (values : List (Option Float)) :
    medianOfPresent values = .ok (medianOfPresent? values) := by
  rw [medianOfPresent?, medianOfPresent_eq]
  rfl

theorem featureMedians_eq (s : Schema) (rows : List (List Float)) :
    featureMedians s rows = .ok (columnMedians s rows) := by
  unfold featureMedians
  rw [mapM_eq_ok _ fun entry =>
    (entry.1, (medianOfPresent? ((column rows entry.2).map some)).getD 0.0)]
  · rfl
  · rintro ⟨feature, position⟩ _
    simp only [featureMedian, medianOfPresent_eq_ok]
    rfl

theorem ModelMedians.compute_eq (s : Schema) (set : TrainingSet) :
    ModelMedians.compute s set = .ok (ModelMedians.ofSet s set) := by
  unfold ModelMedians.compute
  rw [featureMedians_eq, featureMedians_eq, featureMedians_eq]
  rfl

end CommitRisk
