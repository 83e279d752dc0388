import CommitRisk.Evaluation
import Mathlib.Algebra.BigOperators.Group.Finset.Basic
import Mathlib.Data.Bool.Count

/-!
# What the Figures of a Class Say

The figures of a class are read off a table of how often which class was predicted for which.
The table is as large as the largest class that occurs, so a class may be missing from it, and
what is in it is found by row and column. All that reaches the figures in the end is how many
rows there are for each pair of a true and a predicted label.

An entry of the table is the number of rows with its two classes, and outside the table that
number is zero. A column has all rows that one class was predicted for, and a row of the table
all rows of one true class, so their sums are counts of pairs of labels again. A class that the
table does not have is counted nowhere: its figures would be zero even if they were worked
out.

The four counts change places when all labels are negated, and they stay when the rows are
put in another order.

## Main definitions

* `rowsWith`: The number of rows with a true and a predicted label.
* `ClassMetrics.FiguresOf`: The figures of a class by its counts.

## Theorems

* `Confusion.count_ofPairs`: What an entry of the table is.
* `sum_countP_range`: The entries of a row or a column are all of it.
* `Tally.ofConfusion_ofLabels`: The table has the counts of the pairs.
* `ClassMetrics.ofConfusion_eq`: A class that is missing needs no exception.
* `Tally.ofPairs_eq`: The counts of a class from the four counts.
* `class_figures`: The figures of both classes in every report.
-/

namespace CommitRisk

/-! ## The table -/

/-- What has a property is found by going through all values of a key. -/
theorem sum_countP_range {α : Type} (xs : List α) (key : α → Nat) (p : α → Bool) (bound : Nat)
    (h : ∀ x ∈ xs, key x < bound) :
    ((List.range bound).map fun i => xs.countP fun x => key x == i && p x).sum = xs.countP p := by
  have hcount : ∀ i, (xs.countP fun x => key x == i && p x) = ((xs.filter p).map key).count i := by
    intro i
    rw [List.count, List.countP_map, List.countP_filter]
    rfl
  -- The keys of what has the property are all below the bound, so no count is left out.
  have hall := Multiset.sum_count_eq_card (s := Finset.range bound)
    (m := (((xs.filter p).map key : List Nat) : Multiset Nat)) fun i hi => by
      rcases List.mem_map.mp (Multiset.mem_coe.mp hi) with ⟨x, hx, rfl⟩
      exact Finset.mem_range.mpr (h x (List.mem_filter.mp hx).1)
  simp only [Finset.sum, Finset.range_val, Multiset.range, Multiset.map_coe, Multiset.sum_coe,
    Multiset.coe_count, Multiset.coe_card] at hall
  simp only [hcount]
  calc ((List.range bound).map fun i => ((xs.filter p).map key).count i).sum
      = ((xs.filter p).map key).length := hall
    _ = xs.countP p := by rw [List.length_map, List.countP_eq_length_filter]

namespace Confusion

theorem lt_classCount (pairs : List (Nat × Nat)) (pair : Nat × Nat) (h : pair ∈ pairs) :
    pair.1 < classCount pairs ∧ pair.2 < classCount pairs := by
  have hmax := List.le_max?_getD_of_mem (k := 0)
    (List.mem_map.mpr ⟨pair, h, rfl⟩ : max pair.1 pair.2 ∈ pairs.map fun pair => max pair.1 pair.2)
  unfold classCount
  omega

theorem size_ofPairs (pairs : List (Nat × Nat)) : (ofPairs pairs).size = classCount pairs := by
  rw [size, ofPairs, List.length_map, List.length_range]

/-- An entry of the table is the number of its pairs. Outside the table there are none. -/
theorem count_ofPairs (pairs : List (Nat × Nat)) (truth predicted : Nat) :
    (ofPairs pairs).count truth predicted = pairs.count (truth, predicted) := by
  by_cases hinside : truth < classCount pairs ∧ predicted < classCount pairs
  · simp only [count, ofPairs, List.getElem?_map, List.getElem?_range hinside.1, Option.map_some,
      Option.bind_some, List.getElem?_range hinside.2, Option.getD_some]
  · -- A pair outside would make the table larger, whichever of its two classes is too large.
    have hnone : pairs.count (truth, predicted) = 0 :=
      List.count_eq_zero.mpr fun hpair => hinside (lt_classCount pairs _ hpair)
    rw [hnone, count]
    by_cases htruth : truth < classCount pairs
    · have hpredicted : classCount pairs ≤ predicted :=
        Nat.le_of_not_lt fun h => hinside ⟨htruth, h⟩
      simp only [ofPairs, List.getElem?_map, List.getElem?_range htruth, Option.map_some,
        Option.bind_some, List.getElem?_eq_none (List.length_range.trans_le hpredicted),
        Option.map_none, Option.getD_none]
    · have hrow : (ofPairs pairs).counts.length ≤ truth :=
        (size_ofPairs pairs).trans_le (Nat.le_of_not_lt htruth)
      rw [List.getElem?_eq_none hrow, Option.bind_none, Option.getD_none]

/-- The rows that a class was predicted for are the sum of its column. -/
theorem sum_column (pairs : List (Nat × Nat)) (cls : Nat) :
    ((List.range (ofPairs pairs).size).map fun truth => (ofPairs pairs).count truth cls).sum
      = pairs.countP fun pair => pair.2 == cls := by
  rw [size_ofPairs]
  simp only [count_ofPairs]
  exact sum_countP_range pairs Prod.fst (fun pair => pair.2 == cls) _ fun pair hpair =>
    (lt_classCount pairs pair hpair).1

/-- The rows of a class are the sum of its row. -/
theorem sum_row (pairs : List (Nat × Nat)) (cls : Nat) :
    ((List.range (ofPairs pairs).size).map fun predicted => (ofPairs pairs).count cls predicted).sum
      = pairs.countP fun pair => pair.1 == cls := by
  have hentry : ∀ predicted, (ofPairs pairs).count cls predicted
      = pairs.countP fun pair => pair.2 == predicted && pair.1 == cls := by
    intro predicted
    rw [count_ofPairs]
    exact List.countP_congr fun pair _ => by rw [Bool.and_comm]; rfl
  rw [size_ofPairs]
  simp only [hentry]
  exact sum_countP_range pairs Prod.snd (fun pair => pair.1 == cls) _ fun pair hpair =>
    (lt_classCount pairs pair hpair).2

theorem classOf_beq (label label' : Bool) :
    (classOf label == classOf label') = (label == label') := by
  cases label <;> cases label' <;> rfl

/-- The labels that occur have a row and a column. -/
theorem classOf_lt_size (pairs : List (Bool × Bool)) (label guess : Bool)
    (h : (label, guess) ∈ pairs) :
    classOf label < (ofLabels pairs).size ∧ classOf guess < (ofLabels pairs).size := by
  rw [ofLabels, size_ofPairs]
  exact lt_classCount _ (classOf label, classOf guess)
    (List.mem_map.mpr ⟨(label, guess), h, rfl⟩)

end Confusion

/-- The diagonal, the columns and the rows of the table have the counts of the pairs. -/
theorem Tally.ofConfusion_ofLabels (pairs : List (Bool × Bool)) (cls : Bool) :
    Tally.ofConfusion (.ofLabels pairs) (Confusion.classOf cls) = Tally.ofPairs pairs cls := by
  rw [Tally.ofConfusion, Confusion.ofLabels, ← List.sum_eq_foldl, ← List.sum_eq_foldl,
    Confusion.sum_column, Confusion.sum_row,
    Confusion.count_ofPairs, List.count, List.countP_map, List.countP_map, List.countP_map,
    Tally.ofPairs, Tally.mk.injEq]
  refine ⟨List.countP_congr fun pair _ => ?_, List.countP_congr fun pair _ => ?_,
    List.countP_congr fun pair _ => ?_⟩
  · change ((Confusion.classOf pair.1 == _) && (Confusion.classOf pair.2 == _)) = true ↔ _
    rw [Confusion.classOf_beq, Confusion.classOf_beq]
  · change (Confusion.classOf pair.2 == _) = true ↔ _
    rw [Confusion.classOf_beq]
  · change (Confusion.classOf pair.1 == _) = true ↔ _
    rw [Confusion.classOf_beq]

/-- A class that the table does not have does not occur. -/
theorem Tally.ofPairs_of_missing (pairs : List (Bool × Bool)) (cls : Bool)
    (h : (Confusion.ofLabels pairs).size ≤ Confusion.classOf cls) :
    Tally.ofPairs pairs cls = ⟨0, 0, 0⟩ := by
  have hother : ∀ label guess, (label, guess) ∈ pairs →
      (label == cls) = false ∧ (guess == cls) = false := by
    intro label guess hpair
    have hbelow := Confusion.classOf_lt_size pairs label guess hpair
    rw [← Confusion.classOf_beq, ← Confusion.classOf_beq, beq_eq_false_iff_ne, beq_eq_false_iff_ne]
    omega
  rw [Tally.ofPairs, Tally.mk.injEq, List.countP_eq_zero, List.countP_eq_zero,
    List.countP_eq_zero]
  refine ⟨?_, ?_, ?_⟩ <;> rintro ⟨label, guess⟩ hpair <;>
    simp only [hother label guess hpair, Bool.false_and, Bool.false_eq_true, not_false_eq_true]

namespace ClassMetrics

variable {α : Type} [Scalar α]

theorem ofConfusion_support (pairs : List (Bool × Bool)) (cls : Bool) :
    (ofConfusion (.ofLabels pairs) (Confusion.classOf cls) : ClassMetrics α).support
      = (Tally.ofPairs pairs cls).support := by
  rw [ofConfusion]
  split
  · rename_i hmissing
    rw [Tally.ofPairs_of_missing pairs cls hmissing]
    rfl
  · rw [Tally.ofConfusion_ofLabels]
    rfl

/-- A class that the table does not have needs no exception: its counts are zero, and these
    give zero for every figure. -/
theorem ofConfusion_eq (hzero : Scalar.isZero (Scalar.ofNat 0 + Scalar.ofNat 0 : α) = true)
    (pairs : List (Bool × Bool)) (cls : Bool) :
    (ofConfusion (.ofLabels pairs) (Confusion.classOf cls) : ClassMetrics α)
      = ofTally (Tally.ofPairs pairs cls) := by
  rw [ofConfusion]
  split
  · -- Both quotients are over nothing, and so is the harmonic mean of two zeros.
    rename_i hmissing
    rw [Tally.ofPairs_of_missing pairs cls hmissing]
    simp only [ofTally, ratio, if_true, harmonicMean, hzero, zero]
  · rw [Tally.ofConfusion_ofLabels]

end ClassMetrics

/-! ## Four counts -/

/-- The number of rows with a true and a predicted label. -/
def rowsWith (truth predicted : List Bool) (label guess : Bool) : Nat :=
  (truth.zip predicted).count (label, guess)

/-- A class is predicted for its own rows and for those of the other class, and its rows are
    those it is predicted for and the others. -/
theorem Tally.ofPairs_eq (pairs : List (Bool × Bool)) (cls : Bool) :
    Tally.ofPairs pairs cls = ⟨pairs.count (cls, cls),
      pairs.count (cls, cls) + pairs.count (!cls, cls),
      pairs.count (cls, cls) + pairs.count (cls, !cls)⟩ := by
  rw [Tally.ofPairs, Tally.mk.injEq]
  refine ⟨rfl, ?_⟩
  induction pairs with
  | nil => exact ⟨rfl, rfl⟩
  | cons pair rest ih =>
      rw [List.countP_cons, List.countP_cons, List.count_cons, List.count_cons, List.count_cons,
        ih.1, ih.2]
      -- Each of the four pairs is in one count on either side.
      rcases pair with ⟨label, guess⟩
      cases label <;> cases guess <;> cases cls <;> simp <;> omega

theorem Tally.ofPairs_support (truth predicted : List Bool)
    (h : truth.length = predicted.length) (cls : Bool) :
    (Tally.ofPairs (truth.zip predicted) cls).support = truth.count cls := by
  have hfst := List.countP_map (p := fun b => b == cls) (f := Prod.fst)
    (l := truth.zip predicted)
  rw [List.map_fst_zip (Nat.le_of_eq h)] at hfst
  exact hfst.symm

/-- Negating all labels, the counts of a class become those of the other one. -/
theorem Tally.ofPairs_negated (pairs : List (Bool × Bool)) (cls : Bool) :
    Tally.ofPairs (pairs.map (Prod.map not not)) (!cls) = Tally.ofPairs pairs cls := by
  have hlabel : ∀ label : Bool, ((!label) == (!cls)) = (label == cls) := by
    intro label
    cases label <;> cases cls <;> rfl
  rw [Tally.ofPairs, Tally.ofPairs, List.countP_map, List.countP_map, List.countP_map]
  simp only [Function.comp_def, Prod.map, hlabel]

theorem Tally.ofPairs_of_perm (pairs pairs' : List (Bool × Bool)) (h : pairs.Perm pairs')
    (cls : Bool) : Tally.ofPairs pairs cls = Tally.ofPairs pairs' cls := by
  rw [Tally.ofPairs, Tally.ofPairs, h.countP_eq, h.countP_eq, h.countP_eq]

/-! ## The report -/

namespace Report

variable {α β : Type} [Scalar α] [Scalar β]

/-- Nothing in a report depends on the order of the pairs. -/
theorem ofPairs_of_perm (hzero : Scalar.isZero (Scalar.ofNat 0 + Scalar.ofNat 0 : α) = true)
    (carry : β → α) (pairs pairs' : List (Bool × Bool)) (h : pairs.Perm pairs') :
    ofPairs carry pairs = ofPairs carry pairs' := by
  have hclasses : classes pairs = classes pairs' := by
    rw [classes, classes, h.any_eq]
  have htally := Tally.ofPairs_of_perm pairs pairs' h
  simp only [ofPairs, ClassMetrics.ofConfusion_eq hzero, hclasses, htally, h.length_eq,
    h.countP_eq]

theorem ofLabels_of_mismatch (truth predicted : List Bool)
    (h : truth = [] ∨ truth.length ≠ predicted.length) : ofLabels truth predicted = zero := by
  have hnone : (truth.isEmpty || truth.length != predicted.length) = true := by
    rwa [Bool.or_eq_true, List.isEmpty_iff, bne_iff_ne]
  rw [ofLabels, ofLabelsWith, if_pos hnone]

/-- The figures of both classes are those of their counts, also if there are no rows. -/
theorem ofLabels_of_match (truth predicted : List Bool) (h : truth.length = predicted.length) :
    (ofLabels truth predicted).buggy = .ofTally (Tally.ofPairs (truth.zip predicted) true) ∧
      (ofLabels truth predicted).clean = .ofTally (Tally.ofPairs (truth.zip predicted) false) := by
  cases truth with
  | nil =>
      rw [ofLabels_of_mismatch [] predicted (.inl rfl), List.zip_nil_left]
      exact ⟨rfl, rfl⟩
  | cons label rest =>
      have hsome : ((label :: rest).isEmpty || (label :: rest).length != predicted.length)
          = false := by
        rw [h, bne_self_eq_false, Bool.or_false]
        rfl
      rw [ofLabels, ofLabelsWith, hsome, if_neg Bool.false_ne_true]
      exact ⟨ClassMetrics.ofConfusion_eq rfl _ true, ClassMetrics.ofConfusion_eq rfl _ false⟩

theorem ofLabels_negated (truth predicted : List Bool) :
    (ofLabels (truth.map not) (predicted.map not)).buggy = (ofLabels truth predicted).clean ∧
      (ofLabels (truth.map not) (predicted.map not)).clean = (ofLabels truth predicted).buggy := by
  by_cases h : truth.length = predicted.length
  · have hnegated := ofLabels_of_match (truth.map not) (predicted.map not)
      (by rw [List.length_map, List.length_map, h])
    have hown := ofLabels_of_match truth predicted h
    rw [List.zip_map] at hnegated
    rw [hown.1, hown.2]
    exact ⟨hnegated.1.trans (congrArg _ (Tally.ofPairs_negated (truth.zip predicted) false)),
      hnegated.2.trans (congrArg _ (Tally.ofPairs_negated (truth.zip predicted) true))⟩
  · have hnegated := ofLabels_of_mismatch (truth.map not) (predicted.map not)
      (.inr (by rwa [List.length_map, List.length_map]))
    rw [hnegated, ofLabels_of_mismatch truth predicted (.inr h)]
    exact ⟨rfl, rfl⟩

theorem ofLabels_of_perm (truth predicted truth' predicted' : List Bool)
    (h : truth.length = predicted.length) (h' : truth'.length = predicted'.length)
    (hperm : (truth.zip predicted).Perm (truth'.zip predicted')) :
    ofLabels truth' predicted' = ofLabels truth predicted := by
  -- Whether there is anything to report depends on the lengths alone.
  have hlength := hperm.length_eq
  rw [List.length_zip, List.length_zip, ← h, ← h', Nat.min_self, Nat.min_self] at hlength
  have hempty : truth'.isEmpty = truth.isEmpty := by
    rw [Bool.eq_iff_iff, List.isEmpty_iff_length_eq_zero, List.isEmpty_iff_length_eq_zero, hlength]
  rw [ofLabels, ofLabels, ofLabelsWith, ofLabelsWith, hempty, ← h, ← h', bne_self_eq_false,
    bne_self_eq_false, ofPairs_of_perm rfl widen _ _ hperm]

end Report

/-- The figures of a class by the number of its rows that were found, of the rows of the other
    class that were taken for it, and of its own rows that were missed. What has nothing to
    divide by is zero. -/
structure ClassMetrics.FiguresOf (m : ClassMetrics Float) (found mistaken missed : Nat) :
    Prop where
  precision : m.precision
    = if found + mistaken = 0 then 0.0 else Float.ofNat found / Float.ofNat (found + mistaken)
  sensitivity : m.sensitivity
    = if found + missed = 0 then 0.0 else Float.ofNat found / Float.ofNat (found + missed)
  /-- The harmonic mean of the two. -/
  f1 : m.f1 = if m.precision + m.sensitivity == 0.0 then 0.0
    else 2.0 * m.precision * m.sensitivity / (m.precision + m.sensitivity)
  support : m.support = found + missed

theorem ClassMetrics.figuresOf_ofTally (found mistaken missed : Nat) :
    (ofTally ⟨found, found + mistaken, found + missed⟩ : ClassMetrics Float).FiguresOf
      found mistaken missed :=
  ⟨rfl, rfl, rfl, rfl⟩

/-- The figures of both classes of a report are those of the four counts, with the counts of
    buggy and clean rows in each other's place. Negating all labels swaps the figures of the
    two classes, and the order of the rows does not change anything in the report. All rows
    support one of the classes. Without rows, or if the two lists do not match, everything is
    zero. -/
theorem class_figures (truth predicted : List Bool) :
    (truth ≠ [] → truth.length = predicted.length →
      (Report.ofLabels truth predicted).buggy.FiguresOf (rowsWith truth predicted true true)
        (rowsWith truth predicted false true) (rowsWith truth predicted true false) ∧
      (Report.ofLabels truth predicted).clean.FiguresOf (rowsWith truth predicted false false)
        (rowsWith truth predicted true false) (rowsWith truth predicted false true) ∧
      (Report.ofLabels truth predicted).buggy.support
        + (Report.ofLabels truth predicted).clean.support = truth.length ∧
      ∀ truth' predicted' : List Bool, truth'.length = predicted'.length →
        (truth.zip predicted).Perm (truth'.zip predicted') →
        Report.ofLabels truth' predicted' = Report.ofLabels truth predicted) ∧
    (Report.ofLabels (truth.map not) (predicted.map not)).buggy
      = (Report.ofLabels truth predicted).clean ∧
    (Report.ofLabels (truth.map not) (predicted.map not)).clean
      = (Report.ofLabels truth predicted).buggy ∧
    (truth = [] ∨ truth.length ≠ predicted.length → Report.ofLabels truth predicted
      = ⟨0.0, ⟨0.0, 0.0, 0.0, 0⟩, ⟨0.0, 0.0, 0.0, 0⟩, ⟨0.0, 0.0, 0.0, 0⟩, ⟨0.0, 0.0, 0.0, 0⟩⟩) := by
  have hnegated := Report.ofLabels_negated truth predicted
  refine ⟨fun _ hlength => ?_, hnegated.1, hnegated.2,
    Report.ofLabels_of_mismatch truth predicted⟩
  rcases Report.ofLabels_of_match truth predicted hlength with ⟨hbuggy, hclean⟩
  have hsupports : (Report.ofLabels truth predicted).buggy.support
      + (Report.ofLabels truth predicted).clean.support = truth.length := by
    rw [hbuggy, hclean, ← List.count_true_add_count_false truth,
      ← Tally.ofPairs_support truth predicted hlength true,
      ← Tally.ofPairs_support truth predicted hlength false]
    rfl
  rw [Tally.ofPairs_eq] at hbuggy hclean
  refine ⟨?_, ?_, hsupports, fun truth' predicted' hlength' hperm =>
    Report.ofLabels_of_perm truth predicted truth' predicted' hlength hlength' hperm⟩
  · rw [hbuggy]
    exact ClassMetrics.figuresOf_ofTally _ _ _
  · rw [hclean]
    exact ClassMetrics.figuresOf_ofTally _ _ _

/-- One buggy row that is found, one that is missed, and two clean rows out of three that are
    taken for buggy. They may come in the reverse order, and a list that is too short leaves
    nothing to report. -/
theorem class_figures_mixed :
    [true, true, false, false, false] ≠ [] ∧
    [true, true, false, false, false].length = [true, false, true, true, false].length ∧
    (Report.ofLabels [true, true, false, false, false]
      [true, false, true, true, false]).buggy.FiguresOf 1 2 1 ∧
    (Report.ofLabels [true, true, false, false, false]
      [true, false, true, true, false]).clean.FiguresOf 1 1 2 ∧
    Report.ofLabels [false, false, false, true, true] [false, true, true, false, true]
      = Report.ofLabels [true, true, false, false, false] [true, false, true, true, false] ∧
    (Report.ofLabels [true, true] [true]).accuracy = 0.0 := by
  have hsome : [true, true, false, false, false] ≠ [] := by decide
  have hlength : [true, true, false, false, false].length
      = [true, false, true, true, false].length := by rfl
  have hperm : ([true, true, false, false, false].zip [true, false, true, true, false]).Perm
      ([false, false, false, true, true].zip [false, true, true, false, true]) := by decide
  have hshort : [true, true] = [] ∨ [true, true].length ≠ [true].length := by decide
  rcases (class_figures _ _).1 hsome hlength with ⟨hbuggy, hclean, _, hmoved⟩
  have hnothing := (class_figures [true, true] [true]).2.2.2 hshort
  exact ⟨hsome, hlength, hbuggy, hclean, hmoved _ _ rfl hperm, congrArg Report.accuracy hnothing⟩

end CommitRisk
