import CommitRisk.Proofs.ClassFigures
import CommitRisk.Proofs.ExactArithmetic
import Mathlib.Algebra.Order.Field.Basic
import Mathlib.Tactic.Linarith
import Mathlib.Tactic.Ring

/-!
# Averages and Classes

A report has the figures of the classes from one count of the rows and the averages over the
classes from another. Here nothing is rounded, and the two are compared.

In exact arithmetic a quotient by zero can be left as it is, because dividing rationals by zero
gives the zero that is wanted. So the figures of a class are one formula of its counts,
`exactFigures`, whether it occurs or not, and a class without rows has no weight in an average
whether it is counted or not. The weighted averages are then the means of the figures of both
classes with their supports as weights.

What is recalled of a class, times its support, is the number of its rows that were found, so
the weighted recall is the accuracy. And a mean with weights that are not negative lies between
the values that have any weight.

## Main definitions

* `ClassMetrics.exact`: Figures that are rationals.
* `exactFigures`: The figures of a class from its counts.
* `supportMean`: The mean of a figure over both classes.
* `agreements`: The number of positions where two lists agree.

## Theorems

* `ofTally_exact`: The figures of a class in exact arithmetic.
* `weightedMean_exact`: What an average over classes is.
* `weightedMean_classes`: It is the mean over both classes.
* `countP_zip_eq`: The rows that are right are the positions that agree.
* `supportMean_sensitivity`: The weighted recall counts the rows that are right.
* `supportMean_between`: A mean lies between the figures that have weight.
* `averages_agree`: All of it, for every report.
-/

namespace CommitRisk

/-! ## Figures that are not rounded -/

/-- Figures that are all rational numbers. -/
def ClassMetrics.exact (q : ClassMetrics Rat) : ClassMetrics Exact :=
  ⟨.value q.precision, .value q.sensitivity, .value q.f1, q.support⟩

/-- The figures of a class from its counts, where a quotient by zero is zero. -/
def exactFigures (t : Tally) : ClassMetrics Rat :=
  let precision : Rat := t.hits / t.predicted
  let sensitivity : Rat := t.hits / t.support
  ⟨precision, sensitivity, 2 * precision * sensitivity / (precision + sensitivity), t.support⟩

theorem Exact.ofNat_eq (n : Nat) : (Scalar.ofNat n : Exact) = .value n := rfl

theorem Exact.isZero_zero :
    Scalar.isZero (Scalar.ofNat 0 + Scalar.ofNat 0 : Exact) = true := by
  rw [ofNat_zero, value_add_value, add_zero, isZero_value, decide_eq_true rfl]

theorem ratio_exact (part total : Nat) : (ratio part total : Exact) = .value (part / total) := by
  rw [ratio]
  by_cases htotal : total = 0
  · rw [if_pos htotal, htotal, Nat.cast_zero, div_zero, Exact.ofNat_zero]
  · rw [if_neg htotal, Exact.ofNat_eq, Exact.ofNat_eq,
      Exact.value_div_value _ _ (Nat.cast_ne_zero.mpr htotal)]

theorem harmonicMean_exact (p r : Rat) :
    ClassMetrics.harmonicMean (Exact.value p) (.value r) = .value (2 * p * r / (p + r)) := by
  rw [ClassMetrics.harmonicMean, Exact.value_add_value, Exact.isZero_value]
  by_cases hsum : p + r = 0
  · rw [if_pos (decide_eq_true hsum), hsum, div_zero, Exact.ofNat_zero]
  · rw [if_neg (by rwa [decide_eq_true_eq]), Exact.ofNat_eq, Exact.value_mul_value,
      Exact.value_mul_value, Exact.value_div_value _ _ hsum, Nat.cast_ofNat]

theorem ofTally_exact (t : Tally) :
    (ClassMetrics.ofTally t : ClassMetrics Exact) = (exactFigures t).exact := by
  simp only [ClassMetrics.ofTally, ratio_exact, harmonicMean_exact, exactFigures,
    ClassMetrics.exact]

/-! ## Averages -/

/-- The mean of a figure over both classes, each with its support as weight. -/
def supportMean (clean buggy : ClassMetrics Rat) (figure : ClassMetrics Rat → Rat) : Rat :=
  (clean.support * figure clean + buggy.support * figure buggy) / (clean.support + buggy.support)

/-- An average in exact arithmetic is a sum of rationals. -/
theorem weightedMean_exact (total : Nat) (htotal : total ≠ 0) (classes : List (ClassMetrics Rat))
    (figure : ClassMetrics Exact → Exact) (rational : ClassMetrics Rat → Rat)
    (hfigure : ∀ q : ClassMetrics Rat, figure q.exact = .value (rational q)) :
    ClassMetrics.weightedMean total (classes.map ClassMetrics.exact) figure
      = .value (classes.map fun q => rational q * q.support / total).sum := by
  have hterms : (classes.map ClassMetrics.exact).map
        (fun c => figure c * Scalar.ofNat c.support / Scalar.ofNat total)
      = (classes.map fun q => rational q * q.support / total).map Exact.value := by
    rw [List.map_map, List.map_map]
    refine List.map_congr_left fun q _ => ?_
    rw [Function.comp_apply, hfigure, Exact.ofNat_eq, Exact.ofNat_eq, Exact.value_mul_value,
      Exact.value_div_value _ _ (Nat.cast_ne_zero.mpr htotal)]
    rfl
  rw [ClassMetrics.weightedMean, hterms, Exact.ofNat_zero, Exact.foldl_value, zero_add]

/-- The rows of both classes are all rows. -/
theorem Tally.support_add (pairs : List (Bool × Bool)) :
    (Tally.ofPairs pairs false).support + (Tally.ofPairs pairs true).support = pairs.length := by
  have hcount := List.count_true_add_count_false (pairs.map Prod.fst)
  rw [List.length_map, List.count, List.count, List.countP_map, List.countP_map] at hcount
  rw [Nat.add_comm]
  exact hcount

/-- An average goes over the classes up to the largest label, and a class above that has no
    rows. So it is the mean over both classes. -/
theorem weightedMean_classes (pairs : List (Bool × Bool)) (hsome : pairs ≠ [])
    (figure : ClassMetrics Exact → Exact) (rational : ClassMetrics Rat → Rat)
    (hfigure : ∀ q : ClassMetrics Rat, figure q.exact = .value (rational q)) :
    ClassMetrics.weightedMean pairs.length
        ((Report.classes pairs).map fun cls => .ofTally (Tally.ofPairs pairs cls)) figure
      = .value (supportMean (exactFigures (Tally.ofPairs pairs false))
          (exactFigures (Tally.ofPairs pairs true)) rational) := by
  have hexact : (Report.classes pairs).map (fun cls =>
        (.ofTally (Tally.ofPairs pairs cls) : ClassMetrics Exact))
      = ((Report.classes pairs).map fun cls => exactFigures (Tally.ofPairs pairs cls)).map
          ClassMetrics.exact := by
    rw [List.map_map]
    exact List.map_congr_left fun cls _ => ofTally_exact _
  -- The average divides by the rows, and the mean by the supports, which are all rows.
  have hlength := Tally.support_add pairs
  rw [hexact, weightedMean_exact _ (List.length_pos_iff.mpr hsome).ne' _ figure rational hfigure,
    supportMean, ← hlength]
  congr 1
  unfold Report.classes
  split
  · simp only [List.map_cons, List.map_nil, List.sum_cons, List.sum_nil, exactFigures]
    push_cast
    ring
  · rename_i hany
    -- Without a buggy label the buggy class has no support.
    have hbuggy : (Tally.ofPairs pairs true).support = 0 := by
      refine List.countP_eq_zero.mpr fun pair hpair htruth => hany ?_
      exact List.any_eq_true.mpr ⟨pair, hpair, Bool.or_eq_true_iff.mpr (.inl (eq_of_beq htruth))⟩
    simp only [List.map_cons, List.map_nil, List.sum_cons, List.sum_nil, exactFigures, hbuggy]
    push_cast
    ring

/-! ## Rows that are right -/

/-- The number of positions where two lists agree. -/
def agreements (truth predicted : List Bool) : Nat :=
  (List.range truth.length).countP fun i => decide (truth[i]? = predicted[i]?)

theorem countP_zip_eq (truth predicted : List Bool) (h : truth.length = predicted.length) :
    ((truth.zip predicted).countP fun pair => pair.1 == pair.2) = agreements truth predicted := by
  induction truth generalizing predicted with
  | nil => rfl
  | cons label rest ih =>
      cases predicted with
      | nil => cases h
      | cons guess others =>
          have hrest := ih others (Nat.succ.inj h)
          rw [List.zip_cons_cons, List.countP_cons, hrest, agreements, agreements,
            List.length_cons, List.range_succ_eq_map, List.countP_cons, List.countP_map]
          congr 1
          cases label <;> cases guess <;> rfl

/-- The rows that are right are those that were found of both classes. -/
theorem Tally.hits_add (pairs : List (Bool × Bool)) :
    (Tally.ofPairs pairs false).hits + (Tally.ofPairs pairs true).hits
      = pairs.countP fun pair => pair.1 == pair.2 := by
  induction pairs with
  | nil => rfl
  | cons pair rest ih =>
      rw [List.countP_cons, ← ih]
      simp only [Tally.ofPairs, List.countP_cons]
      rcases pair with ⟨label, guess⟩
      cases label <;> cases guess <;> simp <;> omega

theorem Tally.hits_le_support (pairs : List (Bool × Bool)) (cls : Bool) :
    (Tally.ofPairs pairs cls).hits ≤ (Tally.ofPairs pairs cls).support :=
  List.countP_mono_left fun _ _ h => (Bool.and_eq_true_iff.mp h).1

/-- What is recalled of a class counts the rows of it that were found. -/
theorem support_mul_sensitivity (t : Tally) (h : t.hits ≤ t.support) :
    t.support * (exactFigures t).sensitivity = t.hits := by
  change (t.support : Rat) * (t.hits / t.support) = t.hits
  rcases Nat.eq_zero_or_pos t.support with hzero | hpos
  · have hnone : t.hits = 0 := by omega
    rw [hzero, hnone, Nat.cast_zero, zero_mul]
  · rw [mul_div_cancel₀ _ (Nat.cast_ne_zero.mpr hpos.ne')]

/-- The weighted recall is the share of the rows that are right. -/
theorem supportMean_sensitivity (pairs : List (Bool × Bool)) :
    supportMean (exactFigures (Tally.ofPairs pairs false)) (exactFigures (Tally.ofPairs pairs true))
        ClassMetrics.sensitivity
      = (pairs.countP fun pair => pair.1 == pair.2) / pairs.length := by
  rw [supportMean, ← Tally.hits_add, ← Tally.support_add]
  change ((Tally.ofPairs pairs false).support * _ + (Tally.ofPairs pairs true).support * _) /
    (((Tally.ofPairs pairs false).support : Rat) + (Tally.ofPairs pairs true).support) = _
  rw [support_mul_sensitivity _ (Tally.hits_le_support pairs false),
    support_mul_sensitivity _ (Tally.hits_le_support pairs true)]
  push_cast
  rfl

/-! ## Between the classes -/

/-- Bounds of the figures that have weight are bounds of their mean. -/
theorem supportMean_bounds (clean buggy : ClassMetrics Rat) (figure : ClassMetrics Rat → Rat)
    (low high : Rat) (hrows : 0 < clean.support + buggy.support)
    (h : ∀ c ∈ [clean, buggy], 0 < c.support → low ≤ figure c ∧ figure c ≤ high) :
    low ≤ supportMean clean buggy figure ∧ supportMean clean buggy figure ≤ high := by
  have hweighted : ∀ c ∈ [clean, buggy], low * c.support ≤ c.support * figure c ∧
      c.support * figure c ≤ high * c.support := by
    intro c hc
    rcases Nat.eq_zero_or_pos c.support with hzero | hpos
    · rw [hzero, Nat.cast_zero, zero_mul, mul_zero, mul_zero]
      exact ⟨le_rfl, le_rfl⟩
    · have hcast : (0 : Rat) ≤ c.support := Nat.cast_nonneg _
      rw [mul_comm low, mul_comm high]
      exact ⟨mul_le_mul_of_nonneg_left (h c hc hpos).1 hcast,
        mul_le_mul_of_nonneg_left (h c hc hpos).2 hcast⟩
  -- What is left is to add the two and divide by all rows, of which there are some.
  have hclean := hweighted clean List.mem_cons_self
  have hbuggy := hweighted buggy (List.mem_cons_of_mem _ List.mem_cons_self)
  have hcast : (0 : Rat) < clean.support + buggy.support := by exact_mod_cast hrows
  rw [supportMean, le_div_iff₀ hcast, div_le_iff₀ hcast]
  constructor <;> linarith

/-- A mean lies between the figures that have weight. -/
theorem supportMean_between (clean buggy : ClassMetrics Rat) (figure : ClassMetrics Rat → Rat)
    (hrows : 0 < clean.support + buggy.support) :
    ∃ low ∈ [clean, buggy], ∃ high ∈ [clean, buggy], 0 < low.support ∧ 0 < high.support ∧
      figure low ≤ supportMean clean buggy figure ∧
      supportMean clean buggy figure ≤ figure high := by
  have hbounds := fun low high : ClassMetrics Rat =>
    supportMean_bounds clean buggy figure (figure low) (figure high) hrows
  simp only [List.mem_cons, List.not_mem_nil, or_false, forall_eq_or_imp, forall_eq,
    exists_eq_or_imp, exists_eq_left] at hbounds ⊢
  -- A class without rows leaves the other one to be both bounds.
  rcases Nat.eq_zero_or_pos clean.support with hclean | hclean
  · have hbuggy : 0 < buggy.support := by omega
    exact .inr (.inr ⟨hbuggy, hbuggy, hbounds buggy buggy ⟨by omega, fun _ => ⟨le_rfl, le_rfl⟩⟩⟩)
  · rcases Nat.eq_zero_or_pos buggy.support with hbuggy | hbuggy
    · exact .inl (.inl ⟨hclean, hclean,
        hbounds clean clean ⟨fun _ => ⟨le_rfl, le_rfl⟩, by omega⟩⟩)
    · rcases le_total (figure clean) (figure buggy) with hle | hle
      · exact .inl (.inr ⟨hclean, hbuggy,
          hbounds clean buggy ⟨fun _ => ⟨le_rfl, hle⟩, fun _ => ⟨hle, le_rfl⟩⟩⟩)
      · exact .inr (.inl ⟨hbuggy, hclean,
          hbounds buggy clean ⟨fun _ => ⟨hle, le_rfl⟩, fun _ => ⟨le_rfl, hle⟩⟩⟩)

/-! ## The report -/

/-- The report of some pairs in exact arithmetic, from the figures of both classes. -/
theorem Report.ofPairs_exact (pairs : List (Bool × Bool)) (hsome : pairs ≠ []) :
    let report : Report Exact := Report.ofPairs (id : Exact → Exact) pairs
    let clean := exactFigures (Tally.ofPairs pairs false)
    let buggy := exactFigures (Tally.ofPairs pairs true)
    report.accuracy
        = .value ((pairs.countP fun pair => pair.1 == pair.2 : Nat) / (pairs.length : Nat)) ∧
      report.clean = clean.exact ∧ report.buggy = buggy.exact ∧
      report.weightedAvg = ClassMetrics.exact ⟨supportMean clean buggy ClassMetrics.precision,
        supportMean clean buggy ClassMetrics.sensitivity,
        supportMean clean buggy ClassMetrics.f1, pairs.length⟩ := by
  intro report clean buggy
  have hmean := weightedMean_classes pairs hsome
  have hfigures := fun cls => ofTally_exact (Tally.ofPairs pairs cls)
  refine ⟨ratio_exact _ _, ?_, ?_, ?_⟩
  · exact (ClassMetrics.ofConfusion_eq Exact.isZero_zero pairs false).trans (hfigures false)
  · exact (ClassMetrics.ofConfusion_eq Exact.isZero_zero pairs true).trans (hfigures true)
  · change (ClassMetrics.averaged (ClassMetrics.weightedMean pairs.length _) _).map id = _
    rw [ClassMetrics.averaged, ClassMetrics.map, hmean ClassMetrics.precision _ fun _ => rfl,
      hmean ClassMetrics.sensitivity _ fun _ => rfl, hmean ClassMetrics.f1 _ fun _ => rfl]
    rfl

/-- In exact arithmetic the averages of a report agree with the figures of its classes. Each
    weighted figure is the mean of those of the clean and the buggy class, with their supports
    as weights. The weighted recall is the accuracy, and this is the share of the positions
    where the two lists agree. The weighted harmonic mean lies between those of the classes
    that have rows. -/
theorem averages_agree (truth predicted : List Bool) (hsome : truth ≠ [])
    (hlength : truth.length = predicted.length) :
    let report : Report Exact := Report.ofLabelsWith (id : Exact → Exact) truth predicted
    ∃ (accuracy : Rat) (clean buggy weighted : ClassMetrics Rat),
      report.accuracy = .value accuracy ∧ report.clean = clean.exact ∧
      report.buggy = buggy.exact ∧ report.weightedAvg = weighted.exact ∧
      weighted.precision = supportMean clean buggy ClassMetrics.precision ∧
      weighted.sensitivity = supportMean clean buggy ClassMetrics.sensitivity ∧
      weighted.f1 = supportMean clean buggy ClassMetrics.f1 ∧
      weighted.support = clean.support + buggy.support ∧
      weighted.sensitivity = accuracy ∧
      accuracy = agreements truth predicted / truth.length ∧
      ∃ low ∈ [clean, buggy], ∃ high ∈ [clean, buggy], 0 < low.support ∧ 0 < high.support ∧
        low.f1 ≤ weighted.f1 ∧ weighted.f1 ≤ high.f1 := by
  intro report
  have hpairs : (truth.zip predicted).length = truth.length := by
    rw [List.length_zip, ← hlength, Nat.min_self]
  have hzip : truth.zip predicted ≠ [] := by
    rw [← List.length_pos_iff, hpairs]
    exact List.length_pos_iff.mpr hsome
  have hmatch : (truth.isEmpty || truth.length != predicted.length) = false := by
    rw [List.isEmpty_eq_false_iff.mpr hsome, hlength, bne_self_eq_false, Bool.or_false]
  have hreport : report = Report.ofPairs id (truth.zip predicted) := by
    change Report.ofLabelsWith _ _ _ = _
    rw [Report.ofLabelsWith, hmatch, if_neg Bool.false_ne_true]
  rcases Report.ofPairs_exact _ hzip with ⟨haccuracy, hclean, hbuggy, hweighted⟩
  have hright := supportMean_sensitivity (truth.zip predicted)
  have hrows := (Tally.support_add (truth.zip predicted)).trans hpairs
  rw [countP_zip_eq truth predicted hlength, hpairs] at haccuracy hright
  rw [← hreport] at haccuracy hclean hbuggy hweighted
  refine ⟨_, _, _, _, haccuracy, hclean, hbuggy, hweighted, rfl, rfl, rfl, ?_, hright, rfl, ?_⟩
  · exact hpairs.trans hrows.symm
  · exact supportMean_between _ _ ClassMetrics.f1 (hrows ▸ List.length_pos_iff.mpr hsome)

/-- Five rows of which two are right, and a precision that is not the recall. -/
theorem averages_agree_mixed :
    [true, true, false, false, false] ≠ [] ∧
    [true, true, false, false, false].length = [true, false, true, true, false].length ∧
    ∃ accuracy : Rat,
      (Report.ofLabelsWith (id : Exact → Exact) [true, true, false, false, false]
        [true, false, true, true, false]).accuracy = .value accuracy ∧ accuracy = 2 / 5 := by
  have hsome : [true, true, false, false, false] ≠ [] := by decide
  have hlength : [true, true, false, false, false].length
      = [true, false, true, true, false].length := by rfl
  rcases averages_agree _ _ hsome hlength with
    ⟨accuracy, _, _, _, haccuracy, _, _, _, _, _, _, _, _, hshare, _⟩
  refine ⟨hsome, hlength, accuracy, haccuracy, ?_⟩
  rw [hshare]
  rfl

end CommitRisk
