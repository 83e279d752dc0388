import CommitRisk.Attribution.Redistribute
import CommitRisk.Proofs.ExactArithmetic
import Mathlib.Algebra.BigOperators.Ring.List
import Mathlib.Algebra.Order.BigOperators.Group.List
import Mathlib.Algebra.Order.Field.Basic
import Mathlib.Tactic.Linarith
import Mathlib.Tactic.Ring

/-!
# Contributions as Shares of a Score

What `redistribute` does when nothing is rounded: it hands out the score in
proportion to the raised lifts.

In exact arithmetic the lifts that are numbers are a list of rationals with a
least element `m`. The shift is `max (-m) 0`, so every raised lift is at least
zero, and the total of the raised lifts is zero only if each of them is. That
happens exactly if all lifts are the same and none is positive, `IsLevel`, which
is the one case in which there is nothing to go by and every contribution is
zero. In every other case a contribution is a raised lift divided by the total
and scaled by the score. Sum, bounds and order of the contributions are read
off that formula.

## Main definitions

* `IsLevel`: The lifts that are numbers are all one value, and not above zero.
* `raise`: How far a list of rationals is moved up.
* `raisedTotal`: The sum of the rationals once they are moved up.
* `shareOf`: What a lift gets of a score.

## Theorems

* `smallest?_exact`, `liftShift_exact`, `sumOfNumbers_exact`: The parts of
  `redistribute` on rationals.
* `raise_nonneg`, `neg_le_raise`: No rational is negative once it is moved up.
* `raisedTotal_eq_zero_iff`: The raised lifts add up to zero only if they are
  level.
* `redistribute_level`: Level lifts get nothing.
* `redistribute_exact`: Other lifts get their shares.
* `sum_shareOf`, `shareOf_bounds`, `shareOf_mono`: The shares add up to the
  score, lie between zero and the score, and keep their order.
* `mem_zip_map`: The pairs of entries with their images.
* `redistribute_shares_score`: All of it, stated of `redistribute`.
-/

namespace CommitRisk

/-- The lifts that are numbers all have the same value, which is not positive.
    There may be none. -/
def IsLevel (lifts : List Exact) : Prop :=
  ∃ m : Rat, m ≤ 0 ∧ ∀ q, Exact.value q ∈ lifts → q = m

theorem numbers_exact (xs : List Exact) : numbers xs = (definedPart xs).map .value := by
  induction xs with
  | nil => rfl
  | cons x rest ih =>
      unfold numbers at ih ⊢
      cases x with
      | value q =>
          rw [definedPart_value, List.map_cons, ← ih]
          rfl
      | undefined =>
          rw [definedPart_undefined, ← ih]
          rfl

theorem sumOfNumbers_exact (xs : List Exact) :
    sumOfNumbers xs = .value (definedPart xs).sum := by
  rw [sumOfNumbers, numbers_exact, Exact.ofNat_zero, Exact.foldl_value, zero_add]

theorem smallest?_exact (xs : List Exact) :
    smallest? xs = (definedPart xs).min?.map .value := by
  rw [smallest?, numbers_exact]
  cases definedPart xs with
  | nil => rfl
  | cons q rest =>
      rw [List.min?_cons', List.map_cons, List.foldl_cons, Option.map_some]
      -- The least value so far is the accumulator of the minimum.
      induction rest generalizing q with
      | nil => rfl
      | cons p rest ih =>
          rw [List.map_cons, List.foldl_cons, List.foldl_cons, ← ih (min q p)]
          congr 2
          simp only [Exact.less_value, decide_eq_true_eq]
          -- Of two equal values either is the least.
          by_cases h : p < q
          · rw [if_pos h, min_eq_right h.le]
          · rw [if_neg h, min_eq_left (not_lt.mp h)]

/-- How far rationals with the least one `m` are moved up. -/
def raise (m : Rat) : Rat :=
  max (-m) 0

theorem raise_nonneg (m : Rat) : 0 ≤ raise m :=
  le_max_right _ _

theorem neg_le_raise (m : Rat) : -m ≤ raise m :=
  le_max_left _ _

theorem raise_of_nonpos (m : Rat) (h : m ≤ 0) : raise m = -m :=
  max_eq_left (by linarith)

theorem liftShift_exact (lifts : List Exact) (m : Rat) (h : (definedPart lifts).min? = some m) :
    liftShift lifts = .value (raise m) := by
  rw [liftShift, smallest?_exact, h, Option.map_some]
  simp only [Exact.ofNat_zero, Exact.less_value, decide_eq_true_eq, Exact.abs_value]
  -- The shift is zero for a positive least lift and its absolute value otherwise.
  by_cases hpos : 0 < m
  · rw [if_pos hpos, raise, max_eq_right (by linarith)]
  · rw [if_neg hpos, raise_of_nonpos m (not_lt.mp hpos)]
    by_cases hneg : m < 0
    · rw [if_pos hneg]
    · rw [if_neg hneg, show m = 0 by linarith, neg_zero]

theorem liftShift_of_none (lifts : List Exact) (h : definedPart lifts = []) :
    liftShift lifts = .undefined := by
  rw [liftShift, smallest?_exact, h]
  rfl

theorem definedPart_map_add (shift : Rat) (xs : List Exact) :
    definedPart (xs.map fun v => v + .value shift) = (definedPart xs).map (· + shift) := by
  induction xs with
  | nil => rfl
  | cons x rest ih =>
      cases x with
      | value q => rw [List.map_cons, Exact.value_add_value, definedPart_value, ih,
          definedPart_value, List.map_cons]
      | undefined => rw [List.map_cons, Exact.undefined_add, definedPart_undefined, ih,
          definedPart_undefined]

/-- The sum of rationals that are moved up by `shift`. -/
def raisedTotal (shift : Rat) (qs : List Rat) : Rat :=
  (qs.map (· + shift)).sum

/-- What a lift gets of a score: the raised lift divided by the total, as a part
    of the score. An undefined lift gets nothing. -/
def shareOf (shift total score : Rat) : Exact → Rat
  | .value q => (q + shift) / total * score
  | .undefined => 0

theorem raised_nonneg (qs : List Rat) (m : Rat) (hmin : qs.min? = some m) :
    ∀ x ∈ qs.map (· + raise m), 0 ≤ x := by
  intro x hx
  rcases List.mem_map.mp hx with ⟨q, hq, rfl⟩
  have hle : m ≤ q := (List.min?_eq_some_iff.mp hmin).2 q hq
  have := neg_le_raise m
  linarith

/-- A sum of values that are not negative is zero only if each of them is. The
    least lift is one of them, so the shift is its distance to zero. -/
theorem raisedTotal_eq_zero_iff (qs : List Rat) (m : Rat) (hmin : qs.min? = some m) :
    raisedTotal (raise m) qs = 0 ↔ m ≤ 0 ∧ ∀ q ∈ qs, q = m := by
  have hmem : m ∈ qs := (List.min?_eq_some_iff.mp hmin).1
  constructor
  · intro hzero
    -- No raised value is negative, so none of them is positive either.
    have heach : ∀ q ∈ qs, q + raise m = 0 := fun q hq =>
      List.all_zero_of_le_zero_le_of_sum_eq_zero (raised_nonneg qs m hmin) hzero
        (List.mem_map.mpr ⟨q, hq, rfl⟩)
    have hm := heach m hmem
    have hshift := raise_nonneg m
    refine ⟨by linarith, fun q hq => ?_⟩
    have := heach q hq
    linarith
  · rintro ⟨hm, hall⟩
    have hraised : qs.map (· + raise m) = qs.map fun _ => 0 := by
      refine List.map_congr_left fun q hq => ?_
      rw [hall q hq, raise_of_nonpos m hm, add_neg_cancel]
    rw [raisedTotal, hraised, List.sum_map_zero]

theorem raisedTotal_nonneg (qs : List Rat) (m : Rat) (hmin : qs.min? = some m) :
    0 ≤ raisedTotal (raise m) qs :=
  List.sum_nonneg (raised_nonneg qs m hmin)

theorem isLevel_iff (lifts : List Exact) (m : Rat) (hmin : (definedPart lifts).min? = some m) :
    IsLevel lifts ↔ raisedTotal (raise m) (definedPart lifts) = 0 := by
  rw [raisedTotal_eq_zero_iff _ m hmin]
  have hmem := (List.min?_eq_some_iff.mp hmin).1
  constructor
  · rintro ⟨v, hv, hall⟩
    have hmv : m = v := hall m ((mem_definedPart m lifts).mp hmem)
    rw [hmv]
    exact ⟨hv, fun q hq => hall q ((mem_definedPart q lifts).mp hq)⟩
  · rintro ⟨hm, hall⟩
    exact ⟨m, hm, fun q hq => hall q ((mem_definedPart q lifts).mpr hq)⟩

/-- The total that `redistribute` divides by. -/
theorem total_exact (lifts : List Exact) (m : Rat) (hmin : (definedPart lifts).min? = some m) :
    sumOfNumbers (lifts.map fun v => v + liftShift lifts)
      = .value (raisedTotal (raise m) (definedPart lifts)) := by
  rw [liftShift_exact lifts m hmin, sumOfNumbers_exact, definedPart_map_add]
  rfl

theorem redistribute_level (lifts : List Exact) (score : Exact) (h : IsLevel lifts) :
    redistribute lifts score = lifts.map fun _ => .value 0 := by
  have htotal : Scalar.isZero (sumOfNumbers (lifts.map fun v => v + liftShift lifts)) = true := by
    cases hmin : (definedPart lifts).min? with
    | none =>
        -- Without any number the shift is undefined, and so is every raised lift.
        rw [liftShift_of_none lifts (List.min?_eq_none_iff.mp hmin), sumOfNumbers_exact]
        have hnone : definedPart (lifts.map fun v => v + .undefined) = [] := by
          refine List.filterMap_eq_nil_iff.mpr fun x hx => ?_
          rcases List.mem_map.mp hx with ⟨v, _, rfl⟩
          rw [Exact.add_undefined]
          rfl
        rw [hnone, List.sum_nil, Exact.isZero_value, decide_eq_true rfl]
    | some m =>
        rw [total_exact lifts m hmin, (isLevel_iff lifts m hmin).mp h, Exact.isZero_value,
          decide_eq_true rfl]
  simp only [redistribute, htotal, if_true, Exact.ofNat_zero]

theorem redistribute_exact (lifts : List Exact) (score m : Rat)
    (hmin : (definedPart lifts).min? = some m)
    (htotal : raisedTotal (raise m) (definedPart lifts) ≠ 0) :
    redistribute lifts (.value score) = (lifts.map
      (shareOf (raise m) (raisedTotal (raise m) (definedPart lifts)) score)).map .value := by
  -- The guard for a total of zero does not apply, so every lift is divided by it.
  have hzero : Scalar.isZero (sumOfNumbers (lifts.map fun v => v + liftShift lifts)) = false := by
    rw [total_exact lifts m hmin, Exact.isZero_value, decide_eq_false htotal]
  simp only [redistribute, hzero, Bool.false_eq_true, if_false, List.map_map]
  refine List.map_congr_left fun v _ => ?_
  rw [Function.comp_apply, Function.comp_apply, total_exact lifts m hmin,
    liftShift_exact lifts m hmin]
  cases v with
  | value q =>
      rw [Exact.value_add_value, Exact.value_div_value _ _ htotal, Exact.value_mul_value,
        Exact.finiteOrZero_value, shareOf]
  | undefined =>
      rw [Exact.undefined_add, Exact.undefined_div, Exact.undefined_mul,
        Exact.finiteOrZero_undefined, shareOf]

theorem sum_shareOf (shift total score : Rat) (xs : List Exact) :
    (xs.map (shareOf shift total score)).sum
      = raisedTotal shift (definedPart xs) / total * score := by
  unfold raisedTotal
  induction xs with
  | nil => rw [List.map_nil, List.sum_nil, definedPart_nil, List.map_nil, List.sum_nil, zero_div,
      zero_mul]
  | cons x rest ih =>
      cases x with
      | value q =>
          rw [List.map_cons, List.sum_cons, ih, definedPart_value, List.map_cons, List.sum_cons,
            shareOf]
          ring
      | undefined =>
          rw [List.map_cons, List.sum_cons, ih, definedPart_undefined, shareOf, zero_add]

theorem shareOf_mono (shift total score p q : Rat) (htotal : 0 ≤ total) (hscore : 0 ≤ score)
    (hpq : p ≤ q) :
    shareOf shift total score (.value p) ≤ shareOf shift total score (.value q) := by
  unfold shareOf
  have hraised : p + shift ≤ q + shift := by linarith
  exact mul_le_mul_of_nonneg_right (div_le_div_of_nonneg_right hraised htotal) hscore

/-- Each share lies between nothing and the whole score. -/
theorem shareOf_bounds (lifts : List Exact) (m score : Rat)
    (hmin : (definedPart lifts).min? = some m)
    (htotal : 0 < raisedTotal (raise m) (definedPart lifts)) (hscore : 0 ≤ score) (v : Exact)
    (hv : v ∈ lifts) :
    0 ≤ shareOf (raise m) (raisedTotal (raise m) (definedPart lifts)) score v ∧
      shareOf (raise m) (raisedTotal (raise m) (definedPart lifts)) score v ≤ score := by
  cases v with
  | undefined => exact ⟨le_refl 0, hscore⟩
  | value q =>
      -- A part of a sum of values that are not negative is at most the sum.
      have hmem : q + raise m ∈ (definedPart lifts).map (· + raise m) :=
        List.mem_map.mpr ⟨q, (mem_definedPart q lifts).mpr hv, rfl⟩
      have hnonneg := raised_nonneg _ m hmin
      have hpart : q + raise m ≤ raisedTotal (raise m) (definedPart lifts) :=
        List.single_le_sum hnonneg _ hmem
      have hshare : (q + raise m) / raisedTotal (raise m) (definedPart lifts) ≤ 1 :=
        (div_le_one htotal).mpr hpart
      unfold shareOf
      refine ⟨mul_nonneg (div_nonneg (hnonneg _ hmem) htotal.le) hscore, ?_⟩
      exact mul_le_of_le_one_left hscore hshare

theorem mem_zip_map {β : Type} (f : Exact → β) (xs : List Exact) (v : Exact) (c : β) :
    (v, c) ∈ xs.zip (xs.map f) ↔ v ∈ xs ∧ c = f v := by
  induction xs with
  | nil => simp only [List.map_nil, List.zip_nil_right, List.not_mem_nil, false_and]
  | cons x rest ih =>
      simp only [List.map_cons, List.zip_cons_cons, List.mem_cons, Prod.mk.injEq, ih]
      constructor
      · rintro (⟨rfl, rfl⟩ | ⟨hmem, heq⟩)
        · exact ⟨Or.inl rfl, rfl⟩
        · exact ⟨Or.inr hmem, heq⟩
      · rintro ⟨rfl | hmem, heq⟩
        · exact Or.inl ⟨rfl, heq⟩
        · exact Or.inr ⟨hmem, heq⟩

/-- Contributions in exact arithmetic. Level lifts leave nothing to share out.
    In every other case the whole score is handed out, an undefined lift and a
    least lift that is not positive get nothing of it, and a score that is not
    negative gives contributions between zero and the score that are ordered
    like their lifts. -/
theorem redistribute_shares_score (lifts : List Exact) (score : Rat) :
    ∃ shares : List Rat, redistribute lifts (.value score) = shares.map .value ∧
      shares.length = lifts.length ∧
      (IsLevel lifts → ∀ c ∈ shares, c = 0) ∧
      (¬ IsLevel lifts →
        shares.sum = score ∧
        (∀ c, (Exact.undefined, c) ∈ lifts.zip shares → c = 0) ∧
        (∀ m c, (Exact.value m, c) ∈ lifts.zip shares → m ≤ 0 →
          (∀ q, Exact.value q ∈ lifts → m ≤ q) → c = 0) ∧
        (0 ≤ score →
          (∀ c ∈ shares, 0 ≤ c ∧ c ≤ score) ∧
          ∀ p q c d, (Exact.value p, c) ∈ lifts.zip shares →
            (Exact.value q, d) ∈ lifts.zip shares → p ≤ q → c ≤ d)) := by
  by_cases hlevel : IsLevel lifts
  · refine ⟨lifts.map fun _ => 0, ?_, List.length_map _, fun _ c hc => ?_,
      fun h => absurd hlevel h⟩
    · rw [redistribute_level lifts _ hlevel, List.map_map]
      rfl
    · rcases List.mem_map.mp hc with ⟨_, _, rfl⟩
      rfl
  · -- Lifts without any number would be level, so there is a least one.
    obtain ⟨m, hmin⟩ : ∃ m, (definedPart lifts).min? = some m := by
      rw [← Option.isSome_iff_exists, List.isSome_min?_iff]
      intro hnone
      refine hlevel ⟨0, le_refl 0, fun q hq => ?_⟩
      rw [← mem_definedPart, hnone] at hq
      exact absurd hq List.not_mem_nil
    have hne : raisedTotal (raise m) (definedPart lifts) ≠ 0 := fun h =>
      hlevel ((isLevel_iff lifts m hmin).mpr h)
    have hpos : 0 < raisedTotal (raise m) (definedPart lifts) :=
      lt_of_le_of_ne (raisedTotal_nonneg _ m hmin) (Ne.symm hne)
    set share := shareOf (raise m) (raisedTotal (raise m) (definedPart lifts)) score with hshare
    have hpair : ∀ v c, (v, c) ∈ lifts.zip (lifts.map share) → v ∈ lifts ∧ c = share v :=
      fun v c => (mem_zip_map share lifts v c).mp
    refine ⟨lifts.map share, redistribute_exact lifts score m hmin hne, List.length_map _,
      fun h => absurd h hlevel, fun _ => ⟨?_, ?_, ?_, fun hscore => ⟨?_, ?_⟩⟩⟩
    · rw [hshare, sum_shareOf, div_self hne, one_mul]
    · intro c hc
      rw [(hpair _ _ hc).2, hshare, shareOf]
    · intro p c hc hp hleast
      -- The least lift is the one that the shift moves to zero.
      have hpm : p = m := le_antisymm
        (hleast m ((mem_definedPart m lifts).mp (List.min?_eq_some_iff.mp hmin).1))
        ((List.min?_eq_some_iff.mp hmin).2 p ((mem_definedPart p lifts).mpr (hpair _ _ hc).1))
      rw [(hpair _ _ hc).2, hshare, shareOf, hpm, raise_of_nonpos m (hpm ▸ hp), add_neg_cancel,
        zero_div, zero_mul]
    · intro c hc
      rcases List.mem_map.mp hc with ⟨v, hv, rfl⟩
      exact shareOf_bounds lifts m score hmin hpos hscore v hv
    · intro p q c d hc hd hpq
      rw [(hpair _ _ hc).2, (hpair _ _ hd).2]
      exact shareOf_mono _ _ _ p q hpos.le hscore hpq

example : redistribute [Exact.value (1 / 2), .undefined, .value (-1 / 5)] (.value (3 / 10))
    = [.value (3 / 10), .value 0, .value 0] := by decide +kernel

end CommitRisk
