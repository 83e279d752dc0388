import CommitRisk.Number.Scalar
import Mathlib.Algebra.Order.Field.Rat

/-!
# Working with Exact Numbers

The exact reading of a formula replaces doubles by rationals with one undefined
value. Every operation on two rationals is the one that rationals have, so a
formula over defined values is worked out by pulling `Exact.value` to the
outside; an undefined value swallows whatever it meets.

A list of exact numbers has its defined part, `definedPart`, which is a list of
plain rationals. What a formula does with the undefined entries is then said
once, and the rest of an argument is about rationals alone.

## Main definitions

* `Exact.value?`: The rational, if there is one.
* `definedPart`: The rationals of a list of exact numbers.

## Theorems

* `value_add_value`, `value_sub_value`, `value_mul_value`, `value_div_value`:
  Operations on two rationals.
* `foldl_value`: The sum of a list of rationals.
* `mem_definedPart`: The defined part has the rationals of the list.
-/

namespace CommitRisk

namespace Exact

@[simp] theorem value_add_value (p q : Rat) : value p + value q = value (p + q) := rfl

@[simp] theorem value_sub_value (p q : Rat) : value p - value q = value (p - q) := rfl

@[simp] theorem value_mul_value (p q : Rat) : value p * value q = value (p * q) := rfl

@[simp] theorem undefined_add (x : Exact) : undefined + x = undefined := rfl

@[simp] theorem add_undefined (x : Exact) : x + undefined = undefined := by
  cases x <;> rfl

@[simp] theorem undefined_div (x : Exact) : undefined / x = undefined := rfl

@[simp] theorem undefined_mul (x : Exact) : undefined * x = undefined := rfl

theorem value_div_value (p q : Rat) (h : q ≠ 0) : value p / value q = value (p / q) := by
  change (if q = 0 then undefined else value (p / q)) = value (p / q)
  rw [if_neg h]

@[simp] theorem ofNat_zero : (Scalar.ofNat 0 : Exact) = value 0 := by
  change value ((0 : Nat) : Rat) = value 0
  rw [Nat.cast_zero]

@[simp] theorem nan_eq : (Scalar.nan : Exact) = undefined := rfl

@[simp] theorem abs_value (q : Rat) :
    (Scalar.abs (value q) : Exact) = value (if q < 0 then -q else q) := rfl

@[simp] theorem isNaN_value (q : Rat) : Scalar.isNaN (value q) = false := rfl

@[simp] theorem isNaN_undefined : Scalar.isNaN undefined = true := rfl

@[simp] theorem less_value (p q : Rat) :
    Scalar.less (value p) (value q) = decide (p < q) := rfl

@[simp] theorem isZero_value (q : Rat) : Scalar.isZero (value q) = decide (q = 0) := rfl

@[simp] theorem finiteOrZero_value (q : Rat) : finiteOrZero (value q) = value q := rfl

@[simp] theorem finiteOrZero_undefined : finiteOrZero undefined = value 0 := ofNat_zero

/-- Adding up rationals from left to right gives their sum. -/
theorem foldl_value (qs : List Rat) (start : Rat) :
    (qs.map value).foldl (· + ·) (value start) = value (start + qs.sum) := by
  induction qs generalizing start with
  | nil => rw [List.sum_nil, add_zero]; rfl
  | cons q rest ih =>
      rw [List.map_cons, List.foldl_cons, value_add_value, ih, List.sum_cons, add_assoc]

/-- The rational, if there is one. -/
def value? : Exact → Option Rat
  | .value q => some q
  | .undefined => none

end Exact

/-- The rationals of a list of exact numbers, in order. -/
def definedPart (xs : List Exact) : List Rat :=
  xs.filterMap Exact.value?

@[simp] theorem definedPart_nil : definedPart [] = [] := rfl

@[simp] theorem definedPart_value (q : Rat) (xs : List Exact) :
    definedPart (.value q :: xs) = q :: definedPart xs := rfl

@[simp] theorem definedPart_undefined (xs : List Exact) :
    definedPart (.undefined :: xs) = definedPart xs := rfl

theorem mem_definedPart (q : Rat) (xs : List Exact) :
    q ∈ definedPart xs ↔ Exact.value q ∈ xs := by
  induction xs with
  | nil => simp only [definedPart_nil, List.not_mem_nil]
  | cons x rest ih =>
      cases x with
      | value p =>
          simp only [definedPart_value, List.mem_cons, Exact.value.injEq, ih]
      | undefined =>
          simp only [definedPart_undefined, List.mem_cons, reduceCtorEq, false_or, ih]

end CommitRisk
