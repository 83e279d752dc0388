import CommitRisk.Number.Binary

/-!
# Arithmetic of Scores

Lifts, contributions and quality figures are worked out by a handful of
operations. `Scalar` names them, so that each formula is written once and can be
read in more than one arithmetic: in doubles and singles, which is what runs,
and in exact rationals with one undefined value, which is what the formula
means when nothing is rounded.

In the exact reading a quotient by zero is undefined and undefined values
spread, just as not-a-number does; there are no infinities, because no finite
operation overflows.

## Main definitions

* `Scalar`: The operations.
* `Exact`: A rational number or nothing defined.
* `finiteOrZero`: A value with everything that is no finite number made zero.
* `ratio`: A quotient of counts, zero over an empty total.
-/

namespace CommitRisk

/-- The arithmetic that scores are worked out in. -/
class Scalar (α : Type) extends Add α, Sub α, Mul α, Div α where
  ofNat : Nat → α
  nan : α
  abs : α → α
  isNaN : α → Bool
  isFinite : α → Bool
  less : α → α → Bool
  isZero : α → Bool

instance : Scalar Float where
  ofNat := Float.ofNat
  nan := Float.ofBits 0x7ff8000000000000
  abs := Float.abs
  isNaN := Float.isNaN
  isFinite := Float.isFinite
  less a b := decide (a < b)
  isZero x := x == 0.0

instance : Scalar Float32 where
  ofNat := Float32.ofNat
  nan := Float32.ofBits 0x7fc00000
  abs := Float32.abs
  isNaN := Float32.isNaN
  isFinite := Float32.isFinite
  less a b := decide (a < b)
  isZero x := x == 0.0

/-- A rational number, or the undefined result of dividing by zero. -/
inductive Exact where
  | undefined
  | value (q : Rat)
deriving DecidableEq

namespace Exact

/-- An operation on two rationals, undefined as soon as one of them is. -/
def lift (f : Rat → Rat → Rat) : Exact → Exact → Exact
  | .value p, .value q => .value (f p q)
  | _, _ => .undefined

/-- Division, undefined by zero. -/
def div : Exact → Exact → Exact
  | .value p, .value q => if q = 0 then .undefined else .value (p / q)
  | _, _ => .undefined

instance : Scalar Exact where
  add := lift (· + ·)
  sub := lift (· - ·)
  mul := lift (· * ·)
  div := div
  ofNat n := .value n
  nan := .undefined
  abs
    | .value q => .value (if q < 0 then -q else q)
    | .undefined => .undefined
  isNaN
    | .value _ => false
    | .undefined => true
  isFinite
    | .value _ => true
    | .undefined => false
  less
    | .value p, .value q => decide (p < q)
    | _, _ => false
  isZero
    | .value q => decide (q = 0)
    | .undefined => false

end Exact

/-- The value if it is a finite number, and zero otherwise. -/
def finiteOrZero [Scalar α] (x : α) : α :=
  if Scalar.isFinite x then x else Scalar.ofNat 0

/-- A quotient of counts, zero if there is nothing to divide by. -/
def ratio [Scalar α] (part total : Nat) : α :=
  if total = 0 then Scalar.ofNat 0 else Scalar.ofNat part / Scalar.ofNat total

end CommitRisk
