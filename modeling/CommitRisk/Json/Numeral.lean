import CommitRisk.Json.Reader
import CommitRisk.Text.Numeral

/-!
# Numbers in JSON

What the literal of a number is worth. A count is a run of digits that fits
sixty-four bits. A float is worked out quickly and not always to the last bit:
the leading digits that fit sixty-four bits make an integer, and that integer is
multiplied or divided by a power of ten. A literal past the largest float is
refused; one below the smallest is zero.

## Main definitions

* `Json.count?`: The count that a literal stands for.
* `Json.Scanned`: The integer and the power of ten of a literal.
* `Json.float?`: The float that a literal stands for.
-/

namespace CommitRisk.Json

/-- The count that a literal stands for: digits only, at most sixty-four bits. -/
def count? (literal : String) : Option UInt64 :=
  let digits := literal.toList
  let n := natOfDigits digits
  if digits.all Char.isDigit && !digits.isEmpty && n < Nat.pow 2 64 then some (UInt64.ofNat n)
  else none

/-- The integer made of the leading digits and the power of ten it is to be
    multiplied with. Once a digit does not fit, `full` is set. -/
structure Scanned where
  significand : Nat
  exponent : Int
  full : Bool

namespace Scanned

/-- A digit of the whole part: it joins the integer if it fits, and raises the
    power of ten from then on. -/
def pushWhole (s : Scanned) (c : Char) : Scanned :=
  let next := 10 * s.significand + (c.toNat - '0'.toNat)
  if s.full || Nat.pow 2 64 ≤ next then { s with exponent := s.exponent + 1, full := true }
  else { s with significand := next }

/-- A digit of the fraction: it joins the integer and lowers the power of ten if
    it fits, and is dropped from then on. -/
def pushFraction (s : Scanned) (c : Char) : Scanned :=
  let next := 10 * s.significand + (c.toNat - '0'.toNat)
  if s.full || Nat.pow 2 64 ≤ next then { s with full := true }
  else { s with significand := next, exponent := s.exponent - 1 }

end Scanned

/-- Ten to a power of at most 308. -/
def powerOfTen (exponent : Nat) : Float :=
  Float.ofScientific 1 false exponent

/-- Scales a float by a power of ten, dividing out `10 ^ 308` as often as the
    power needs it. After a few divisions the float is zero. -/
def scaleBy : Nat → Float → Int → Option Float
  | 0, _, _ => some 0.0
  | fuel + 1, x, exponent =>
      if exponent.natAbs ≤ 308 then
        if 0 ≤ exponent then
          let y := x * powerOfTen exponent.natAbs
          if y.isInf then none else some y
        else some (x / powerOfTen exponent.natAbs)
      else if x == 0.0 then some x
      else if 0 ≤ exponent then none
      else scaleBy fuel (x / powerOfTen 308) (exponent + 308)

/-- The signed exponent after its mark. -/
def exponentOf : List Char → Int
  | '-' :: digits => -(natOfDigits digits : Int)
  | '+' :: digits => natOfDigits digits
  | digits => natOfDigits digits

/-- The largest power of ten an exponent is read as. -/
def exponentLimit : Int := Nat.pow 2 31 - 1

/-- The magnitude of a numeral without its sign. -/
def magnitude? (text : List Char) : Option Float :=
  let whole := text.takeWhile Char.isDigit
  let rest := text.dropWhile Char.isDigit
  let fraction := match rest with
    | '.' :: digits => digits.takeWhile Char.isDigit
    | _ => []
  let exponent := match rest.dropWhile fun c => c != 'e' && c != 'E' with
    | [] => 0
    | _ :: digits => exponentOf digits
  let scanned := whole.foldl Scanned.pushWhole ⟨0, 0, false⟩
  -- The fraction gets a fresh start: a smaller digit may fit again.
  let scanned := fraction.foldl Scanned.pushFraction { scanned with full := false }
  if exponentLimit < exponent then if scanned.significand == 0 then some 0.0 else none
  else if exponent < -exponentLimit then some 0.0
  else scaleBy 4 (Float.ofNat scanned.significand) (scanned.exponent + exponent)

/-- The float that a literal stands for. -/
def float? (literal : String) : Option Float :=
  match literal.toList with
  | '-' :: rest => (magnitude? rest).map fun x => -x
  | rest => magnitude? rest

end CommitRisk.Json
