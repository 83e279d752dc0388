/-!
# What the Bits of a Float Stand For

Every exact rule about floats in this library starts from the same reading of
the bits: a float is not a number, an infinity, or a sign with a mantissa and
a power of two. Printing picks digits out of that reading, the split of a
training set takes its ceiling, and the forest narrows its samples with it.

The conversions between the two widths are written out here instead of taken
from the core library, whose versions are opaque: a score is a single
precision quotient that is widened before anyone sees it, and a theorem about
scores has to be able to look through the widening.

## Main definitions

* `Binary`: A float as sign, mantissa and exponent, or one of its exceptions.
* `Binary.ofFloat`, `Binary.ofFloat32`: Reading the bits.
* `narrow`: Rounding a double to the nearest single, ties to even.
* `widen`: The double with the value of a single.
* `ceilCount`, `floorCount`: The ceiling and the whole part as a count.
* `totalKey`: The position of a double in the total order.
-/

namespace CommitRisk

/-- A float read off its bits. The finite value is the mantissa times two to
    the exponent; zero is the finite value with mantissa zero. -/
inductive Binary where
  | nan
  | infinite (negative : Bool)
  | finite (negative : Bool) (mantissa : Nat) (exponent : Int)
deriving DecidableEq, Repr

namespace Binary

/-- The bits of a double: one sign bit, eleven exponent bits and fifty-two
    bits of fraction. -/
def ofFloat (x : Float) : Binary :=
  let bits := x.toBits.toNat
  let negative := bits / Nat.pow 2 63 == 1
  let exponent : Nat := bits / Nat.pow 2 52 % Nat.pow 2 11
  let fraction := bits % Nat.pow 2 52
  if exponent == 2047 then
    if fraction == 0 then .infinite negative else .nan
  else if exponent == 0 then .finite negative fraction (-1074)
  else .finite negative (Nat.pow 2 52 + fraction) (exponent - 1075)

/-- The bits of a single: one sign bit, eight exponent bits and twenty-three
    bits of fraction. -/
def ofFloat32 (x : Float32) : Binary :=
  let bits := x.toBits.toNat
  let negative := bits / Nat.pow 2 31 == 1
  let exponent : Nat := bits / Nat.pow 2 23 % Nat.pow 2 8
  let fraction := bits % Nat.pow 2 23
  if exponent == 255 then
    if fraction == 0 then .infinite negative else .nan
  else if exponent == 0 then .finite negative fraction (-149)
  else .finite negative (Nat.pow 2 23 + fraction) (exponent - 150)

end Binary

/-- Halving `n` the given number of times, rounded to the nearest integer
    with ties going to the even one. -/
def roundHalves (n halvings : Nat) : Nat :=
  let unit := Nat.pow 2 halvings
  let quotient := n / unit
  let rest := 2 * (n % unit)
  if unit < rest || (unit == rest && quotient % 2 == 1) then quotient + 1 else quotient

/-- Magnitude bits of the single nearest to a mantissa times a power of two.
    A carry out of the mantissa moves into the exponent field by itself, and
    everything past the largest single becomes infinity. -/
def narrowMagnitude (mantissa : Nat) (exponent : Int) : Nat :=
  if mantissa == 0 then 0
  else
    let width : Int := Nat.log2 mantissa + 1
    let target := max (exponent + width - 24) (-149)
    let rounded :=
      if target ≤ exponent then mantissa * Nat.pow 2 (exponent - target).toNat
      else roundHalves mantissa (target - exponent).toNat
    min ((target + 149).toNat * Nat.pow 2 23 + rounded) 0x7f800000

/-- The single nearest to a double, ties to even. -/
def narrow (x : Float) : Float32 :=
  match Binary.ofFloat x with
  | .nan => Float32.ofBits 0x7fc00000
  | .infinite negative => Float32.ofBits (if negative then 0xff800000 else 0x7f800000)
  | .finite negative mantissa exponent =>
      let magnitude := narrowMagnitude mantissa exponent
      Float32.ofBits (UInt32.ofNat (if negative then Nat.pow 2 31 + magnitude else magnitude))

/-- Magnitude bits of the double with the given value, which a single's
    mantissa and exponent always have. -/
def widenMagnitude (mantissa : Nat) (exponent : Int) : Nat :=
  if mantissa == 0 then 0
  else
    let shift := 52 - Nat.log2 mantissa
    (exponent - shift + 1074).toNat * Nat.pow 2 52 + mantissa * Nat.pow 2 shift

/-- The double with the value of a single. -/
def widen (x : Float32) : Float :=
  match Binary.ofFloat32 x with
  | .nan => Float.ofBits 0x7ff8000000000000
  | .infinite negative =>
      Float.ofBits (if negative then 0xfff0000000000000 else 0x7ff0000000000000)
  | .finite negative mantissa exponent =>
      let magnitude := widenMagnitude mantissa exponent
      Float.ofBits (UInt64.ofNat (if negative then Nat.pow 2 63 + magnitude else magnitude))

/-- The largest count a machine word holds. -/
def maxCount : Nat := Nat.pow 2 64 - 1

/-- The ceiling of a double as a count: nothing for a value that is negative
    or not a number, and never more than a machine word holds. -/
def ceilCount (x : Float) : Nat :=
  match Binary.ofFloat x with
  | .nan => 0
  | .infinite negative => if negative then 0 else maxCount
  | .finite true _ _ => 0
  | .finite false mantissa exponent =>
      if 0 ≤ exponent then min (mantissa * Nat.pow 2 exponent.toNat) maxCount
      else
        let unit := Nat.pow 2 (-exponent).toNat
        min ((mantissa + (unit - 1)) / unit) maxCount

/-- The whole part of a double as a count: nothing for a value that is negative
    or not a number, and never more than a machine word holds. -/
def floorCount (x : Float) : Nat :=
  match Binary.ofFloat x with
  | .nan => 0
  | .infinite negative => if negative then 0 else maxCount
  | .finite true _ _ => 0
  | .finite false mantissa exponent =>
      if 0 ≤ exponent then min (mantissa * Nat.pow 2 exponent.toNat) maxCount
      else min (mantissa / Nat.pow 2 (-exponent).toNat) maxCount

/-- The position of a double in the total order of all doubles: negative
    values by falling magnitude, then negative zero, then zero and the rest. -/
def totalKey (x : Float) : Int :=
  let bits := x.toBits.toNat
  if bits < Nat.pow 2 63 then bits else Nat.pow 2 63 - 1 - (bits : Int)

end CommitRisk
