import CommitRisk.Number.Binary

/-!
# The Fewest Digits That Read Back

A finite value is written with the fewest significant digits that still read
back to it, and of those decimals the one nearest to the value.

The decimals that read back are the reals in an interval: from halfway to the
float below to halfway to the float above, its ends included exactly when the
mantissa is even. `Neighbourhood` holds that interval in exact arithmetic. For
one, two, ... seventeen digits the search looks at the two decimals around the
value on that grid, and the first grid with a hit wins. If two decimals of a
grid are equally near, the caller's format says which one is taken.

## Main definitions

* `Decimal`: Digits times a power of ten.
* `Neighbourhood`: The reals that round to a float.
* `Neighbourhood.Contains`: Whether a decimal reads back to it.
* `shortest`: The decimal that is written.
-/

namespace CommitRisk

/-- The number `digits * 10 ^ exponent`. -/
structure Decimal where
  digits : Nat
  exponent : Int
deriving DecidableEq, Repr

/-- What to do with two decimals that are equally near to the value. -/
inductive Tie where
  | toEven
  | upward
deriving DecidableEq, Repr

/-- A positive value and the ends of the interval that rounds to it, all three
    in units of `2 ^ exponent`. -/
structure Neighbourhood where
  low : Nat
  value : Nat
  high : Nat
  exponent : Int
  closed : Bool
deriving Repr

namespace Neighbourhood

/-- The interval around `mantissa * 2 ^ exponent`. Just above a power of two
    the float below is half as far away as the float above. -/
def ofBinary (mantissa : Nat) (exponent : Int) : Neighbourhood where
  low := if mantissa == Nat.pow 2 52 && decide (-1074 < exponent) then 4 * mantissa - 1
    else 4 * mantissa - 2
  value := 4 * mantissa
  high := 4 * mantissa + 2
  exponent := exponent - 2
  closed := mantissa % 2 == 0

/-- Compares a decimal with `n` units of the neighbourhood, exactly. -/
def compareWith (r : Neighbourhood) (d : Decimal) (n : Nat) : Ordering :=
  compare (d.digits * Nat.pow 10 d.exponent.toNat * Nat.pow 2 (-r.exponent).toNat)
    (n * Nat.pow 2 r.exponent.toNat * Nat.pow 10 (-d.exponent).toNat)

/-- The decimal rounds to the value in the middle. -/
def Contains (r : Neighbourhood) (d : Decimal) : Bool :=
  let below := r.compareWith d r.low
  let above := r.compareWith d r.high
  (below == .gt || (r.closed && below == .eq)) && (above == .lt || (r.closed && above == .eq))

/-- How many whole multiples of `10 ^ exponent` fit under the value. -/
def floorAt (r : Neighbourhood) (exponent : Int) : Nat :=
  r.value * Nat.pow 2 r.exponent.toNat * Nat.pow 10 (-exponent).toNat
    / (Nat.pow 2 (-r.exponent).toNat * Nat.pow 10 exponent.toNat)

/-- The least exponent whose power of ten exceeds the value. The estimate from
    the binary logarithm is low by at most one, so one of the candidates is
    right. -/
def scale (r : Neighbourhood) : Int :=
  let estimate := ((Nat.log2 r.value : Int) + r.exponent) * 30103 / 100000
  ([estimate - 1, estimate, estimate + 1].find? fun k =>
    r.compareWith ⟨1, k⟩ r.value == .gt).getD (estimate + 2)

/-- Of the two decimals around the value on one grid, the one that reads back,
    and the nearer one if both do. -/
def nearestAt (r : Neighbourhood) (tie : Tie) (exponent : Int) : Option Decimal :=
  let below : Decimal := ⟨r.floorAt exponent, exponent⟩
  let above : Decimal := ⟨r.floorAt exponent + 1, exponent⟩
  match r.Contains below, r.Contains above with
  | true, false => some below
  | false, true => some above
  | false, false => none
  | true, true =>
      -- Twice the value against the sum of the two candidates.
      match r.compareWith ⟨below.digits + above.digits, exponent⟩ (2 * r.value) with
      | .gt => some below
      | .lt => some above
      | .eq => match tie with
        | .upward => some above
        | .toEven => some (if below.digits % 2 == 0 then below else above)

/-- The value itself as a decimal, which has as many digits as it takes. -/
def exact (r : Neighbourhood) : Decimal :=
  if 0 ≤ r.exponent then ⟨r.value * Nat.pow 2 r.exponent.toNat, 0⟩
  else ⟨r.value * Nat.pow 5 (-r.exponent).toNat, r.exponent⟩

end Neighbourhood

namespace Decimal

/-- Moves up to `fuel` trailing zeros from the digits into the exponent. -/
def dropZeros : Nat → Decimal → Decimal
  | 0, d => d
  | fuel + 1, d =>
      if d.digits % 10 == 0 then dropZeros fuel ⟨d.digits / 10, d.exponent + 1⟩ else d

end Decimal

/-- The decimal that is written for a positive `mantissa * 2 ^ exponent`. -/
def shortest (tie : Tie) (mantissa : Nat) (exponent : Int) : Decimal :=
  let r := Neighbourhood.ofBinary mantissa exponent
  let scale := r.scale
  let found := (List.range 17).findSome? fun n => r.nearestAt tie (scale - (n + 1 : Nat))
  (found.getD r.exact).dropZeros 20

end CommitRisk
