import CommitRisk.Number.Shortest

/-!
# How a Number Is Written

Two texts of a number leave this library. The payload writes JSON, where a
number keeps a point and very large or small ones take an exponent. Messages,
attribution tables and quantile keys write the plain text, which never has an
exponent and drops the point of a whole number. Both write the fewest digits
that read back.

## Main definitions

* `NumberFormat`: The decisions that tell the two texts apart.
* `NumberFormat.json`, `NumberFormat.plain`: The two texts.
* `NumberFormat.finite`: The text of a finite value.
* `plainText`: The plain text of any value, exceptions included.
-/

namespace CommitRisk

/-- The decisions a number's text depends on. -/
structure NumberFormat where
  /-- Whether a number whose leading digit has this exponent is written without
      an exponent. -/
  isPositional : Int → Bool
  /-- Whether a whole number keeps a point and a zero. -/
  keepsPoint : Bool
  /-- Which of two equally near decimals is written. -/
  tie : Tie

namespace NumberFormat

/-- JSON writes positionally from `0.00001` up to below ten to the sixteenth,
    keeps the point there, and settles ties by the even digit. -/
def json : NumberFormat where
  isPositional e := -5 ≤ e && e < 16
  keepsPoint := true
  tie := .toEven

/-- The plain text is always positional and has no point in a whole number. -/
def plain : NumberFormat where
  isPositional _ := true
  keepsPoint := false
  tie := .upward

/-- Decimal digits of a natural number, leading digit first. -/
def digitsOf (n : Nat) : List Char :=
  Nat.toDigits 10 n

/-- Digits with the point put where the exponent says. -/
def positional (f : NumberFormat) (digits : List Char) (exponent : Int) : List Char :=
  if 0 ≤ exponent then
    digits ++ List.replicate exponent.toNat '0' ++ (if f.keepsPoint then ['.', '0'] else [])
  else
    let fraction := (-exponent).toNat
    if fraction < digits.length then
      digits.take (digits.length - fraction) ++ '.' :: digits.drop (digits.length - fraction)
    else '0' :: '.' :: (List.replicate (fraction - digits.length) '0' ++ digits)

/-- Digits with the point after the first one and a signed exponent. -/
def scientific (digits : List Char) (leading : Int) : List Char :=
  let mantissa := match digits with
    | [] => []
    | [d] => [d]
    | d :: rest => d :: '.' :: rest
  mantissa ++ 'e' :: (if leading < 0 then '-' else '+') :: digitsOf leading.natAbs

/-- The text of a finite value given by sign, mantissa and exponent. -/
def finite (f : NumberFormat) (negative : Bool) (mantissa : Nat) (exponent : Int) : List Char :=
  let magnitude :=
    if mantissa == 0 then f.positional ['0'] 0
    else
      let d := shortest f.tie mantissa exponent
      let digits := digitsOf d.digits
      let leading := d.exponent + digits.length - 1
      if f.isPositional leading then f.positional digits d.exponent
      else scientific digits leading
  if negative then '-' :: magnitude else magnitude

end NumberFormat

/-- The plain text of any float. -/
def plainText (x : Float) : String :=
  match Binary.ofFloat x with
  | .nan => "NaN"
  | .infinite true => "-inf"
  | .infinite false => "inf"
  | .finite negative mantissa exponent =>
      String.ofList (NumberFormat.plain.finite negative mantissa exponent)

/-- The JSON text of a float, which only a finite one has. -/
def jsonText? (x : Float) : Option String :=
  match Binary.ofFloat x with
  | .finite negative mantissa exponent =>
      some (String.ofList (NumberFormat.json.finite negative mantissa exponent))
  | _ => none

end CommitRisk
