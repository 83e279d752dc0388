import CommitRisk.Number.Binary

/-!
# Reading Numbers

The numerals of metrics tables and of the command line. An integer is an
optional sign and digits, and has to fit the word it is read into. A decimal
may leave out the digits on one side of its point and may have an exponent;
`inf`, `infinity` and `nan` stand for themselves in any case. Nothing else is
allowed around or inside a numeral, and reading a decimal rounds to the nearest
double.

## Main definitions

* `natOfDigits`: The value of a run of decimal digits.
* `floatOfDecimal`: The double nearest to a decimal.
* `readInt64`: The integers a date is written in.
* `readFloat`: The numbers a metric is written in.
-/

namespace CommitRisk

/-- The value of a run of decimal digits. -/
def natOfDigits (digits : List Char) : Nat :=
  digits.foldl (fun n c => 10 * n + (c.toNat - '0'.toNat)) 0

/-- An optional sign in front of a numeral, and the rest. -/
def splitSign : List Char → Bool × List Char
  | '-' :: rest => (true, rest)
  | '+' :: rest => (false, rest)
  | rest => (false, rest)

/-- The double nearest to `digits * 10 ^ exponent`. Past four hundred places to
    either side every such number overflows or vanishes, so the powers that are
    worked out stay small. -/
def floatOfDecimal (negative : Bool) (digits : Nat) (exponent : Int) : Float :=
  let magnitude : Float :=
    if digits == 0 then 0.0
    else if 400 < exponent then Float.ofBits 0x7ff0000000000000
    else if exponent + (Nat.log2 digits : Int) < -400 then 0.0
    else if 0 ≤ exponent then Float.ofScientific digits false exponent.toNat
    else Float.ofScientific digits true (-exponent).toNat
  if negative then -magnitude else magnitude

/-- An integer with an optional sign that fits sixty-four bits. -/
def readInt64 (text : List Char) : Option Int64 :=
  let (negative, digits) := splitSign text
  if digits.isEmpty || !digits.all Char.isDigit then none
  else
    let value : Int := if negative then -(natOfDigits digits : Int) else natOfDigits digits
    if -(Nat.pow 2 63 : Int) ≤ value ∧ value < Nat.pow 2 63 then some (Int64.ofInt value)
    else none

/-- The exponent part of a decimal: nothing at all, or a mark, an optional sign
    and at least one digit up to the end. -/
def readExponent : List Char → Option Int
  | [] => some 0
  | mark :: rest =>
      if mark == 'e' || mark == 'E' then
        let (negative, digits) := splitSign rest
        if digits.isEmpty || !digits.all Char.isDigit then none
        else some (if negative then -(natOfDigits digits : Int) else natOfDigits digits)
      else none

/-- The digits after a decimal point, if there is one, and the rest. -/
def splitFraction : List Char → List Char × List Char
  | '.' :: rest => rest.span Char.isDigit
  | rest => ([], rest)

/-- A decimal without its sign. -/
def readMagnitude (negative : Bool) (text : List Char) : Option Float :=
  let (whole, rest) := text.span Char.isDigit
  let (fraction, rest) := splitFraction rest
  if whole.isEmpty && fraction.isEmpty then none
  else (readExponent rest).map fun exponent =>
    floatOfDecimal negative (natOfDigits (whole ++ fraction)) (exponent - fraction.length)

/-- A number as metrics tables and the command line write it. -/
def readFloat (text : List Char) : Option Float :=
  let (negative, rest) := splitSign text
  let word := String.ofList (rest.map Char.toLower)
  if word == "inf" || word == "infinity" then
    some (Float.ofBits (if negative then 0xfff0000000000000 else 0x7ff0000000000000))
  else if word == "nan" then some (Float.ofBits 0x7ff8000000000000)
  else readMagnitude negative rest

end CommitRisk
