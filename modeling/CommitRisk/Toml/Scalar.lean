import CommitRisk.Text.Numeral
import CommitRisk.Toml.Basic

/-!
# Plain Values of TOML

A value that is neither a string nor a container is one run of characters:
`true` or `false`, an integer in one of four bases, a float, or a date or time.
Underscores may stand between digits and nowhere else. An integer has to fit
sixty-four bits, and a float may not grow to infinity unless it says so.

## Main definitions

* `Toml.digitsOf?`: The digits of a numeral without its underscores.
* `Toml.integer?`, `Toml.float?`: Numbers.
* `Toml.isDate`, `Toml.isTime`, `Toml.isDateTime`: Dates and times.
* `Toml.scalar?`: The value that a run of characters stands for.
-/

namespace CommitRisk.Toml

/-- The digits of a numeral, which may have single underscores between them. -/
def digitsOf? (isDigit : Char → Bool) : List Char → Option (List Char)
  | [] => none
  | [c] => if isDigit c then some [c] else none
  | c :: '_' :: rest => if isDigit c then (digitsOf? isDigit rest).map (c :: ·) else none
  | c :: rest => if isDigit c then (digitsOf? isDigit rest).map (c :: ·) else none

/-- Decimal digits without a zero in front. -/
def wholeDigits? (text : List Char) : Option (List Char) :=
  (digitsOf? Char.isDigit text).filter fun digits =>
    digits == ['0'] || digits.head? != some '0'

/-- The value of a digit in a base up to sixteen. -/
def digitValue? (base : Nat) (c : Char) : Option Nat :=
  let v :=
    if c.isDigit then c.toNat - '0'.toNat
    else if 'a' ≤ c ∧ c ≤ 'f' then c.toNat - 'a'.toNat + 10
    else if 'A' ≤ c ∧ c ≤ 'F' then c.toNat - 'A'.toNat + 10
    else base
  if v < base then some v else none

/-- An integer in a base other than ten, which has no sign. -/
def integerInBase? (base : Nat) (text : List Char) : Option Int :=
  (digitsOf? (fun c => (digitValue? base c).isSome) text).bind fun digits =>
    let n := digits.foldl (fun n c => n * base + (digitValue? base c).getD 0) 0
    if n < Nat.pow 2 63 then some (n : Int) else none

/-- An integer. -/
def integer? (text : List Char) : Option Int :=
  match text with
  | '0' :: 'x' :: rest => integerInBase? 16 rest
  | '0' :: 'o' :: rest => integerInBase? 8 rest
  | '0' :: 'b' :: rest => integerInBase? 2 rest
  | _ =>
      let (negative, rest) := splitSign text
      (wholeDigits? rest).bind fun digits =>
        let n : Int := if negative then -(natOfDigits digits : Int) else natOfDigits digits
        if -(Nat.pow 2 63 : Int) ≤ n ∧ n < Nat.pow 2 63 then some n else none

/-- The exponent after its mark, which may have zeros in front. -/
def exponent? (text : List Char) : Option Int :=
  let (negative, rest) := splitSign text
  (digitsOf? Char.isDigit rest).map fun digits =>
    if negative then -(natOfDigits digits : Int) else natOfDigits digits

/-- A float written in digits, with a fraction, an exponent or both. A float past
    the largest one is refused, though not below the smallest. -/
def decimal? (text : List Char) : Option Float := do
  let (negative, rest) := splitSign text
  let isMark (c : Char) : Bool := c == 'e' || c == 'E'
  let (mantissa, tail) := rest.span fun c => !isMark c
  let (whole, fraction) := mantissa.span fun c => c != '.'
  if fraction.isEmpty && tail.isEmpty then none
  let whole ← wholeDigits? whole
  let fraction ← if fraction.isEmpty then some [] else digitsOf? Char.isDigit fraction.tail
  let exponent ← if tail.isEmpty then some 0 else exponent? tail.tail
  let x := floatOfDecimal negative (natOfDigits (whole ++ fraction)) (exponent - fraction.length)
  if x.isInf && !negative then none else some x

/-- A float, written in digits or by name. -/
def float? (text : List Char) : Option Float :=
  let (negative, rest) := splitSign text
  if rest == "inf".toList then
    some (Float.ofBits (if negative then 0xfff0000000000000 else 0x7ff0000000000000))
  else if rest == "nan".toList then some (Float.ofBits 0x7ff8000000000000)
  else decimal? text

/-- A number of exactly so many digits within bounds. -/
def isField (width low high : Nat) (text : List Char) : Bool :=
  text.length == width && text.all Char.isDigit
    && low ≤ natOfDigits text && natOfDigits text ≤ high

/-- The number of days of a month. -/
def daysIn (year month : Nat) : Nat :=
  if month == 2 then
    if year % 4 == 0 && (year % 100 != 0 || year % 400 == 0) then 29 else 28
  else if month == 4 || month == 6 || month == 9 || month == 11 then 30
  else 31

/-- A date, such as `2024-02-29`. -/
def isDate (text : List Char) : Bool :=
  let year := text.take 4
  let month := (text.drop 5).take 2
  let day := text.drop 8
  isField 4 0 9999 year && (text.drop 4).head? == some '-' && isField 2 1 12 month
    && (text.drop 7).head? == some '-'
    && isField 2 1 (daysIn (natOfDigits year) (natOfDigits month)) day

/-- A fraction of a second, which may be left out. -/
def isSecondFraction : List Char → Bool
  | [] => true
  | '.' :: digits => !digits.isEmpty && digits.all Char.isDigit
  | _ => false

/-- A time of day, such as `23:59:60.5`. -/
def isTime (text : List Char) : Bool :=
  isField 2 0 23 (text.take 2) && (text.drop 2).head? == some ':'
    && isField 2 0 59 ((text.drop 3).take 2) && (text.drop 5).head? == some ':'
    && isField 2 0 60 ((text.drop 6).take 2) && isSecondFraction (text.drop 8)

/-- A difference in hours and minutes, such as `07:00`. -/
def isClock (text : List Char) : Bool :=
  isField 2 0 23 (text.take 2) && (text.drop 2).head? == some ':' && isField 2 0 59 (text.drop 3)

/-- A time of day with or without its distance from universal time. -/
def isZonedTime (text : List Char) : Bool :=
  let (time, zone) := text.span fun c => c.isDigit || c == ':' || c == '.'
  isTime time && match zone with
    | [] => true
    | ['Z'] => true
    | ['z'] => true
    | '+' :: clock => isClock clock
    | '-' :: clock => isClock clock
    | _ => false

/-- A date, a time of day, or a date and a time with a `T` between them. -/
def isDateTime (text : List Char) : Bool :=
  isDate text || isTime text
    || (isDate (text.take 10)
      && ((text.drop 10).head? == some 'T' || (text.drop 10).head? == some 't')
      && isZonedTime (text.drop 11))

/-- A character that can be part of a plain value. -/
def isScalarChar (c : Char) : Bool :=
  c.isAlphanum || c == '_' || c == '+' || c == '-' || c == '.' || c == ':'

/-- The value that a run of characters stands for. -/
def scalar? (text : List Char) : Option Toml :=
  if text == "true".toList then some (.bool true)
  else if text == "false".toList then some (.bool false)
  else if isDateTime text then some .date
  else match float? text with
    | some x => some (.float x)
    | none => (integer? text).map .integer

end CommitRisk.Toml
