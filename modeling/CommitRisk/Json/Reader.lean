import CommitRisk.Json.Basic

/-!
# Reading JSON

Reading has two steps, and each is one pass over a list. A lexer cuts the
characters into tokens and a stack automaton puts the tokens together.

The lexer looks at one character at a time. It reads the body of a string
literal as code units, because an escape may give half of a surrogate pair; at
the closing quote the units become a string, or a token that stands for none if
a half is left over. A run of number characters has to be a JSON numeral.

The automaton keeps the containers it is inside of on a stack. Since its state
says what may come next, a token that does not fit has no successor state.

## Main definitions

* `Json.Token`, `Json.lex`: The tokens of a text.
* `Json.isNumeral`: The grammar of numbers.
* `Json.Progress`, `Json.Progress.step`: The automaton.
* `Json.parse?`: The value a text stands for.
-/

namespace CommitRisk.Json

/-- A token of a JSON text. A string literal that stands for no string has no
    value. -/
inductive Token where
  | openArray
  | closeArray
  | openObject
  | closeObject
  | comma
  | colon
  | null
  | bool (value : Bool)
  | number (literal : String)
  | text (value : Option String)
deriving DecidableEq, Repr

/-- White space between tokens. -/
def isSpace (c : Char) : Bool :=
  c == ' ' || c == '\n' || c == '\t' || c == '\r'

/-- A character that can be part of a number. -/
def isNumberChar (c : Char) : Bool :=
  c.isDigit || c == '-' || c == '+' || c == '.' || c == 'e' || c == 'E'

/-- An exponent: a mark, an optional sign and digits, or nothing at all. -/
def isExponent : List Char → Bool
  | [] => true
  | mark :: rest =>
      let digits := match rest with
        | '+' :: r => r
        | '-' :: r => r
        | r => r
      (mark == 'e' || mark == 'E') && !digits.isEmpty && digits.all Char.isDigit

/-- A fraction, which has digits after its point, and an exponent. -/
def isFraction : List Char → Bool
  | '.' :: rest =>
      let digits := rest.takeWhile Char.isDigit
      !digits.isEmpty && isExponent (rest.dropWhile Char.isDigit)
  | rest => isExponent rest

/-- A number: an optional minus, a whole part without a leading zero, an
    optional fraction and an optional exponent. -/
def isNumeral (literal : List Char) : Bool :=
  let magnitude := match literal with
    | '-' :: rest => rest
    | rest => rest
  let whole := magnitude.takeWhile Char.isDigit
  (whole == ['0'] || (!whole.isEmpty && whole.head? != some '0'))
    && isFraction (magnitude.dropWhile Char.isDigit)

/-- The string of a list of code units: a high surrogate goes together with the
    low one after it, and neither may stand alone. -/
def textOfUnits : List Nat → Option (List Char)
  | [] => some []
  | u :: rest =>
      if 0xd800 ≤ u && u < 0xdc00 then
        match rest with
        | v :: rest =>
            if 0xdc00 ≤ v && v < 0xe000 then
              (textOfUnits rest).map
                (Char.ofNat (0x10000 + (u - 0xd800) * 0x400 + (v - 0xdc00)) :: ·)
            else none
        | [] => none
      else if 0xdc00 ≤ u && u < 0xe000 then none
      else (textOfUnits rest).map (Char.ofNat u :: ·)

/-- The value of a hexadecimal digit. -/
def hexValue? (c : Char) : Option Nat :=
  if c.isDigit then some (c.toNat - '0'.toNat)
  else if 'a' ≤ c && c ≤ 'f' then some (c.toNat - 'a'.toNat + 10)
  else if 'A' ≤ c && c ≤ 'F' then some (c.toNat - 'A'.toNat + 10)
  else none

/-- The character that a short escape stands for. -/
def unescape? (c : Char) : Option Nat :=
  if c == '"' || c == '\\' || c == '/' then some c.toNat
  else if c == 'b' then some 8
  else if c == 'f' then some 12
  else if c == 'n' then some 10
  else if c == 'r' then some 13
  else if c == 't' then some 9
  else none

/-- What the lexer is in the middle of. Characters and code units are kept
    latest first. -/
inductive Lexeme where
  | none
  | number (literal : List Char)
  | word (letters : List Char)
  | text (units : List Nat)
  | escape (units : List Nat)
  | code (units : List Nat) (digits value : Nat)

/-- The tokens found so far, latest first, and the one being read. -/
structure Lexer where
  tokens : List Token
  current : Lexeme

namespace Lexer

/-- Ends a number or a word, which nothing but the next character does. -/
def flush (l : Lexer) : Option Lexer :=
  match l.current with
  | .none => some l
  | .number literal =>
      if isNumeral literal.reverse then
        some ⟨.number (String.ofList literal.reverse) :: l.tokens, .none⟩
      else Option.none
  | .word letters =>
      if letters.reverse == "null".toList then some ⟨.null :: l.tokens, .none⟩
      else if letters.reverse == "true".toList then some ⟨.bool true :: l.tokens, .none⟩
      else if letters.reverse == "false".toList then some ⟨.bool false :: l.tokens, .none⟩
      else Option.none
  | _ => Option.none

/-- Starts a token. -/
def begin (tokens : List Token) (c : Char) : Option Lexer :=
  if isSpace c then some ⟨tokens, .none⟩
  else if c == '[' then some ⟨.openArray :: tokens, .none⟩
  else if c == ']' then some ⟨.closeArray :: tokens, .none⟩
  else if c == '{' then some ⟨.openObject :: tokens, .none⟩
  else if c == '}' then some ⟨.closeObject :: tokens, .none⟩
  else if c == ',' then some ⟨.comma :: tokens, .none⟩
  else if c == ':' then some ⟨.colon :: tokens, .none⟩
  else if c == '"' then some ⟨tokens, .text []⟩
  else if isNumberChar c then some ⟨tokens, .number [c]⟩
  else if c.isAlpha then some ⟨tokens, .word [c]⟩
  else none

/-- Reads one character. -/
def step (l : Lexer) (c : Char) : Option Lexer :=
  match l.current with
  | .none => begin l.tokens c
  | .number literal =>
      if isNumberChar c then some { l with current := .number (c :: literal) }
      else l.flush.bind fun l => begin l.tokens c
  | .word letters =>
      if c.isAlpha then some { l with current := .word (c :: letters) }
      else l.flush.bind fun l => begin l.tokens c
  | .text units =>
      if c == '"' then
        some ⟨.text ((textOfUnits units.reverse).map String.ofList) :: l.tokens, .none⟩
      else if c == '\\' then some { l with current := .escape units }
      else if c.toNat < 32 then none
      else some { l with current := .text (c.toNat :: units) }
  | .escape units =>
      if c == 'u' then some { l with current := .code units 0 0 }
      else (unescape? c).map fun u => { l with current := .text (u :: units) }
  | .code units digits value =>
      (hexValue? c).map fun h =>
        let value := 16 * value + h
        if digits == 3 then { l with current := .text (value :: units) }
        else { l with current := .code units (digits + 1) value }

end Lexer

/-- The tokens of a text. -/
def lex (chars : List Char) : Option (List Token) :=
  ((chars.foldlM Lexer.step ⟨[], .none⟩).bind Lexer.flush).map fun l => l.tokens.reverse

/-- A container that is not closed yet, with what it holds so far, latest
    first. A key that stands for no string is there but has no value. -/
inductive Frame where
  | items (before : List Json)
  | members (before : List (Option String × Json)) (key : Option String)

/-- How far the automaton has come, and thereby what may come next. -/
inductive Progress where
  | value (stack : List Frame)
  | firstItem (stack : List Frame)
  | firstKey (stack : List Frame)
  | nextKey (stack : List Frame) (before : List (Option String × Json))
  | colon (stack : List Frame) (before : List (Option String × Json)) (key : Option String)
  | complete (stack : List Frame) (value : Json)

/-- An object of the members read, latest first. -/
def closeMembers (before : List (Option String × Json)) : Json :=
  match before.reverse.mapM fun (key, value) => key.map fun k => (k, value) with
  | some members => .object members
  | none => .unreadable

namespace Progress

/-- A token that begins a value. -/
def beginValue (stack : List Frame) : Token → Option Progress
  | .openArray => some (.firstItem stack)
  | .openObject => some (.firstKey stack)
  | .null => some (.complete stack .null)
  | .bool b => some (.complete stack (.bool b))
  | .number literal => some (.complete stack (.number literal))
  | .text (some s) => some (.complete stack (.text s))
  | .text none => some (.complete stack .unreadable)
  | _ => none

/-- Reads one token. -/
def step : Progress → Token → Option Progress
  | .value stack, token => beginValue stack token
  | .firstItem stack, .closeArray => some (.complete stack (.array []))
  | .firstItem stack, token => beginValue (.items [] :: stack) token
  | .firstKey stack, .closeObject => some (.complete stack (.object []))
  | .firstKey stack, .text key => some (.colon stack [] key)
  | .nextKey stack before, .text key => some (.colon stack before key)
  | .colon stack before key, .colon => some (.value (.members before key :: stack))
  | .complete (.items before :: stack) v, .comma => some (.value (.items (v :: before) :: stack))
  | .complete (.items before :: stack) v, .closeArray =>
      some (.complete stack (.array (v :: before).reverse))
  | .complete (.members before key :: stack) v, .comma => some (.nextKey stack ((key, v) :: before))
  | .complete (.members before key :: stack) v, .closeObject =>
      some (.complete stack (closeMembers ((key, v) :: before)))
  | _, _ => none

end Progress

/-- The value that a list of tokens spells. -/
def ofTokens? (tokens : List Token) : Option Json :=
  match tokens.foldlM Progress.step (.value []) with
  | some (.complete [] v) => some v
  | _ => none

/-- The value that a text stands for. -/
def parse? (s : String) : Option Json :=
  (lex s.toList).bind ofTokens?

end CommitRisk.Json
