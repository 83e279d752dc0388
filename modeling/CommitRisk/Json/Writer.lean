import CommitRisk.Json.Basic

/-!
# Writing JSON

One writer with two layouts. The compact layout puts nothing between tokens. The
pretty one starts a new line for every member and item, two blanks deeper than
the container, and puts a blank after the colon; an empty container stays on
its line in both.

A string is written with the short escapes where they exist, other control
characters as four hexadecimal digits, and everything else as it is.

## Main definitions

* `Json.escape`: A character inside a string literal.
* `Json.Layout`: Where line breaks and blanks go.
* `Json.write`: The characters of a value.
* `Json.compact`, `Json.pretty`: The two texts of a value.
-/

namespace CommitRisk.Json

/-- The lower-case hexadecimal digit of a number below sixteen. -/
def hexDigit (n : Nat) : Char :=
  Nat.digitChar n

/-- A character as it stands inside a string literal. -/
def escape (c : Char) : List Char :=
  if c == '"' then ['\\', '"']
  else if c == '\\' then ['\\', '\\']
  else if c.toNat == 8 then ['\\', 'b']
  else if c.toNat == 12 then ['\\', 'f']
  else if c == '\n' then ['\\', 'n']
  else if c == '\r' then ['\\', 'r']
  else if c == '\t' then ['\\', 't']
  else if c.toNat < 32 then
    ['\\', 'u', '0', '0', hexDigit (c.toNat / 16), hexDigit (c.toNat % 16)]
  else [c]

/-- A string literal. -/
def writeText (s : String) : List Char :=
  '"' :: s.toList.flatMap escape ++ ['"']

/-- Where line breaks and blanks go. -/
inductive Layout where
  | compact
  | pretty
deriving DecidableEq, Repr

/-- What comes in front of an item or of a closing bracket, so many containers
    deep. -/
def Layout.newline : Layout → Nat → List Char
  | .compact, _ => []
  | .pretty, depth => '\n' :: List.replicate (2 * depth) ' '

/-- What comes between a key and its value. -/
def Layout.colon : Layout → List Char
  | .compact => [':']
  | .pretty => [':', ' ']

mutual

/-- The characters of a value that stands so many containers deep. A value that
    cannot be read has no text of its own and is written as null. -/
def write (layout : Layout) (depth : Nat) : Json → List Char
  | .null => "null".toList
  | .bool true => "true".toList
  | .bool false => "false".toList
  | .number literal => literal.toList
  | .text s => writeText s
  | .array [] => ['[', ']']
  | .array (item :: rest) =>
      '[' :: layout.newline (depth + 1) ++ write layout (depth + 1) item
        ++ writeItems layout (depth + 1) rest ++ layout.newline depth ++ [']']
  | .object [] => ['{', '}']
  | .object ((key, value) :: rest) =>
      '{' :: layout.newline (depth + 1) ++ writeText key ++ layout.colon
        ++ write layout (depth + 1) value ++ writeMembers layout (depth + 1) rest
        ++ layout.newline depth ++ ['}']
  | .unreadable => "null".toList

/-- The items of an array after the first. -/
def writeItems (layout : Layout) (depth : Nat) : List Json → List Char
  | [] => []
  | item :: rest =>
      ',' :: layout.newline depth ++ write layout depth item ++ writeItems layout depth rest

/-- The members of an object after the first. -/
def writeMembers (layout : Layout) (depth : Nat) : List (String × Json) → List Char
  | [] => []
  | (key, value) :: rest =>
      ',' :: layout.newline depth ++ writeText key ++ layout.colon
        ++ write layout depth value ++ writeMembers layout depth rest

end

/-- The text of a value on one line. -/
def compact (j : Json) : String :=
  String.ofList (j.write .compact 0)

/-- The text of a value over several lines. -/
def pretty (j : Json) : String :=
  String.ofList (j.write .pretty 0)

end CommitRisk.Json
