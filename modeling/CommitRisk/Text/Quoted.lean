import CommitRisk.Text.Extender
import CommitRisk.Text.Printable

/-!
# Quoted Texts

A text in double quotes for a message, and a list of such texts in brackets.
Quotes and backslashes are escaped, the usual control characters have short
escapes, and all others that would not show by themselves are written as their
number: the unprintable ones, and those that extend the character before.

## Main definitions

* `showsItself`: The characters that are written as they are.
* `quoted`: A text in quotes.
* `quotedList`: A list of texts in brackets.
-/

namespace CommitRisk

/-- The character shows by itself. -/
def showsItself (c : Char) : Bool :=
  isPrintable c && !isExtender c

/-- A character inside quotes. -/
def quotedChar (c : Char) : List Char :=
  if c == '"' then ['\\', '"']
  else if c == '\\' then ['\\', '\\']
  else if c == '\n' then ['\\', 'n']
  else if c == '\r' then ['\\', 'r']
  else if c == '\t' then ['\\', 't']
  else if c.toNat == 0 then ['\\', '0']
  else if showsItself c then [c]
  else ['\\', 'u', '\x7b'] ++ Nat.toDigits 16 c.toNat ++ ['\x7d']

/-- A text in quotes. -/
def quoted (s : String) : String :=
  String.ofList ('"' :: s.toList.flatMap quotedChar ++ ['"'])

/-- A list of texts in brackets. -/
def quotedList (texts : List String) : String :=
  "[" ++ ", ".intercalate (texts.map quoted) ++ "]"

end CommitRisk
