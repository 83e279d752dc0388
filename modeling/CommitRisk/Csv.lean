/-!
# Comma Separated Values

Reading and writing records of quoted fields.

A quote character opens or closes a quoted section wherever it stands, and two
of them inside a section are one quote of the field. Outside quotes a comma
ends a field and a line feed ends a record, together with a carriage return
right in front of it; any other carriage return belongs to its field. A record
that is one empty field is a blank line and is dropped. The only text that
cannot be read is one that ends inside a quoted section.

Writing puts quotes around a field that has a comma, a quote or a line feed in
it. A carriage return alone does not count, so a record whose last field ends
in one loses it when it is read again.

## Main definitions

* `Csv.Cursor`: What has been read so far.
* `Csv.Cursor.scan`: Reading the rest of a text.
* `Csv.records`: The records of a text, or the line of the quote left open.
* `Csv.writeField`, `Csv.writeRecord`: Writing.
-/

namespace CommitRisk.Csv

/-- What has been read of a text. Records, fields and characters are kept
    latest first; `opened` is the line of the quote that opened the section
    being read. -/
structure Cursor where
  records : List (List String)
  record : List String
  field : List Char
  line : Nat
  opened : Option Nat

namespace Cursor

/-- Nothing has been read and the first line begins. -/
def start : Cursor where
  records := []
  record := []
  field := []
  line := 1
  opened := none

/-- A character becomes part of the field. -/
def push (k : Cursor) (c : Char) : Cursor :=
  { k with field := c :: k.field }

/-- The next character is on the next line. -/
def nextLine (k : Cursor) : Cursor :=
  { k with line := k.line + 1 }

/-- A quoted section begins. -/
def openQuote (k : Cursor) : Cursor :=
  { k with opened := some k.line }

/-- The quoted section ends. -/
def closeQuote (k : Cursor) : Cursor :=
  { k with opened := none }

/-- The field is complete. -/
def endField (k : Cursor) : Cursor :=
  { k with record := String.ofList k.field.reverse :: k.record, field := [] }

/-- The record is complete. -/
def endRecord (k : Cursor) : Cursor :=
  { k.endField with records := k.endField.record.reverse :: k.records, record := [] }

/-- Reads the rest of a text. -/
def scan : Cursor → List Char → Cursor
  | k, [] => k
  | k, c :: rest =>
      if k.opened.isSome then
        if c == '"' then
          match rest with
          | '"' :: rest => scan (k.push '"') rest
          | rest => scan k.closeQuote rest
        else if c == '\n' then scan (k.push c).nextLine rest
        else scan (k.push c) rest
      else if c == '"' then scan k.openQuote rest
      else if c == ',' then scan k.endField rest
      else if c == '\r' && rest.head? == some '\n' then scan k rest
      else if c == '\n' then scan k.endRecord.nextLine rest
      else scan (k.push c) rest

/-- The records in order. A last line without a line feed is a record if there
    is anything on it. -/
def finish (k : Cursor) : List (List String) :=
  let k := if k.field.isEmpty && k.record.isEmpty then k else k.endRecord
  k.records.reverse

end Cursor

/-- A record that stands for a blank line. -/
def isBlankLine (record : List String) : Bool :=
  record == [""]

/-- The records of a text without its blank lines, or the line on which the
    quoted section begins that the text ends in. -/
def records (text : String) : Except Nat (List (List String)) :=
  let k := Cursor.start.scan text.toList
  match k.opened with
  | some line => .error line
  | none => .ok (k.finish.filter fun record => !isBlankLine record)

/-- The characters that make quotes around a field necessary. -/
def isSpecial (c : Char) : Bool :=
  c == ',' || c == '"' || c == '\n'

/-- Every quote written twice. -/
def doubleQuotes (field : List Char) : List Char :=
  field.flatMap fun c => if c == '"' then ['"', '"'] else [c]

/-- A field as it is written. -/
def writeField (field : List Char) : List Char :=
  if field.any isSpecial then '"' :: doubleQuotes field ++ ['"'] else field

/-- A line of written fields. -/
def writeRecord (fields : List (List Char)) : List Char :=
  [','].intercalate fields ++ ['\n']

end CommitRisk.Csv
