import CommitRisk.Toml.Scalar

/-!
# Reading TOML

A document is read line by line: a key with its value, the header of a table or
of an item of an array of tables, or nothing, each with an optional comment
behind it. Strings and arrays may go on over several lines.

Every reader takes the rest of the text and gives back what it read with the
rest after it, or nothing if the text is no TOML. Containers may be nested to
a fixed depth. Readers of strings and blanks go through the text by recursion;
those of values, whose parts are read by others, are limited by the length of
the text, which they never reach.

## Main definitions

* `Toml.Reader`: Reads a part of a document from the front of a text.
* `Toml.takeKey`: A dotted key.
* `Toml.takeValue`: A value.
* `Toml.takeLines`: The lines of a document.
* `Toml.parse?`: The entries of a document.
-/

namespace CommitRisk.Toml

/-- Reads something from the front of a text. -/
abbrev Reader (α : Type) := List Char → Option (α × List Char)

/-- A blank within a line. -/
def isGap (c : Char) : Bool :=
  c == ' ' || c == '\t'

/-- The text without the blanks in front. -/
def skipGap (text : List Char) : List Char :=
  text.dropWhile isGap

/-- A character that a comment may have: a tab or anything that is no control
    character. -/
def isCommentChar (c : Char) : Bool :=
  c == '\t' || (0x20 ≤ c.toNat && c.toNat != 0x7f)

/-- The text without the comment in front. -/
def skipComment : List Char → List Char
  | '#' :: rest => rest.dropWhile isCommentChar
  | text => text

/-- The text after the line feed in front, with or without a carriage return. -/
def afterNewline? : List Char → Option (List Char)
  | '\n' :: rest => some rest
  | '\r' :: '\n' :: rest => some rest
  | _ => none

/-- The text after the end of a line, with the blanks and the comment before it. -/
def afterLine? (text : List Char) : Option (List Char) :=
  match skipComment (skipGap text) with
  | [] => some []
  | rest => afterNewline? rest

/-- Skips blanks, line feeds and comments, at most so many of them. -/
def skipSpace : Nat → List Char → List Char
  | 0, text => text
  | fuel + 1, text =>
      match text with
      | [] => []
      | c :: rest =>
          if isGap c then skipSpace fuel rest
          else if c == '#' then skipSpace fuel (skipComment text)
          else match afterNewline? text with
            | some rest => skipSpace fuel rest
            | none => text

/-- The text without the blanks, line feeds and comments in front. -/
def skipSpaces (text : List Char) : List Char :=
  skipSpace text.length text

/-- The number that hexadecimal digits stand for, all of them digits. -/
def hexNumber? (digits : List Char) : Option Nat :=
  digits.foldlM (fun n c => (digitValue? 16 c).map fun d => 16 * n + d) 0

/-- A character given by its number, which no half of a surrogate pair is. -/
def charOfNumber? (n : Nat) : Option Char :=
  if n < 0xd800 || (0xe000 ≤ n && n < 0x110000) then some (Char.ofNat n) else none

/-- The character after a backslash, by name or by number. -/
def takeEscape : Reader Char
  | 'b' :: rest => some ('\x08', rest)
  | 't' :: rest => some ('\t', rest)
  | 'n' :: rest => some ('\n', rest)
  | 'f' :: rest => some ('\x0c', rest)
  | 'r' :: rest => some ('\r', rest)
  | '"' :: rest => some ('"', rest)
  | '\\' :: rest => some ('\\', rest)
  | 'u' :: a :: b :: c :: d :: rest =>
      ((hexNumber? [a, b, c, d]).bind charOfNumber?).map (·, rest)
  | 'U' :: a :: b :: c :: d :: e :: f :: g :: h :: rest =>
      ((hexNumber? [a, b, c, d, e, f, g, h]).bind charOfNumber?).map (·, rest)
  | _ => none

/-- The rest of a string in double quotes on one line, with what was read of it
    latest first and a limit to its length. -/
def takeBasic : Nat → List Char → Reader String
  | 0, _, _ => none
  | fuel + 1, read, text =>
      match text with
      | [] => none
      | '"' :: rest => some (String.ofList read.reverse, rest)
      | '\\' :: rest =>
          match takeEscape rest with
          | some (c, rest) => takeBasic fuel (c :: read) rest
          | none => none
      | c :: rest => if isCommentChar c then takeBasic fuel (c :: read) rest else none

/-- The rest of a string in single quotes on one line. -/
def takeLiteral : List Char → Reader String
  | _, [] => none
  | read, '\'' :: rest => some (String.ofList read.reverse, rest)
  | read, c :: rest => if isCommentChar c then takeLiteral (c :: read) rest else none

/-- The text after the three quotes that close a string over several lines. Up
    to two more quotes in front of them belong to the string. -/
def afterClosing? (quote : Char) (text : List Char) : Option (List Char) :=
  let run := (text.takeWhile fun c => c == quote).length
  if run < 3 then none else some (text.drop (min run 5))

/-- The text after the rest of a string over several lines. In double quotes a
    backslash begins an escape or joins two lines. -/
def afterMultiline? (quote : Char) : Nat → List Char → Option (List Char)
  | 0, _ => none
  | fuel + 1, text =>
      match text with
      | [] => none
      | c :: rest =>
          if c == quote then
            match afterClosing? quote text with
            | some rest => some rest
            | none => afterMultiline? quote fuel rest
          else if c == '\\' && quote == '"' then
            match afterNewline? (skipGap rest) with
            | some rest => afterMultiline? quote fuel rest
            | none =>
                match takeEscape rest with
                | some (_, rest) => afterMultiline? quote fuel rest
                | none => none
          else match afterNewline? text with
            | some rest => afterMultiline? quote fuel rest
            | none => if isCommentChar c then afterMultiline? quote fuel rest else none

/-- The text after a string. -/
def afterText? : List Char → Option (List Char)
  | '"' :: '"' :: '"' :: rest => afterMultiline? '"' (rest.length + 1) rest
  | '\'' :: '\'' :: '\'' :: rest => afterMultiline? '\'' (rest.length + 1) rest
  | '"' :: rest => (takeBasic (rest.length + 1) [] rest).map Prod.snd
  | '\'' :: rest => (takeLiteral [] rest).map Prod.snd
  | _ => none

/-- A character that a key may have without quotes. -/
def isKeyChar (c : Char) : Bool :=
  c.isAlphanum || c == '-' || c == '_'

/-- One part of a key. -/
def takeName : Reader String
  | '"' :: rest => takeBasic (rest.length + 1) [] rest
  | '\'' :: rest => takeLiteral [] rest
  | text =>
      let name := text.takeWhile isKeyChar
      if name.isEmpty then none else some (String.ofList name, text.dropWhile isKeyChar)

/-- How deep containers may be nested and how many parts a key may have. -/
def nestingLimit : Nat := 80

/-- The parts of a dotted key, at most so many. -/
def takeNames : Nat → Reader (List String)
  | 0, _ => none
  | fuel + 1, text =>
      match takeName (skipGap text) with
      | none => none
      | some (name, rest) =>
          match skipGap rest with
          | '.' :: rest => (takeNames fuel rest).map fun (names, rest) => (name :: names, rest)
          | rest => some ([name], rest)

/-- A dotted key: the path to it and its last part. -/
def takeKey : Reader (List String × String) := fun text =>
  (takeNames (nestingLimit - 1) text).map fun (names, rest) =>
    ((names.dropLast, names.getLastD ""), rest)

/-- The text after a character that has to be there. -/
def after? (c : Char) : List Char → Option (List Char)
  | d :: rest => if d = c then some rest else none
  | [] => none

/-- A plain value. A date may have its time behind a blank. -/
def takeScalar : Reader Toml := fun text =>
  let word := text.takeWhile isScalarChar
  let rest := text.dropWhile isScalarChar
  match isDate word, rest with
  | true, ' ' :: next :: _ =>
      if next.isDigit then
        let time := rest.tail.takeWhile isScalarChar
        if isZonedTime time then some (.date, rest.tail.dropWhile isScalarChar) else none
      else some (.date, rest)
  | _, _ => (scalar? word).map (·, rest)

mutual

/-- A value inside so many containers. -/
def takeValue : Nat → Nat → Reader Toml
  | 0, _, _ => none
  | fuel + 1, depth, text =>
      match text with
      | '[' :: rest =>
          if depth + 1 < nestingLimit then
            (takeItems fuel (depth + 1) rest).map fun (items, rest) => (.array items, rest)
          else none
      | '{' :: rest =>
          if depth + 1 < nestingLimit then
            match skipGap rest with
            | '}' :: rest => some (.table .braces [], rest)
            | rest => (takeMembers fuel (depth + 1) [] rest).map fun (entries, rest) =>
                (.table .braces entries, rest)
          else none
      | '"' :: _ => (afterText? text).map (.string, ·)
      | '\'' :: _ => (afterText? text).map (.string, ·)
      | _ => takeScalar text

/-- The items of an array up to its closing bracket. -/
def takeItems : Nat → Nat → Reader (List Toml)
  | 0, _, _ => none
  | fuel + 1, depth, text =>
      match skipSpaces text with
      | ']' :: rest => some ([], rest)
      | text =>
          match takeValue fuel depth text with
          | none => none
          | some (item, rest) =>
              match skipSpaces rest with
              | ',' :: rest =>
                  (takeItems fuel depth rest).map fun (items, rest) => (item :: items, rest)
              | ']' :: rest => some ([item], rest)
              | _ => none

/-- The members of a table in braces up to its closing brace. -/
def takeMembers : Nat → Nat → Entries → Reader Entries
  | 0, _, _, _ => none
  | fuel + 1, depth, entries, text =>
      match takeKey text with
      | none => none
      | some ((path, name), rest) =>
          match (after? '=' rest).map skipGap with
          | none => none
          | some rest =>
              match takeValue fuel depth rest with
              | none => none
              | some (value, rest) =>
                  match insert? entries path name value, skipGap rest with
                  | some entries, ',' :: rest => takeMembers fuel depth entries rest
                  | some entries, '}' :: rest => some (entries, rest)
                  | _, _ => none

end

/-- A key and its value up to the end of the line. -/
def takeAssignment (d : Draft) : Reader Draft := fun text => do
  let ((path, name), rest) ← takeKey text
  let rest ← after? '=' rest
  let (value, rest) ← takeValue (rest.length + 1) 0 (skipGap rest)
  let rest ← afterLine? rest
  let d ← d.key? path name value
  return (d, rest)

/-- The header of a table up to the end of the line, without its first bracket. -/
def takeTableHeader (d : Draft) : Reader Draft := fun text => do
  let ((path, name), rest) ← takeKey text
  let rest ← after? ']' rest
  let rest ← afterLine? rest
  let d ← d.tableHeader? path name
  return (d, rest)

/-- The header of an item of an array of tables up to the end of the line,
    without its first two brackets. -/
def takeItemHeader (d : Draft) : Reader Draft := fun text => do
  let ((path, name), rest) ← takeKey text
  let rest ← after? ']' rest
  let rest ← after? ']' rest
  let rest ← afterLine? rest
  let d ← d.itemHeader? path name
  return (d, rest)

/-- The lines of a document, at most so many of them. -/
def takeLines : Nat → Draft → List Char → Option Draft
  | 0, _, _ => none
  | fuel + 1, d, text =>
      match skipGap text with
      | [] => some d
      | '#' :: _ => (afterLine? text).bind (takeLines fuel d)
      | '\n' :: _ => (afterLine? text).bind (takeLines fuel d)
      | '\r' :: _ => (afterLine? text).bind (takeLines fuel d)
      | '[' :: '[' :: rest => (takeItemHeader d rest).bind fun (d, rest) => takeLines fuel d rest
      | '[' :: rest => (takeTableHeader d rest).bind fun (d, rest) => takeLines fuel d rest
      | text => (takeAssignment d text).bind fun (d, rest) => takeLines fuel d rest

/-- The text without the byte order mark in front. -/
def skipMark : List Char → List Char
  | '\ufeff' :: rest => rest
  | text => text

/-- The entries of a document. -/
def parse? (s : String) : Option Entries :=
  let text := skipMark s.toList
  (takeLines (text.length + 1) .start text).bind Draft.close?

end CommitRisk.Toml
