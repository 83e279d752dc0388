import CommitRisk.Number.Format

/-!
# JSON Values

The tree that payloads are written from and that parameters are read into. A
number is kept as its literal, so a tree says exactly which digits a text has;
the members of an object keep their order and may repeat a key.

A text may also hold a string literal with half of a surrogate pair in it. It is
lexically fine and stands for no string, so it can be skipped over but not
read. `unreadable` is the place such a value takes in the tree.

## Main definitions

* `Json`: A JSON value.
* `Json.ofNat`, `Json.ofFloat`, `Json.ofOption`: Values of numbers and options.
* `Json.member?`: The first member with a key.
-/

namespace CommitRisk

/-- A JSON value. -/
inductive Json where
  | null
  | bool (value : Bool)
  | number (literal : String)
  | text (value : String)
  | array (items : List Json)
  | object (members : List (String × Json))
  | unreadable

namespace Json

/-- A count as a number. -/
def ofNat (n : Nat) : Json :=
  .number (String.ofList (NumberFormat.digitsOf n))

/-- A float as a number, or null if it has no JSON text. -/
def ofFloat (x : Float) : Json :=
  match jsonText? x with
  | some literal => .number literal
  | none => .null

/-- An optional value, null if it is absent. -/
def ofOption (f : α → Json) : Option α → Json
  | some x => f x
  | none => .null

/-- An object of named floats. -/
def ofValues (entries : List (String × Float)) : Json :=
  .object (entries.map fun (name, x) => (name, ofFloat x))

/-- The first member of an object with a key. -/
def member? (key : String) : Json → Option Json
  | .object members => members.lookup key
  | _ => none

end Json

end CommitRisk
