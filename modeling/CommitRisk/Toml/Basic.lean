/-!
# TOML Documents

The tree a configuration file stands for, and the rules for putting a key or a
table into it.

A table remembers how it came about, because that decides what may still be
added. A table under a header of its own takes no second header. One that is
only on the way to a header may get its own header later, and a dotted key may
pass through it. One made by a dotted key can be extended by further dotted keys
and takes no header. One in braces is complete.

Headers collect their keys in a table of their own, which is put into the
document when the next header begins.

## Main definitions

* `Toml`: A value of a document.
* `Toml.insert?`: A table with a key put in by its dotted path.
* `Toml.updateAt?`: A table changed at the end of a path of headers.
* `Toml.Draft`: A document being read.
-/

namespace CommitRisk

/-- How a table came about. -/
inductive Toml.Origin where
  | braces
  | header
  | onTheWay
  | dotted
deriving DecidableEq, Repr

/-- A value of a document. Dates are recognized and not interpreted. -/
inductive Toml where
  | string
  | integer (value : Int)
  | float (value : Float)
  | bool (value : Bool)
  | date
  | array (items : List Toml)
  | table (origin : Toml.Origin) (entries : List (String × Toml))
  | tables (items : List (List (String × Toml)))

namespace Toml

/-- The entries of a table. -/
abbrev Entries := List (String × Toml)

/-- The entries with the value of a key replaced, or the key added at the end. -/
def Entries.set (key : String) (value : Toml) : Entries → Entries
  | [] => [(key, value)]
  | (k, v) :: rest => if k = key then (k, value) :: rest else (k, v) :: set key value rest

/-- The entries without a key. -/
def Entries.remove (key : String) (entries : Entries) : Entries :=
  entries.filter fun (k, _) => k != key

/-- Puts a key into a table that is reached along a path of dotted keys from
    where `mayEnd` says whether the key may be put right here. -/
def insertAlong? (mayEnd : Bool) (key : String) (value : Toml) :
    List String → Entries → Option Entries
  | [], entries =>
      if mayEnd && (entries.lookup key).isNone then some (entries ++ [(key, value)]) else none
  | name :: path, entries =>
      match entries.lookup name with
      | none =>
          (insertAlong? true key value path []).map fun inner =>
            entries ++ [(name, .table .dotted inner)]
      | some (.table .dotted inner) =>
          (insertAlong? true key value path inner).map fun inner =>
            entries.set name (.table .dotted inner)
      | some (.table .onTheWay inner) =>
          (insertAlong? false key value path inner).map fun inner =>
            entries.set name (.table .onTheWay inner)
      | some (.tables items) =>
          match items.getLast? with
          | some last =>
              (insertAlong? false key value path last).map fun last =>
                entries.set name (.tables (items.dropLast ++ [last]))
          | none => none
      | some _ => none

/-- The entries with a key put in by its dotted path. -/
def insert? (entries : Entries) (path : List String) (key : String) (value : Toml) :
    Option Entries :=
  insertAlong? true key value path entries

/-- The entries changed in the table at the end of a path of headers. Missing
    tables are made on the way, and an array of tables stands for its last one. -/
def updateAt? (change : Entries → Option (Entries × β)) :
    List String → Entries → Option (Entries × β)
  | [], entries => change entries
  | name :: path, entries =>
      match entries.lookup name with
      | none =>
          (updateAt? change path []).map fun (inner, x) =>
            (entries ++ [(name, .table .onTheWay inner)], x)
      | some (.table .braces _) => none
      | some (.table origin inner) =>
          (updateAt? change path inner).map fun (inner, x) =>
            (entries.set name (.table origin inner), x)
      | some (.tables items) =>
          match items.getLast? with
          | some last =>
              (updateAt? change path last).map fun (last, x) =>
                (entries.set name (.tables (items.dropLast ++ [last])), x)
          | none => none
      | some _ => none

/-- The header that the keys being read belong to. -/
inductive Heading where
  | none
  | table (path : List String) (name : String)
  | item (path : List String) (name : String)

/-- A document being read: what is complete, and the keys under the current
    header. -/
structure Draft where
  root : Entries
  heading : Heading
  current : Entries

namespace Draft

/-- Nothing has been read. -/
def start : Draft :=
  ⟨[], .none, []⟩

/-- Puts the keys under the current header into the document. -/
def close? (d : Draft) : Option Entries :=
  match d.heading with
  | .none => some d.current
  | .table path name =>
      (updateAt? (fun entries => match entries.lookup name with
        | none => some (entries ++ [(name, Toml.table .header d.current)], ())
        | some (.table .onTheWay _) => some (entries.set name (.table .header d.current), ())
        | some (.table .dotted _) => some (entries.set name (.table .header d.current), ())
        | some _ => none) path d.root).map Prod.fst
  | .item path name =>
      (updateAt? (fun entries => match entries.lookup name with
        | none => some (entries ++ [(name, Toml.tables [d.current])], ())
        | some (.tables items) => some (entries.set name (.tables (items ++ [d.current])), ())
        | some _ => none) path d.root).map Prod.fst

/-- Reads a key with its value. -/
def key? (d : Draft) (path : List String) (name : String) (value : Toml) : Option Draft :=
  (insert? d.current path name value).map fun current => { d with current := current }

/-- Reads the header of a table. A table that was only on the way to another
    header keeps what it has. -/
def tableHeader? (d : Draft) (path : List String) (name : String) : Option Draft := do
  let root ← d.close?
  let (root, current) ← updateAt? (fun entries => match entries.lookup name with
    | none => some (entries, [])
    | some (.table .onTheWay inner) => some (Entries.remove name entries, inner)
    | some _ => none) path root
  return ⟨root, .table path name, current⟩

/-- Reads the header of an item of an array of tables. -/
def itemHeader? (d : Draft) (path : List String) (name : String) : Option Draft := do
  let root ← d.close?
  let (root, _) ← updateAt? (fun entries => match entries.lookup name with
    | none => some (entries ++ [(name, Toml.tables [])], ())
    | some (.tables _) => some (entries, ())
    | some _ => none) path root
  return ⟨root, .item path name, []⟩

end Draft

end Toml

end CommitRisk
