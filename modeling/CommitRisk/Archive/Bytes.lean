/-!
# Numbers and Texts as Bytes

The pieces that binary formats are put together from: numbers of a fixed width
with the low byte first, texts and lists behind their length, and optional
values behind a byte that says whether they are there.

A decoder reads from the front of a list of bytes and gives back the rest.

## Main definitions

* `Decoder`: Reads a value from the front of some bytes.
* `lowFirst`, `takeNat`: Numbers of a fixed width.
* `encodeText`, `takeText`: Texts behind the number of their bytes.
* `encodeOption`, `takeOption`: Optional values.
* `encodeList`, `takeList`: Lists behind their length.
-/

namespace CommitRisk

/-- Reads a value from the front of some bytes, if there is one. -/
abbrev Decoder (α : Type) := StateT (List UInt8) Option α

/-- The low bytes of a number, the lowest first. -/
def lowFirst : Nat → Nat → List UInt8
  | 0, _ => []
  | width + 1, n => UInt8.ofNat (n % 256) :: lowFirst width (n / 256)

/-- The number with the given bytes, the lowest first. -/
def natOfBytes : List UInt8 → Nat
  | [] => 0
  | b :: rest => b.toNat + 256 * natOfBytes rest

/-- So many bytes. -/
def takeBytes (count : Nat) : Decoder (List UInt8) := fun bytes =>
  let taken := bytes.take count
  if taken.length = count then some (taken, bytes.drop count) else none

/-- A number of a fixed width in bytes. -/
def takeNat (width : Nat) : Decoder Nat := do
  let bytes ← takeBytes width
  return natOfBytes bytes

/-- A count is eight bytes wide. -/
def encodeCount (n : Nat) : List UInt8 :=
  lowFirst 8 n

/-- Reads a count. -/
def takeCount : Decoder Nat :=
  takeNat 8

/-- A machine word is eight bytes wide. -/
def encodeWord (n : UInt64) : List UInt8 :=
  lowFirst 8 n.toNat

/-- Reads a machine word. -/
def takeWord : Decoder UInt64 := do
  let n ← takeNat 8
  return UInt64.ofNat n

/-- A single is written as its bits. -/
def encodeFloat32 (x : Float32) : List UInt8 :=
  lowFirst 4 x.toBits.toNat

/-- Reads a single. -/
def takeFloat32 : Decoder Float32 := do
  let n ← takeNat 4
  return Float32.ofBits (UInt32.ofNat n)

/-- A double is written as its bits. -/
def encodeFloat (x : Float) : List UInt8 :=
  lowFirst 8 x.toBits.toNat

/-- Reads a double. -/
def takeFloat : Decoder Float := do
  let n ← takeNat 8
  return Float.ofBits (UInt64.ofNat n)

/-- The bytes of a text. -/
def textBytes (s : String) : List UInt8 :=
  s.toUTF8.data.toList

/-- A text comes behind the number of its bytes. -/
def encodeText (s : String) : List UInt8 :=
  encodeCount (textBytes s).length ++ textBytes s

/-- Reads a text. -/
def takeText : Decoder String := do
  let count ← takeCount
  let bytes ← takeBytes count
  match String.fromUTF8? ⟨bytes.toArray⟩ with
  | some s => return s
  | none => failure

/-- An optional value comes behind a one, an absent one is a zero. -/
def encodeOption (encode : α → List UInt8) : Option α → List UInt8
  | none => [0]
  | some x => 1 :: encode x

/-- Reads an optional value. -/
def takeOption (item : Decoder α) : Decoder (Option α) := do
  let tag ← takeNat 1
  if tag = 0 then return none
  else if tag = 1 then return some (← item)
  else failure

/-- A list comes behind its length. -/
def encodeList (encode : α → List UInt8) (xs : List α) : List UInt8 :=
  encodeCount xs.length ++ xs.flatMap encode

/-- Reads so many values. -/
def takeMany (item : Decoder α) : Nat → Decoder (List α)
  | 0 => return []
  | n + 1 => do
      let x ← item
      let rest ← takeMany item n
      return x :: rest

/-- Reads a list. -/
def takeList (item : Decoder α) : Decoder (List α) := do
  let count ← takeCount
  takeMany item count

end CommitRisk
