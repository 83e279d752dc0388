import CommitRisk.Archive.Checksum
import CommitRisk.Archive.Model
import CommitRisk.Files

/-!
# Model Archives

An archive is a header of thirty-two bytes, a description of the archive, the
layout of a model, and a checksum of all that.

The header names the format and its release, the kind of model, the sizes of the
two parts and how the second one is packed; this library packs nothing. The
description is a map in MessagePack with the time of writing, the release of the
format's library and, if given, a name and a remark. It is not needed to read
the model and is skipped.

Reading checks the size, the checksum and then the header field by field, so a
damaged archive is reported as such whatever else is wrong with it.

## Main definitions

* `ArchiveLabel`: The name and the remark an archive is given.
* `describeArchive`: The description.
* `archiveHeader`, `writeArchive`: Writing.
* `ArchiveError`: Why bytes are no archive of a forest.
* `ArchiveHeader.ofBytes`, `readArchive`: Reading.
-/

namespace CommitRisk

/-- The name and the remark an archive is given. -/
structure ArchiveLabel where
  name : Option String
  remark : Option String

/-- Big numbers have their high byte first. -/
def highFirst (width n : Nat) : List UInt8 :=
  (lowFirst width n).reverse

/-- A text in MessagePack, behind the shortest length mark that holds it. -/
def packText (s : String) : List UInt8 :=
  let bytes := textBytes s
  let n := bytes.length
  let mark :=
    if n < 32 then [UInt8.ofNat (0xa0 + n)]
    else if n < Nat.pow 2 8 then 0xd9 :: highFirst 1 n
    else if n < Nat.pow 2 16 then 0xda :: highFirst 2 n
    else 0xdb :: highFirst 4 n
  mark ++ bytes

/-- A map of fewer than sixteen texts in MessagePack. -/
def packMap (entries : List (String × String)) : List UInt8 :=
  UInt8.ofNat (0x80 + entries.length)
    :: entries.flatMap fun (key, value) => packText key ++ packText value

/-- The description of an archive: when it was written, by what, and its label. -/
def describeArchive (createdAt : String) (label : ArchiveLabel) : List UInt8 :=
  packMap ([("created_at", createdAt), ("aprender_version", "0.13.0")]
    ++ (label.name.map fun name => ("model_name", name)).toList
    ++ (label.remark.map fun remark => ("description", remark)).toList)

/-- The bytes every archive begins with. -/
def archiveMagic : List UInt8 :=
  [0x41, 0x50, 0x52, 0x4e]

/-- The number that stands for a random forest. -/
def forestKind : Nat := 4

/-- The header for parts of the given sizes. -/
def archiveHeader (description payload : Nat) : List UInt8 :=
  archiveMagic ++ [1, 0] ++ lowFirst 2 forestKind ++ lowFirst 4 description
    ++ lowFirst 4 payload ++ lowFirst 4 payload ++ List.replicate 12 0

/-- Bytes with their checksum behind them. -/
def withChecksum (bytes : List UInt8) : List UInt8 :=
  bytes ++ lowFirst 4 (crc32 bytes).toNat

/-- The archive of a model. -/
def writeArchive (createdAt : String) (label : ArchiveLabel) (m : PortableModel) : List UInt8 :=
  let description := describeArchive createdAt label
  let payload := encodeModel m
  withChecksum (archiveHeader description.length payload.length ++ description ++ payload)

/-- How a packed payload would have to be unpacked. -/
inductive Packing where
  | zstd
  | lz4
deriving DecidableEq, Repr

/-- Why bytes are no archive of a forest that can be used. -/
inductive ArchiveError where
  | file (error : FileError)
  | tooSmall (size : Nat)
  | checksumMismatch (stored computed : UInt32)
  | wrongMagic (magic : List UInt8)
  | unsupportedVersion (major minor : Nat)
  | unknownKind (kind : Nat)
  | tooLarge (size : Nat)
  | unknownPacking (packing : Nat)
  | otherKind (name : String)
  | truncated
  | packed (packing : Packing)
  | malformed
  | notFitted
deriving DecidableEq, Repr

/-- The hexadecimal digits of a number, in capitals and at least so many. -/
def capitalHex (width n : Nat) : String :=
  let digits := (Nat.toDigits 16 n).map Char.toUpper
  String.ofList (List.replicate (width - digits.length) '0' ++ digits)

/-- The message of an archive error. -/
def ArchiveError.message : ArchiveError → String
  | .file e => s!"I/O error: {e.message}"
  | .tooSmall size => s!"Invalid model format: File too small: {size} bytes"
  | .checksumMismatch stored computed =>
      s!"Checksum mismatch: expected 0x{capitalHex 8 stored.toNat}, "
        ++ s!"got 0x{capitalHex 8 computed.toNat}"
  | .wrongMagic magic =>
      "Invalid model format: Invalid magic number: "
        ++ String.join (magic.map fun b => capitalHex 2 b.toNat) ++ ", expected APRN"
  | .unsupportedVersion major minor =>
      s!"Unsupported format version: found {major}.{minor}, max supported 1.0"
  | .unknownKind kind => s!"Invalid model format: Unknown model type: 0x{capitalHex 4 kind}"
  | .tooLarge size =>
      s!"Invalid model format: Uncompressed size {size} exceeds maximum 1073741824 "
        ++ "(compression bomb protection)"
  | .unknownPacking packing =>
      s!"Invalid model format: Unknown compression algorithm: 0x{capitalHex 2 packing}"
  | .otherKind name =>
      s!"Invalid model format: Model type mismatch: file contains {name}, expected RandomForest"
  | .truncated => "Invalid model format: Payload extends beyond file boundary"
  | .packed .zstd =>
      "Invalid model format: Zstd compression not supported (enable format-compression feature)"
  | .packed .lz4 => "Invalid model format: LZ4 compression not yet implemented"
  | .malformed => "Serialization error: Failed to deserialize model"
  | .notFitted => "model contains no fitted trees"

/-- The kinds of models an archive may hold, by number. -/
def modelKinds : List (Nat × String) := [
  (1, "LinearRegression"), (2, "LogisticRegression"), (3, "DecisionTree"), (4, "RandomForest"),
  (5, "GradientBoosting"), (6, "KMeans"), (7, "Pca"), (8, "NaiveBayes"), (9, "Knn"), (10, "Svm"),
  (16, "NgramLm"), (17, "Tfidf"), (18, "CountVectorizer"), (32, "NeuralSequential"),
  (33, "NeuralCustom"), (48, "ContentRecommender"), (64, "MixtureOfExperts"), (255, "Custom")]

/-- The fields of a header. -/
structure ArchiveHeader where
  magic : List UInt8
  major : Nat
  minor : Nat
  kind : Nat
  description : Nat
  payload : Nat
  unpacked : Nat
  packing : Nat

/-- The number in a range of bytes. -/
def natAt (bytes : List UInt8) (position width : Nat) : Nat :=
  natOfBytes ((bytes.drop position).take width)

/-- The fields at the front of an archive. -/
def ArchiveHeader.ofBytes (bytes : List UInt8) : ArchiveHeader where
  magic := bytes.take 4
  major := natAt bytes 4 1
  minor := natAt bytes 5 1
  kind := natAt bytes 6 2
  description := natAt bytes 8 4
  payload := natAt bytes 12 4
  unpacked := natAt bytes 16 4
  packing := natAt bytes 20 1

/-- The first thing wrong with a header, in an archive whose checksum begins at
    the given position. -/
def ArchiveHeader.fault? (h : ArchiveHeader) (size : Nat) : Option ArchiveError :=
  if h.magic ≠ archiveMagic then some (.wrongMagic h.magic)
  else if 1 < h.major then some (.unsupportedVersion h.major h.minor)
  else match modelKinds.lookup h.kind with
    | none => some (.unknownKind h.kind)
    | some name =>
        if Nat.pow 2 30 < h.unpacked then some (.tooLarge h.unpacked)
        else if 3 < h.packing then some (.unknownPacking h.packing)
        else if h.kind ≠ forestKind then some (.otherKind name)
        else if size < 32 + h.description + h.payload then some .truncated
        else if h.packing = 3 then some (.packed .lz4)
        else if h.packing ≠ 0 then some (.packed .zstd)
        else none

/-- The model in an archive. -/
def readArchive (bytes : List UInt8) : Except ArchiveError PortableModel :=
  let size := bytes.length - 4
  let stored := UInt32.ofNat (natAt bytes size 4)
  let computed := crc32 (bytes.take size)
  let header := ArchiveHeader.ofBytes bytes
  if bytes.length < 36 then .error (.tooSmall bytes.length)
  else if stored ≠ computed then .error (.checksumMismatch stored computed)
  else match header.fault? size with
    | some fault => .error fault
    | none =>
        match takeModel ((bytes.drop (32 + header.description)).take header.payload) with
        | some (m, _) => if m.forest.isFitted then .ok m else .error .notFitted
        | none => .error .malformed

end CommitRisk
