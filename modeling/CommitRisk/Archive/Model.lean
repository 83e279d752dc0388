import CommitRisk.Archive.Bytes
import CommitRisk.Forest.Basic

/-!
# Models That Can Be Stored

A forest with the names of its columns and a note of when and from how much it
was trained is all that is needed to predict later. `encodeModel` lays it out
as bytes and `takeModel` reads it back from the front of some bytes.

Counts are eight bytes wide, so a model whose counts do not fit has no faithful
layout; `PortableModel.fits` says that they do.

## Main definitions

* `ModelNote`: When, by which release and from how many rows a model was made.
* `PortableModel`: A forest with its column names and its note.
* `PortableModel.model`: The stored model as a risk model.
* `PortableModel.fits`: Every count fits eight bytes.
* `encodeModel`, `takeModel`: The layout.
-/

namespace CommitRisk

/-- When, by which release and from how many rows a model was made. -/
structure ModelNote where
  version : String
  /-- Seconds since the epoch, in decimal. -/
  trainedAt : String
  samples : Nat
  description : Option String
deriving DecidableEq

/-- A forest with the names of its columns. -/
structure PortableModel where
  names : List String
  forest : Forest
  note : ModelNote
deriving DecidableEq

namespace PortableModel

/-- The stored model as a risk model. It refuses every batch if its names do
    not match the width of its forest. -/
def model (m : PortableModel) : RiskModel Float where
  width := m.names.length
  predict rows :=
    if m.forest.width ≠ m.names.length then
      .error (.misnamedColumns m.forest.width m.names.length)
    else m.forest.model.predict rows

/-- One line about a model. -/
def statusLine (m : PortableModel) : String :=
  s!"model: faultline v{m.note.version}, {m.forest.params.estimators.toNat} trees, "
    ++ s!"trained with {m.note.samples} samples"

end PortableModel

/-- The note as a JSON object. -/
def ModelNote.toJson (n : ModelNote) : Json :=
  .object [
    ("faultline_version", .text n.version),
    ("trained_at", .text n.trainedAt),
    ("training_samples", .ofNat n.samples),
    ("description", .ofOption .text n.description)]

/-- A count fits eight bytes. -/
def fitsWord (n : Nat) : Bool :=
  n < Nat.pow 2 64

/-- Every count in a tree fits eight bytes. -/
def Tree.fits : Tree → Bool
  | .leaf cls count => fitsWord cls && fitsWord count
  | .split feature _ left right => fitsWord feature && left.fits && right.fits

/-- Every count of a decision tree fits eight bytes. -/
def DecisionTree.fits (t : DecisionTree) : Bool :=
  t.root.all Tree.fits && t.width.all fitsWord

/-- The dimensions of a matrix fit eight bytes. -/
def Matrix.fits (m : Matrix) : Bool :=
  fitsWord m.rows && fitsWord m.columns

/-- Every count of a model fits eight bytes. -/
def PortableModel.fits (m : PortableModel) : Bool :=
  let e := m.forest.ensemble
  e.trees.all DecisionTree.fits && e.outOfBag.all (fun rows => rows.all fitsWord)
    && e.samples.all Matrix.fits && e.labels.all (fun labels => labels.all fitsWord)
    && fitsWord m.forest.width && fitsWord m.note.samples

/-- A split begins with zero and a leaf with one, four bytes wide. -/
def encodeTree : Tree → List UInt8
  | .split feature threshold left right =>
      lowFirst 4 0 ++ encodeCount feature ++ encodeFloat32 threshold
        ++ encodeTree left ++ encodeTree right
  | .leaf cls count => lowFirst 4 1 ++ encodeCount cls ++ encodeCount count

/-- Reads a tree of at most the given depth. -/
def takeTreeWithin : Nat → Decoder Tree
  | 0 => failure
  | fuel + 1 => do
      let tag ← takeNat 4
      if tag = 0 then
        let feature ← takeCount
        let threshold ← takeFloat32
        let left ← takeTreeWithin fuel
        let right ← takeTreeWithin fuel
        return .split feature threshold left right
      else if tag = 1 then
        let cls ← takeCount
        let count ← takeCount
        return .leaf cls count
      else failure

/-- Reads a tree, which cannot be deeper than there are bytes left. -/
def takeTree : Decoder Tree := fun bytes =>
  takeTreeWithin bytes.length bytes

/-- The layout of a decision tree. -/
def encodeDecisionTree (t : DecisionTree) : List UInt8 :=
  encodeOption encodeTree t.root ++ encodeOption encodeWord t.maxDepth
    ++ encodeOption encodeCount t.width

/-- Reads a decision tree. -/
def takeDecisionTree : Decoder DecisionTree := do
  let root ← takeOption takeTree
  let maxDepth ← takeOption takeWord
  let width ← takeOption takeCount
  return ⟨root, maxDepth, width⟩

/-- The layout of hyper-parameters. -/
def encodeParams (p : HyperParameters) : List UInt8 :=
  encodeWord p.estimators ++ encodeOption encodeWord p.maxDepth
    ++ encodeOption encodeWord p.seed

/-- Reads hyper-parameters. -/
def takeParams : Decoder HyperParameters := do
  let estimators ← takeWord
  let maxDepth ← takeOption takeWord
  let seed ← takeOption takeWord
  return ⟨estimators, maxDepth, seed⟩

/-- The layout of a matrix. -/
def encodeMatrix (m : Matrix) : List UInt8 :=
  encodeList encodeFloat32 m.cells ++ encodeCount m.rows ++ encodeCount m.columns

/-- Reads a matrix. -/
def takeMatrix : Decoder Matrix := do
  let cells ← takeList takeFloat32
  let rows ← takeCount
  let columns ← takeCount
  return ⟨cells, rows, columns⟩

/-- The layout of an ensemble. -/
def encodeEnsemble (e : Ensemble) : List UInt8 :=
  encodeList encodeDecisionTree e.trees ++ encodeParams e.params
    ++ encodeList (encodeList encodeCount) e.outOfBag
    ++ encodeOption encodeMatrix e.samples
    ++ encodeOption (encodeList encodeCount) e.labels

/-- Reads an ensemble. -/
def takeEnsemble : Decoder Ensemble := do
  let trees ← takeList takeDecisionTree
  let params ← takeParams
  let outOfBag ← takeList (takeList takeCount)
  let samples ← takeOption takeMatrix
  let labels ← takeOption (takeList takeCount)
  return ⟨trees, params, outOfBag, samples, labels⟩

/-- The layout of a forest. -/
def encodeForest (f : Forest) : List UInt8 :=
  encodeEnsemble f.ensemble ++ encodeCount f.width ++ encodeParams f.params
    ++ encodeList encodeFloat f.importances

/-- Reads a forest. -/
def takeForest : Decoder Forest := do
  let ensemble ← takeEnsemble
  let width ← takeCount
  let params ← takeParams
  let importances ← takeList takeFloat
  return ⟨ensemble, width, params, importances⟩

/-- The layout of a note. -/
def encodeNote (n : ModelNote) : List UInt8 :=
  encodeText n.version ++ encodeText n.trainedAt ++ encodeCount n.samples
    ++ encodeOption encodeText n.description

/-- Reads a note. -/
def takeNote : Decoder ModelNote := do
  let version ← takeText
  let trainedAt ← takeText
  let samples ← takeCount
  let description ← takeOption takeText
  return ⟨version, trainedAt, samples, description⟩

/-- The layout of a model. -/
def encodeModel (m : PortableModel) : List UInt8 :=
  encodeList encodeText m.names ++ encodeForest m.forest ++ encodeNote m.note

/-- Reads a model. -/
def takeModel : Decoder PortableModel := do
  let names ← takeList takeText
  let forest ← takeForest
  let note ← takeNote
  return ⟨names, forest, note⟩

end CommitRisk
