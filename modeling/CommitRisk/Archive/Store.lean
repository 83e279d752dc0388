import CommitRisk.Archive.Container
import CommitRisk.Text.Quoted

/-!
# Storing and Loading Models

Models are stored as archives in a file tree. Storing makes the directory of the
file if it is not there; loading refuses an archive of a forest that cannot
predict. A loaded model can be held against the features it is to be used with.

## Main definitions

* `StoreError`: Why a model cannot be stored, loaded or used.
* `saveModel`: The file tree with a model stored in it.
* `loadModel`: The model stored at a path.
* `PortableModel.ensureFeatures`: The model was trained on exactly these columns.
-/

namespace CommitRisk

/-- Why a model cannot be stored. -/
inductive SaveFault where
  | file (error : FileError)
  | countTooLarge
deriving DecidableEq, Repr

/-- Why a model cannot be stored, loaded or used. -/
inductive StoreError where
  | save (fault : SaveFault)
  | load (error : ArchiveError)
  | fileNotFound (path : String)
  | featureMismatch (expected found : List String)
  | directory (error : FileError)
deriving DecidableEq, Repr

/-- The message of a save fault. -/
def SaveFault.message : SaveFault → String
  | .file e => s!"I/O error: {e.message}"
  | .countTooLarge => "a count does not fit sixty-four bits"

/-- The message of a store error. -/
def StoreError.message : StoreError → String
  | .save fault => s!"Failed to save model: {fault.message}"
  | .load e => s!"Failed to load model: {e.message}"
  | .fileNotFound path => s!"Model file not found: {path}"
  | .featureMismatch expected found =>
      s!"Model features {quotedList found} do not match expected {quotedList expected}"
  | .directory e => s!"IO error: {e.message}"

/-- The file tree with the directory of a path in it. -/
def makeParent (files : Files) (path : String) : Except FileError Unit × Files :=
  match parentPath path with
  | none => (.ok (), files)
  | some parent => files.makeDirectories parent

/-- The file tree with a model stored at a path. The directory is made first and
    stays even if the file cannot be written. -/
def saveModel (files : Files) (path createdAt : String) (label : ArchiveLabel)
    (m : PortableModel) : Except StoreError Unit × Files :=
  match makeParent files path with
  | (.error e, files) => (.error (.directory e), files)
  | (.ok (), files) =>
      if m.fits then
        match files.write path (writeArchive createdAt label m) with
        | .error e => (.error (.save (.file e)), files)
        | .ok files => (.ok (), files)
      else (.error (.save .countTooLarge), files)

/-- The model stored at a path. -/
def loadModel (files : Files) (path : String) : Except StoreError PortableModel :=
  if files.contains path then
    match files.read path with
    | .error e => .error (.load (.file e))
    | .ok bytes => match readArchive bytes with
      | .error e => .error (.load e)
      | .ok m => .ok m
  else .error (.fileNotFound path)

/-- Fails unless the model was trained on exactly the given columns. -/
def PortableModel.ensureFeatures (m : PortableModel) (features : List String) :
    Except StoreError Unit :=
  if m.names = features then .ok () else .error (.featureMismatch features m.names)

end CommitRisk
