/-!
# Files

A tree of files and directories, as far as this library reads and writes one.
The tree is a value: writing gives a new tree.

A path is followed from the working directory, or from the root of all
directories if it begins with a slash, one name at a time. Every name but the
last has to lead to a directory. The errors are those a file system reports,
with their numbers.

## Main definitions

* `Entry`, `Files`: What is stored, and where.
* `FileError`: Why a path cannot be used.
* `Place.step`, `placesAlong`: Where names lead.
* `Files.resolve`: The place that a path leads to.
* `Files.read`, `Files.readText`: The content of a file.
* `Files.makeDirectory`, `Files.makeDirectories`: A new directory, alone or with
  all the ones above it.
* `Files.write`: A tree with one file replaced.
* `pathsUpwards`, `parentPath`: A path and the ones above it.
-/

namespace CommitRisk

/-- A file with its content, or a directory. -/
inductive Entry where
  | file (bytes : List UInt8)
  | directory
deriving DecidableEq

/-- The names on the way from the working directory. The root of all
    directories and the directories above the working one have names of their
    own, a slash and two dots. -/
abbrev Place := List String

/-- What is stored, each entry under its place. A place that comes twice has
    the entry that stands first. -/
structure Files where
  entries : List (Place × Entry)

/-- Why a path cannot be used. -/
inductive FileError where
  | notFound
  | alreadyExists
  | notADirectory
  | isADirectory
  | nameTooLong
  | zeroInName
  | invalidText
deriving DecidableEq, Repr

/-- The message of a file error. -/
def FileError.message : FileError → String
  | .notFound => "No such file or directory (os error 2)"
  | .alreadyExists => "File exists (os error 17)"
  | .notADirectory => "Not a directory (os error 20)"
  | .isADirectory => "Is a directory (os error 21)"
  | .nameTooLong => "File name too long (os error 36)"
  | .zeroInName => "file name contained an unexpected NUL byte"
  | .invalidText => "stream did not contain valid UTF-8"

/-- The names of a path as they stand between its slashes. -/
def pathNames (path : String) : List String :=
  (path.toList.splitOn '/').map String.ofList

/-- The directory above a place. -/
def Place.parent (place : Place) : Place :=
  match place.getLast? with
  | none => [".."]
  | some ".." => place ++ [".."]
  | some "/" => place
  | some _ => place.dropLast

/-- The place one name further. No name and a single dot stay where they are,
    and two dots lead up. -/
def Place.step (place : Place) (name : String) : Place :=
  if name == "" || name == "." then place
  else if name == ".." then place.parent
  else place ++ [name]

/-- The path of a place. -/
def Place.path : Place → String
  | "/" :: names => "/" ++ "/".intercalate names
  | names => "/".intercalate names

/-- The most bytes of a name. -/
def maxNameBytes : Nat := 255

/-- The most bytes of a path. -/
def maxPathBytes : Nat := 4095

/-- What keeps a text from being a path, whatever is stored. -/
def pathFault? (path : String) : Option FileError :=
  if path.toList.any fun c => c.toNat == 0 then some .zeroInName
  else if path.isEmpty then some .notFound
  else if maxPathBytes < path.utf8ByteSize then some .nameTooLong
  else none

/-- The place the names of a path begin from. -/
def startOf (path : String) : Place :=
  if path.startsWith "/" then ["/"] else []

/-- The places on the way along a path, the last one included. -/
def placesAlong (path : String) : List Place :=
  let names := pathNames path
  (List.range names.length).map fun n => (names.take (n + 1)).foldl Place.step (startOf path)

/-- The name does not name anything in its directory: it is empty or made of one
    or two dots. -/
def isDots (name : String) : Bool :=
  name == "" || name == "." || name == ".."

/-- The names of a path before the last one, and the last one. Empty names at the
    end do not count. -/
def splitLast (path : String) : List String × String :=
  match (pathNames path).reverse.dropWhile fun name => name == "" with
  | [] => ([], "")
  | name :: before => (before.reverse, name)

/-- The paths made of a first name and the further names, which are given from
    the last to the first, and of those names without the last, and so on up to
    the first name alone. Further names that lead nowhere do not end a path. -/
def pathsFrom (first : String) : List String → List String
  | [] => [if first.isEmpty then "/" else first]
  | name :: before =>
      if name == "" || name == "." then pathsFrom first before
      else "/".intercalate (first :: (name :: before).reverse) :: pathsFrom first before

/-- A path and the ones above it, from the longest to the shortest. -/
def pathsUpwards (path : String) : List String :=
  match pathNames path with
  | first :: further => if path.isEmpty then [] else pathsFrom first further.reverse
  | [] => []

/-- The directory part of a path, if it has one. -/
def parentPath (path : String) : Option String :=
  (pathsUpwards path)[1]?

namespace Files

/-- The tree without any entry. -/
def empty : Files :=
  ⟨[]⟩

/-- A place that is a directory without being stored: the working directory,
    the root, and what is above the working directory. -/
def isGiven (place : Place) : Bool :=
  place == ["/"] || place.all fun name => name == ".."

/-- The entry at a place. -/
def entry? (f : Files) (place : Place) : Option Entry :=
  if isGiven place then some .directory else f.entries.lookup place

/-- Follows names from a place. -/
def follow (f : Files) : Place → List String → Except FileError Place
  | place, [] => .ok place
  | place, name :: rest =>
      match f.entry? place with
      | none => .error .notFound
      | some (.file _) => .error .notADirectory
      | some .directory =>
          if maxNameBytes < name.utf8ByteSize then .error .nameTooLong
          else follow f (place.step name) rest

/-- The place a path leads to, whether or not anything is stored there. -/
def resolve (f : Files) (path : String) : Except FileError Place :=
  match pathFault? path with
  | some fault => .error fault
  | none => f.follow (startOf path) (pathNames path)

/-- There is a file or a directory at a path. -/
def contains (f : Files) (path : String) : Bool :=
  match f.resolve path with
  | .ok place => (f.entry? place).isSome
  | .error _ => false

/-- The content of a file. -/
def read (f : Files) (path : String) : Except FileError (List UInt8) := do
  let place ← f.resolve path
  match f.entry? place with
  | none => .error .notFound
  | some .directory => .error .isADirectory
  | some (.file bytes) => .ok bytes

/-- The content of a file as text. -/
def readText (f : Files) (path : String) : Except FileError String := do
  let bytes ← f.read path
  match String.fromUTF8? ⟨bytes.toArray⟩ with
  | some text => .ok text
  | none => .error .invalidText

/-- Puts an entry at a place. -/
def put (f : Files) (place : Place) (entry : Entry) : Files :=
  ⟨(place, entry) :: f.entries.filter fun (p, _) => p != place⟩

/-- Follows names from a place to a directory. -/
def enter (f : Files) (place : Place) (names : List String) : Except FileError Place := do
  let place ← f.follow place names
  match f.entry? place with
  | none => .error .notFound
  | some (.file _) => .error .notADirectory
  | some .directory => .ok place

/-- A path leads to a directory. -/
def isDirectory (f : Files) (path : String) : Bool :=
  match f.resolve path with
  | .ok place => f.entry? place == some .directory
  | .error _ => false

/-- The directory in which a path names something, and the name. -/
def enterToLast (f : Files) (path : String) : Except FileError (Place × String) :=
  match pathFault? path with
  | some fault => .error fault
  | none => do
      let (before, name) := splitLast path
      return (← f.enter (startOf path) before, name)

/-- A tree with a new directory at a path. -/
def makeDirectory (f : Files) (path : String) : Except FileError Files := do
  let (place, name) ← f.enterToLast path
  if isDots name then .error .alreadyExists
  else if maxNameBytes < name.utf8ByteSize then .error .nameTooLong
  else if (f.entry? (place ++ [name])).isSome then .error .alreadyExists
  else .ok (f.put (place ++ [name]) .directory)

/-- A tree in which the first of the given paths is a directory, where each path
    stands in the directory of the next. A directory that cannot be made because
    the one above is missing is tried again after that one. Those that were made
    before a failure stay. -/
def makeUpwards (f : Files) : List String → Except FileError Unit × Files
  | [] => (.ok (), f)
  | path :: above =>
      let unlessThere (f : Files) (e : FileError) : Except FileError Unit × Files :=
        (if f.isDirectory path then .ok () else .error e, f)
      match f.makeDirectory path with
      | .ok made => (.ok (), made)
      | .error .notFound => match makeUpwards f above with
          | (.error e, f) => (.error e, f)
          | (.ok (), f) => match f.makeDirectory path with
              | .ok made => (.ok (), made)
              | .error e => unlessThere f e
      | .error e => unlessThere f e

/-- A tree in which a path is a directory, unless something is in the way. -/
def makeDirectories (f : Files) (path : String) : Except FileError Unit × Files :=
  f.makeUpwards (pathsUpwards path)

/-- A tree in which the file at a path has the given content. A path that ends
    in a slash stands for a directory, whether there is one or not. -/
def write (f : Files) (path : String) (bytes : List UInt8) : Except FileError Files := do
  let (place, name) ← f.enterToLast path
  if path.endsWith "/" || isDots name then .error .isADirectory
  else if maxNameBytes < name.utf8ByteSize then .error .nameTooLong
  else if f.entry? (place ++ [name]) == some .directory then .error .isADirectory
  else .ok (f.put (place ++ [name]) (.file bytes))

end Files

/-- A path with a name added to its end. -/
def joinPath (directory name : String) : String :=
  if directory.isEmpty then name
  else if directory.endsWith "/" then directory ++ name
  else directory ++ "/" ++ name

end CommitRisk
