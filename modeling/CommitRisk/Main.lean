import CommitRisk.CommandLine.Run
import Std.Time.DateTime.Timestamp

/-!
# The Program

The outer layer: it takes the arguments, the time, a key by chance and a picture of
the files a run may look at, works out the run, and carries out what came of it. Everything
that is decided is decided by `runProgram`.

## Main definitions

* `CommandLine.paths`: The paths that a run looks at.
* `picture`: The files and directories on the way along some paths.
* `drawChance`: Words that cannot be told in advance.
* `carryOut`: Writes the files that are not as they were.
-/

namespace CommitRisk

/-- The paths that a run looks at. -/
def CommandLine.paths (c : CommandLine) : List String :=
  let tables := [Resource.commits, .files, .developers].map Resource.fileName
  let model := match c.command with
    | .build _ path => path
    | .predict path _ _ => path
  c.config.toList ++ c.data.toList.flatMap (fun d => tables.map (joinPath d)) ++ [model]

/-- The number of the error that a directory cannot be read like a file. -/
def directoryErrorCode : UInt32 := 21

/-- What is stored at a place, if anything is. -/
def lookAt (place : Place) : IO (Option Entry) := do
  let answer ← (IO.FS.readBinFile place.path).toBaseIO
  return match answer with
    | .ok bytes => some (.file bytes.toList)
    | .error (.inappropriateType _ code _) =>
        if code == directoryErrorCode then some .directory else none
    | .error _ => none

/-- The files and directories on the way along some paths. -/
def picture (paths : List String) : IO Files :=
  (paths.flatMap placesAlong).foldlM
    (fun files place => do
      if Files.isGiven place then return files
      match ← lookAt place with
      | some entry => return files.put place entry
      | none => return files)
    Files.empty

/-- Writes the files and directories that are not as they were before. -/
def carryOut (before after : Files) : IO Unit :=
  after.entries.reverse.forM fun (place, entry) => do
    if before.entry? place != some entry then
      match entry with
      | .directory => IO.FS.createDir place.path
      | .file bytes => IO.FS.writeBinFile place.path ⟨bytes.toArray⟩

/-- Four words of a key, lowest byte first, from a place of some bytes on. -/
def lanesAt (bytes : ByteArray) (place : Nat) : Lanes :=
  let byte (i : Nat) : UInt32 := (bytes.data[place + i]?.getD 0).toUInt32
  let word (i : Nat) : UInt32 :=
    byte i ||| (byte (i + 1) <<< 8) ||| (byte (i + 2) <<< 16) ||| (byte (i + 3) <<< 24)
  ⟨word 0, word 4, word 8, word 12⟩

/-- Words under a key drawn by chance. The streams are parts of one, so far from
    each other that they never meet. -/
def drawChance : IO Chance := do
  let bytes ← IO.getRandomBytes 32
  return fun tree => ⟨lanesAt bytes 0, lanesAt bytes 16, UInt64.ofNat tree <<< 32, []⟩

/-- Runs the program with the given arguments. -/
def run (args : List String) : IO UInt32 := do
  let now ← Std.Time.Timestamp.now
  let paths := match CommandLine.parse args with
    | .ok c => c.paths
    | .error _ => []
  let files ← picture paths
  let chance ← drawChance
  let ended := runProgram args (toString now.toSecondsSinceUnixEpoch.val) chance files
  carryOut files ended.files
  IO.print ended.stdout
  IO.eprint ended.stderr
  return UInt32.ofNat ended.code

end CommitRisk

/-- The entry point. -/
def main (args : List String) : IO UInt32 :=
  CommitRisk.run args
