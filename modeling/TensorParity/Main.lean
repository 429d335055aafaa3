import TensorParity.Backend.Machine
import TensorParity.CommandLine.Run
import Std.Time.DateTime.Timestamp

/-!
The program as a command. It takes in the files that a run names, runs, and stores what changed.
Commands of the environment run on a machine of their own.
-/
open TensorParity

/-- What is at a location of the disk, as far as it can be read. -/
def entryAt (location : Location) : IO (Option Entry) := do
  match ← (IO.FS.readBinFile (FileSystem.absolute location).text).toBaseIO with
  | .ok content => return some (.file content)
  | .error (.inappropriateType ..) => return some .directory
  | .error _ => return none

/-- The part of the disk that lies at these locations. -/
def takeIn (current : Location) (locations : List Location) : IO FileSystem := do
  let mut files : FileSystem := { current, process := (← IO.monoMsNow) % 65536 + 1 }
  for location in locations do
    if let some entry ← entryAt location then
      files := files.put location entry
  return files

/-- Makes one change on the disk. -/
def store : Change → IO Unit
  | .take location (.file _) => IO.FS.removeFile (FileSystem.absolute location).text
  | .take location .directory => IO.FS.removeDir (FileSystem.absolute location).text
  | .put location (.file content) =>
    IO.FS.writeBinFile (FileSystem.absolute location).text content
  | .put location .directory => IO.FS.createDirAll (FileSystem.absolute location).text

/-- The variables that a run looks at, and some that the commands it starts look at. -/
def readVariables : IO (List (String × String)) := do
  let names := ["CP_WORK_DIR", "CP_CONVERTER", "CP_TARGET_RUNNER", "CP_CONVERTER_TIMEOUT_MS",
    "HOME", "LANG", "PATH", "PWD", "TMPDIR", "USER"]
  let values ← names.mapM fun name => do return (← IO.getEnv name).map (name, ·)
  return values.filterMap id

def main (arguments : List String) : IO UInt32 := do
  let current := FileSystem.pathNames ⟨(← IO.currentDir).toString⟩
  let named ← readVariables
  let env : Environment := fun name => named.lookup name
  let now := (← Std.Time.Timestamp.now).toMillisecondsSinceUnixEpoch.val.toNat
  let before ← takeIn current
    (FileSystem.passing [] current
      ++ CommandLine.footprintPlaces current Registry.builtin env arguments)
  let host := Host.machine (named.map fun (name, value) => (name, Octet.ofText value))
  let (outcome, after) := CommandLine.run host env now arguments before
  for change in before.changes after do
    store change
  IO.print outcome.stdout
  IO.eprint outcome.stderr
  return outcome.code.toUInt32
