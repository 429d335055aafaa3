import TensorParity.File.Path

/-!
Files as a value: a finite map from locations to files and directories, and the operations on it
with the refusals of an ordinary operating system. There are no links, so a path is followed name by
name. A program that computes on files as a value takes in the locations that its paths pass through,
and stores the difference between two states.
-/
namespace TensorParity

/-- Why a file operation is refused. -/
inductive FileError where
  | notFound
  | denied
  | busy
  | exists
  | notDirectory
  | isDirectory
  | nameTooLong
  | notEmpty
  | noSpace
  | badDescriptor
  | brokenPipe
  | invalid
  /-- A path holds a zero byte. -/
  | zeroByte
  /-- A command or its arguments hold a zero byte. -/
  | zeroInArgument
  /-- The content is no text. -/
  | notText
  deriving DecidableEq

namespace FileError

def description : FileError → String
  | notFound => "No such file or directory"
  | denied => "Permission denied"
  | busy => "Device or resource busy"
  | .exists => "File exists"
  | notDirectory => "Not a directory"
  | isDirectory => "Is a directory"
  | nameTooLong => "File name too long"
  | notEmpty => "Directory not empty"
  | noSpace => "No space left on device"
  | badDescriptor => "Bad file descriptor"
  | brokenPipe => "Broken pipe"
  | invalid => "Invalid argument"
  | zeroByte => "file name contained an unexpected NUL byte"
  | zeroInArgument => "nul byte found in provided data"
  | notText => "stream did not contain valid UTF-8"

/-- The number that the operating system has for the error, if it is one of the system's. -/
def code? : FileError → Option Nat
  | notFound => some 2
  | denied => some 13
  | busy => some 16
  | .exists => some 17
  | notDirectory => some 20
  | isDirectory => some 21
  | nameTooLong => some 36
  | notEmpty => some 39
  | noSpace => some 28
  | badDescriptor => some 9
  | brokenPipe => some 32
  | invalid => some 22
  | zeroByte => none
  | zeroInArgument => none
  | notText => none

def message (e : FileError) : String :=
  match e.code? with
  | some code => s!"{e.description} (os error {code})"
  | none => e.description

end FileError

/-- The names from the root to a file or directory. -/
abbrev Location := List String

inductive Entry where
  | file (content : ByteArray)
  | directory

/-- Files are equal when their bytes are. -/
instance : DecidableEq Entry
  | .directory, .directory => .isTrue rfl
  | .directory, .file _ => .isFalse nofun
  | .file _, .directory => .isFalse nofun
  | .file a, .file b =>
    if h : a.data = b.data then .isTrue (congrArg Entry.file (ByteArray.ext h))
    else .isFalse fun e => h (congrArg ByteArray.data (Entry.file.inj e))

structure FileSystem where
  /-- Everything below the root. -/
  entries : List (Location × Entry) := []
  /-- Where relative paths start. -/
  current : Location := []
  /-- The files that may be run as programs. -/
  runnable : List Location := []
  /-- A number that tells the staging files of this process from those of others. -/
  process : Nat := 1
  deriving DecidableEq

/-- Where a path leads. -/
inductive Target where
  /-- A name in an existing directory; `slash` tells that a slash follows it. -/
  | named (location : Location) (slash : Bool)
  /-- A directory that the path reaches without naming it last. -/
  | reached (location : Location)
  deriving DecidableEq

namespace FileSystem

/-- What is at a location. -/
def find? (fs : FileSystem) (location : Location) : Option Entry :=
  if location = [] then some .directory
  else (fs.entries.find? (·.1 = location)).map (·.2)

/-- Puts an entry at a location in place of what was there. -/
def put (fs : FileSystem) (location : Location) (entry : Entry) : FileSystem :=
  { fs with entries := (location, entry) :: fs.entries.filter (·.1 ≠ location) }

/-- Takes away what is at a location. -/
def drop (fs : FileSystem) (location : Location) : FileSystem :=
  { fs with
    entries := fs.entries.filter (·.1 ≠ location)
    runnable := fs.runnable.filter (· ≠ location) }

/-- The longest name and the longest path, in bytes. -/
def maxName : Nat := 255

def maxPath : Nat := 4095

/-- Steps from a directory into another. -/
def enter (fs : FileSystem) (location : Location) (name : String) : Except FileError Location :=
  if name = "." then .ok location
  else if name = ".." then .ok location.dropLast
  else if maxName < name.utf8ByteSize then .error .nameTooLong
  else
    match fs.find? (location ++ [name]) with
    | none => .error .notFound
    | some (.file _) => .error .notDirectory
    | some .directory => .ok (location ++ [name])

/-- Follows a path up to its last name. -/
def follow (fs : FileSystem) (slash : Bool) : Location → List String → Except FileError Target
  | location, [] => .ok (.reached location)
  | location, [name] =>
    if name = "." then .ok (.reached location)
    else if name = ".." then .ok (.reached location.dropLast)
    else if maxName < name.utf8ByteSize then .error .nameTooLong
    else .ok (.named (location ++ [name]) slash)
  | location, name :: rest => do
    let location ← fs.enter location name
    fs.follow slash location rest

def resolve (fs : FileSystem) (p : Path) : Except FileError Target :=
  let cs := p.text.toList
  if '\x00' ∈ cs then .error .zeroByte
  else if cs = [] then .error .notFound
  else if maxPath < p.text.utf8ByteSize then .error .nameTooLong
  else
    let start := if p.isAbsolute then [] else fs.current
    let names := (p.body.filter (· ≠ [])).map String.ofList
    fs.follow (cs.getLast? = some '/') start names

/-- The location of an existing file or directory. -/
def locate (fs : FileSystem) (p : Path) : Except FileError (Location × Entry) := do
  match ← fs.resolve p with
  | .reached location => return (location, .directory)
  | .named location slash =>
    match fs.find? location with
    | none => .error .notFound
    | some .directory => return (location, .directory)
    | some (.file content) =>
      if slash then .error .notDirectory else return (location, .file content)

def isFile (fs : FileSystem) (p : Path) : Bool :=
  match fs.locate p with
  | .ok (_, .file _) => true
  | _ => false

def isDirectory (fs : FileSystem) (p : Path) : Bool :=
  match fs.locate p with
  | .ok (_, .directory) => true
  | _ => false

def pathExists (fs : FileSystem) (p : Path) : Bool := (fs.locate p).isOk

/-- The bytes of a file. -/
def read (fs : FileSystem) (p : Path) : Except FileError ByteArray := do
  match ← fs.locate p with
  | (_, .file content) => return content
  | (_, .directory) => .error .isDirectory

/-- The size that a listing shows. A directory is small. -/
def size (fs : FileSystem) (p : Path) : Except FileError Nat := do
  match ← fs.locate p with
  | (_, .file content) => return content.size
  | (_, .directory) => return 0

/-- The text of a file. -/
def readText (fs : FileSystem) (p : Path) : Except FileError String := do
  let content ← fs.read p
  match String.fromUTF8? content with
  | some text => return text
  | none => .error .notText

/-- Makes or replaces a file. -/
def write (fs : FileSystem) (p : Path) (content : ByteArray) : Except FileError FileSystem := do
  match ← fs.resolve p with
  | .reached _ => .error .isDirectory
  | .named location slash =>
    if slash ∨ fs.find? location = some .directory then .error .isDirectory
    else return fs.put location (.file content)

/-- Removes a file. -/
def remove (fs : FileSystem) (p : Path) : Except FileError FileSystem := do
  match ← fs.locate p with
  | (location, .file _) => return fs.drop location
  | (_, .directory) => .error .isDirectory

/-- Moves a file; what it replaces must not be a directory. -/
def rename (fs : FileSystem) (source target : Path) : Except FileError FileSystem := do
  let (location, entry) ← fs.locate source
  match ← fs.resolve target with
  | .reached _ => .error .busy
  | .named place slash =>
    if slash then .error .notDirectory
    else if fs.find? place = some .directory then .error .isDirectory
    else return (fs.drop location).put place entry

/-- Makes one directory. -/
def makeDirectory (fs : FileSystem) (p : Path) : Except FileError FileSystem := do
  match ← fs.resolve p with
  | .reached _ => .error .exists
  | .named location _ =>
    match fs.find? location with
    | some _ => .error .exists
    | none => return fs.put location .directory

/-- Makes a directory unless it is there. -/
def ensureDirectory (fs : FileSystem) (p : Path) : Except FileError FileSystem :=
  match fs.makeDirectory p with
  | .ok fs => .ok fs
  | .error e => if fs.isDirectory p then .ok fs else .error e

/-- The location written as an absolute path. -/
def absolute (location : Location) : Path :=
  ⟨"/" ++ "/".intercalate location⟩

/-- The absolute path of an existing file or directory. -/
def canonical (fs : FileSystem) (p : Path) : Except FileError Path := do
  let (location, _) ← fs.locate p
  return absolute location

/-- Whether a location comes before another: names are compared one by one, and a directory comes
before what it holds. -/
def before : Location → Location → Bool
  | _, [] => false
  | [], _ :: _ => true
  | a :: as, b :: bs => a < b || (a = b && before as bs)

/-- What lies below a directory, by names; directories end in a slash. -/
def listing (fs : FileSystem) (location : Location) : List String :=
  let below := fs.entries.filterMap fun (place, entry) =>
    if location.isPrefixOf place ∧ place ≠ location then
      some (place.drop location.length, entry)
    else none
  let sorted := below.mergeSort fun a b => !before b.1 a.1
  sorted.map fun (place, entry) =>
    "/".intercalate place ++ (if entry = .directory then "/" else "")

end FileSystem

/-- A computation on files that may be refused. What it did before a refusal stays done. -/
abbrev FileAction (ε : Type) := ExceptT ε (StateM FileSystem)

namespace FileAction

variable {ε α : Type}

/-- A result that does not change the files. -/
def ofResult {δ : Type} (result : Except δ α) (refused : δ → ε) : FileAction ε α :=
  match result with
  | .ok a => return a
  | .error e => throw (refused e)

/-- Looks something up. -/
def look (query : FileSystem → Except FileError α) (refused : FileError → ε) : FileAction ε α := do
  ofResult (query (← get)) refused

/-- Changes the files. -/
def change (step : FileSystem → Except FileError FileSystem) (refused : FileError → ε) :
    FileAction ε Unit := do
  match step (← get) with
  | .ok fs => set fs
  | .error e => throw (refused e)

/-- Changes the files if that is not refused. -/
def attempt (step : FileSystem → Except FileError FileSystem) : FileAction ε Unit := do
  match step (← get) with
  | .ok fs => set fs
  | .error _ => return ()

/-- Makes a directory and those above it that are missing, going up at most `fuel` times. Those that
were made stay when one below them is refused. -/
def makeTree : (fuel : Nat) → Path → FileAction FileError Unit
  | 0, _ => throw .notFound
  | fuel + 1, p => do
    if p.text = "" then return
    match (← get).makeDirectory p with
    | .ok fs => set fs
    | .error .notFound =>
      let some above := p.parent? | throw .notFound
      makeTree fuel above
      change (·.ensureDirectory p) id
    | .error e => if !(← get).isDirectory p then throw e

/-- Makes a directory and those above it that are missing. -/
def makeDirectories (p : Path) (refused : FileError → ε) : FileAction ε Unit :=
  (makeTree (p.text.length + 1) p).adapt refused

end FileAction

/-- The files with a directory and those above it, if none of them is refused. -/
def FileSystem.makeDirectories (fs : FileSystem) (p : Path) : Except FileError FileSystem :=
  match (FileAction.makeTree (p.text.length + 1) p).run.run fs with
  | (.ok (), fs) => .ok fs
  | (.error e, _) => .error e

/-- One step from a state of the files to another. -/
inductive Change where
  | take (location : Location) (entry : Entry)
  | put (location : Location) (entry : Entry)
  deriving DecidableEq

namespace FileSystem

/-- The locations that names lead through, the last one at the end. -/
def passing (start : Location) : List String → List Location
  | [] => []
  | name :: rest =>
    let next :=
      if name = "." then start else if name = ".." then start.dropLast else start ++ [name]
    next :: passing next rest

/-- The names that stand in a path. -/
def pathNames (p : Path) : List String := (p.body.filter (· ≠ [])).map String.ofList

/-- The locations that a path leads through, with its own at the end. -/
def places (current : Location) (p : Path) : List Location :=
  passing (if p.isAbsolute then [] else current) (pathNames p)

/-- Entries that are not the same in the other state. A directory comes before what it holds. -/
def entriesNotIn (fs other : FileSystem) : List (Location × Entry) :=
  (fs.entries.filter fun (location, entry) => other.find? location ≠ some entry).mergeSort
    fun a b => a.1.length ≤ b.1.length

/-- The steps from one state to another. What goes away goes first, from the inside out; a file that
only gets new content does not go away. -/
def changes (before after : FileSystem) : List Change :=
  let stays : Location × Entry → Bool
    | (location, .file _) =>
      match after.find? location with
      | some (.file _) => true
      | _ => false
    | (_, .directory) => false
  ((before.entriesNotIn after).filter (!stays ·)).reverse.map (fun (l, e) => Change.take l e) ++
    (after.entriesNotIn before).map fun (l, e) => Change.put l e

end FileSystem

end TensorParity
