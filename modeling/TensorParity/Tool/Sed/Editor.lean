import TensorParity.Tool.Options
import TensorParity.Tool.Sed.Script

/-!
The stream editor between its commands: the line that it works on, where its lines come from, and
where they go. A line keeps whether its end was there, so that a last line without an end is written
without one, unless something is written after it.
-/
namespace TensorParity.Tool.Sed

open Machine

/-- Text that is worked on, and whether an end follows it. -/
structure Space where
  text : ByteArray := .empty
  ended : Bool := true

/-- A text with another one after it, on a line of its own. -/
def Space.followedBy (mark : UInt8) (a b : Space) : Space := ⟨a.text.push mark ++ b.text, b.ended⟩

/-- What output goes to. -/
inductive Sink where
  | printed
  | descriptor (n : Nat)
  /-- Kept until it takes the place of the file that is read. -/
  | kept

structure Output where
  sink : Sink
  /-- What is not written yet. -/
  pending : ByteArray := .empty
  /-- Whether the end of the last line is still to come. -/
  owes : Bool := false

/-- Bytes that were read and are not used up yet. -/
structure Stream where
  descriptor : Option Nat := none
  name : String := "-"
  bytes : ByteArray := .empty
  /-- How many of the bytes are used up. -/
  used : Nat := 0

/-- What is known of a range of lines. -/
inductive Phase where
  | idle
  /-- Inside of it, up to a line if its number is known. -/
  | active (last : Option Nat)
  /-- It was left, and does not begin again if it begins at a number. -/
  | closed
  deriving DecidableEq

/-- What is written when the next line is read. -/
inductive Addition where
  | text (bytes : ByteArray)
  | file (name : String)

structure Settings where
  quiet : Bool := false
  /-- Whether files are read one by one. -/
  separate : Bool := false
  /-- What names the old files, if files are replaced. -/
  inPlace : Option String := none
  /-- What ends a line. -/
  mark : UInt8 := 10
  width : Nat := 70
  extended : Bool := false
  sandboxed : Bool := false
  unbuffered : Bool := false

structure Editor where
  settings : Settings
  script : Script
  space : Space := {}
  held : Space := {}
  number : Nat := 0
  /-- The files that are still to be read. -/
  names : List String
  input : Stream := {}
  /-- Whether the next file begins with a first line. -/
  restarts : Bool := false
  /-- Whether a file could not be read. -/
  failed : Bool := false
  phases : Array Phase
  additions : List Addition := []
  /-- Whether something was replaced since the last line was read. -/
  replaced : Bool := false
  lastUsed : Option Expression := none
  /-- The usual output, and those that commands name. -/
  outputs : Array Output
  readers : Array Stream
  /-- What was written in place of the file that is read. -/
  kept : ByteArray := .empty

/-- A part of the editor's work. -/
abbrev Work := StateT Editor Act

/-- Complains of something that ends the tool. -/
def panic {α : Type} (text : String) : Act α := do
  Act.tell s!"{(← get).call.name}: {text}\n"
  Act.quit 4

namespace Work

/-! ### Output -/

/-- Writes what an output holds back. -/
def flush (index : Nat) : Work (Except FileError Unit) := do
  let s ← get
  match s.outputs[index]? with
  | some o => do
    match o.sink with
    | .descriptor n => do
      set { s with outputs := s.outputs.setIfInBounds index { o with pending := .empty } }
      Act.write n o.pending
    | _ => return .ok ()
  | none => return .ok ()

/-- Writes what all outputs hold back. -/
def flushAll : Work (Except FileError Unit) := do
  let mut result := .ok ()
  for index in List.range (← get).outputs.size do
    let r ← flush index
    if r matches .error _ then result := r
  return result

/-- Complains of something that ends the work. What was printed is written after that. -/
def fail {α : Type} (status : Nat) (text : String) : Work α := do
  Act.tell s!"{(← getThe Tool.State).call.name}: {text}\n"
  let _ ← flushAll
  Act.quit status

/-- Writes bytes to an output. -/
def put (index : Nat) (bytes : ByteArray) : Work Unit := do
  let s ← get
  if let some o := s.outputs[index]? then
    match o.sink with
    | .printed => do
      Act.print bytes
      if s.settings.unbuffered then Act.flush
    | .descriptor _ => do
      let pending := o.pending ++ bytes
      set { s with outputs := s.outputs.setIfInBounds index { o with pending } }
      if s.settings.unbuffered ∨ Act.blockSize ≤ pending.size then
        if let .error e ← flush index then fail 4 s!"couldn't flush <unknown>: {e.description}"
    | .kept => set { s with kept := s.kept ++ bytes }

def setOwes (index : Nat) (owes : Bool) : Work Unit :=
  modify fun s => { s with outputs := s.outputs.modify index fun o => { o with owes } }

/-- Writes the end of the last line if it is still to come. -/
def settle (index : Nat) : Work Unit := do
  let s ← get
  if s.outputs[index]?.any (·.owes) then
    put index ⟨#[s.settings.mark]⟩
    setOwes index false

/-- Writes bytes after whole lines. -/
def putAfter (index : Nat) (bytes : ByteArray) : Work Unit := do
  settle index
  put index bytes

/-- Writes a line. -/
def putSpace (index : Nat) (space : Space) : Work Unit := do
  settle index
  if space.ended then put index (space.text.push (← get).settings.mark)
  else do
    put index space.text
    setOwes index true

/-- Writes a line as far as its first end. -/
def putFirst (index : Nat) (space : Space) : Work Unit := do
  match space.text.findIdx? (· = (← get).settings.mark) with
  | some i => putSpace index ⟨space.text.extract 0 i, true⟩
  | none => putSpace index space

/-! ### Input -/

/-- Makes some bytes of a stream known that are not used up, unless there are none. -/
def fill (s : Stream) : Work (Stream × Bool) := do
  match s.descriptor with
  | none => return (s, false)
  | some n => do
    Act.tick
    match ← Act.read n 4096 with
    | .error e => do
      let name := if s.name = "-" then "stdin" else s.name
      fail 4 s!"read error on {name}: {e.description}"
    | .ok block =>
      if block.isEmpty then return (s, false)
      else return ({ s with bytes := s.bytes.extract s.used s.bytes.size ++ block, used := 0 }, true)

/-- Whether a stream has more bytes. -/
def hasMore (s : Stream) : Work (Stream × Bool) := do
  if s.used < s.bytes.size then return (s, true) else fill s

/-- Takes a line from a stream that has more bytes. -/
def takeLine (mark : UInt8) : (fuel : Nat) → Stream → Work (Stream × Space)
  | 0, s => return (s, {})
  | fuel + 1, s => do
    match s.bytes.findIdx? (· = mark) s.used with
    | some i => return ({ s with used := i + 1 }, ⟨s.bytes.extract s.used i, true⟩)
    | none => do
      let (s, found) ← fill s
      if found then takeLine mark fuel s
      else return ({ s with used := s.bytes.size }, ⟨s.bytes.extract s.used s.bytes.size, false⟩)

/-- The name that the old content of a file is kept under. -/
def oldName (suffix name : String) : String :=
  let parts := name.splitOn "/"
  let last := parts.getLastD ""
  let renamed :=
    if suffix.any (· = '*') then String.intercalate last (suffix.splitOn "*") else last ++ suffix
  if renamed.any (· = '/') then renamed else String.intercalate "/" (parts.dropLast ++ [renamed])

/-- Puts what was written in the place of the file that was read. -/
def replaceFile (suffix name : String) : Work Unit := do
  let path : Path := ⟨Octet.toText name⟩
  if suffix ≠ "" then
    let _ ← Act.change fun fs => do
      let runnable := fs.runnable.contains (← fs.locate path).1
      let old : Path := ⟨Octet.toText (oldName suffix name)⟩
      let fs ← fs.write old (← fs.read path)
      let place := (← fs.locate old).1
      return if runnable then { fs with runnable := place :: fs.runnable } else fs
  let kept := (← get).kept
  let _ ← Act.change fun fs => fs.write path kept

/-- Closes the file that is read. -/
def closeInput : Work Unit := do
  let s ← get
  if let some n := s.input.descriptor then
    if n = 0 then Act.giveBack 0 (s.input.bytes.size - s.input.used) else Act.close n
    set { s with
      input := { s.input with descriptor := none, bytes := .empty, used := 0 }
      restarts := s.settings.separate }
    if let some suffix := s.settings.inPlace then replaceFile suffix s.input.name

/-- Begins to write in place of a file, which must be a usual one. -/
def beginReplacing (name : String) : Work Unit := do
  if !(← Act.files).isFile ⟨Octet.toText name⟩ then
    fail 4 s!"couldn't edit {name}: not a regular file"
  modify fun s => { s with kept := .empty }
  setOwes 0 false

/-- Opens a file to be read. -/
def openInput (name : String) : Work Unit := do
  let s ← get
  if name = "-" ∧ s.settings.inPlace.isNone then
    set { s with input := { descriptor := some 0 } }
  else
    match ← Act.openFile name .read with
    | .ok n => do
      set { s with input := { descriptor := some n, name } }
      if s.settings.inPlace.isSome then beginReplacing name
    | .error e => do
      Act.tell s!"{(← getThe Tool.State).call.name}: can't read {name}: {e.description}\n"
      set { s with input := { name }, failed := true }

def hasBytes : Work Bool := do
  let s ← get
  let (input, found) ← hasMore s.input
  set { s with input }
  return found

/-- Whether a line follows. The files that follow are opened for that. -/
def hasNext : (fuel : Nat) → Work Bool
  | 0 => return false
  | fuel + 1 => do
    if ← hasBytes then return true
    if (← get).settings.separate then return false
    closeInput
    match (← get).names with
    | [] => return false
    | name :: names => do
      modify fun s => { s with names }
      openInput name
      hasNext fuel

/-- Whether the line is the last one. -/
def isLast : Work Bool := do return !(← hasNext ((← get).names.length + 1))

/-- The phases of ranges before the first line. -/
def firstPhases (script : Script) : Array Phase :=
  script.commands.foldl (fun phases c =>
    match c.scope with
    | .range i (.line 0) _ => phases.setIfInBounds i (.active none)
    | _ => phases) (Array.replicate script.ranges .idle)

/-- Writes what was added to the line before. -/
def writeAdditions : List Addition → Work Unit
  | [] => return ()
  | a :: rest => do
    settle 0
    match a with
    | .text bytes => put 0 bytes
    | .file name =>
      if let .ok n ← Act.openFile name .read then
        copy name n Routine.endless
        Act.close n
    writeAdditions rest
where
  copy (name : String) (n : Nat) : (fuel : Nat) → Work Unit
    | 0 => return ()
    | fuel + 1 => do
      Act.tick
      match ← Act.read n 4096 with
      | .error e => fail 4 s!"read error on {name}: {e.description}"
      | .ok block =>
        if !block.isEmpty then
          put 0 block
          copy name n fuel

def dropAdditions : Work Unit := do
  let additions := (← get).additions
  modify fun s => { s with additions := [] }
  writeAdditions additions

/-- The streams of lines that commands read, from their beginnings. -/
def rewound (s : Stream) : Act Stream := do
  match s.descriptor with
  | none => return s
  | some 0 => return s
  | some n => do
    Act.close n
    match ← Act.openFile s.name .read with
    | .ok n => return { descriptor := some n, name := s.name }
    | .error _ => return { name := s.name }

/-- What happens before the lines of a file are counted anew. -/
def restart : Work Unit := do
  let s ← get
  if s.restarts then
    let mut readers := #[]
    for r in s.readers do
      readers := readers.push (← rewound r)
    set { s with
      readers, restarts := false, number := 0
      held := { s.held with text := .empty }
      phases := firstPhases s.script }
    if s.settings.inPlace.isNone then settle 0

/-- Goes on to the next file that has lines. -/
def findLine : (fuel : Nat) → Work Bool
  | 0 => return false
  | fuel + 1 => do
    if ← hasBytes then return true
    closeInput
    match (← get).names with
    | [] => return false
    | name :: names => do
      modify fun s => { s with names }
      restart
      openInput name
      findLine fuel

/-- Reads the next line. `more` says that it follows what is there. -/
def readLine (more : Bool) : Work Bool := do
  dropAdditions
  modify fun s => { s with replaced := false }
  if ← findLine ((← get).names.length + 1) then
    let s ← get
    let (input, line) ← takeLine s.settings.mark Routine.endless s.input
    let text := if more then s.space.text ++ line.text else line.text
    set { s with input, number := s.number + 1, space := ⟨text, line.ended⟩ }
    return true
  else return false

end Work

end TensorParity.Tool.Sed
