import TensorParity.Machine.Program

/-!
Tools. A tool reads files and its standard input, keeps what it prints until there is much of it or
the tool ends, and complains on its standard error. What it prints is written before it complains.
-/
namespace TensorParity.Tool

open Machine
open Machine.Routine (ask attempt)

/-- What a tool knows while it runs. -/
structure State where
  call : Call
  /-- The programs that it could run. -/
  programs : Programs
  /-- What was printed and is not written yet. -/
  pending : ByteArray := .empty
  /-- Why writing failed, if it ever did. -/
  failure : Option FileError := none
  status : Nat := 0

/-- A part of a tool. It fails when the tool ends before its time, with the status that it has. -/
abbrev Act := Routine State Unit

namespace Act

def setStatus (status : Nat) : Act Unit := modify fun s => { s with status }

/-- Ends the tool. -/
def quit {α : Type} (status : Nat) : Act α := do
  setStatus status
  throw ()

/-- Writes bytes at once. -/
def write (descriptor : Nat) (bytes : ByteArray) : Act (Except FileError Unit) :=
  if bytes.isEmpty then return .ok () else ask (.write descriptor bytes)

/-- Writes what was printed. -/
def flush : Act Unit := do
  let s ← get
  if !s.pending.isEmpty then
    set { s with pending := .empty }
    if let .error e ← write 1 s.pending then
      modify fun s => { s with failure := s.failure.or (some e) }

/-- How much is printed before it is written. -/
def blockSize : Nat := 4096

def print (bytes : ByteArray) : Act Unit := do
  modify fun s => { s with pending := s.pending ++ bytes }
  if blockSize ≤ (← get).pending.size then flush

/-- Prints octet text. -/
def printText (text : String) : Act Unit := print (Octet.toBytes text)

/-- Complains without naming the tool. -/
def tell (text : String) : Act Unit := do
  let _ ← write 2 (Octet.toBytes text)

/-- Complains and goes on. -/
def warn (text : String) : Act Unit := do
  flush
  tell s!"{(← get).call.name}: {text}\n"

/-- Complains and ends. -/
def fail {α : Type} (status : Nat) (text : String) : Act α := do
  warn text
  quit status

/-- Complains about how the tool was called, and ends. -/
def misuse {α : Type} (status : Nat) (text : String) : Act α := do
  warn text
  advise status
where
  advise {α : Type} (status : Nat) : Act α := do
    tell s!"Try '{(← get).call.name} --help' for more information.\n"
    quit status

/-- Reads at most `count` bytes; none are left when it yields none. -/
def read (descriptor count : Nat) : Act (Except FileError ByteArray) :=
  ask (.read descriptor count none)

def openFile (path : String) (access : Access) : Act (Except FileError Nat) :=
  ask (.openFile ⟨Octet.toText path⟩ access)

def close (descriptor : Nat) : Act Unit := do
  let _ ← ask (.close descriptor)

/-- Makes bytes unread. -/
def giveBack (descriptor count : Nat) : Act Unit := ask (.giveBack descriptor count)

/-- Lets a moment pass. -/
def tick : Act Unit := Routine.tick

def files : Act FileSystem := ask .files

/-- Changes the files, unless that is refused. -/
def change (step : FileSystem → Except FileError FileSystem) : Act (Except FileError Unit) := do
  match step (← files) with
  | .ok _ => do
    ask (.change fun fs => (step fs).toOption.getD fs)
    return .ok ()
  | .error e => return .error e

/-- Reads everything and does something with each piece. -/
def eachBlock (descriptor count : Nat) (step : ByteArray → Act Unit) :
    Act (Except FileError Unit) := do
  go Routine.endless
where
  go : (fuel : Nat) → Act (Except FileError Unit)
    | 0 => return .ok ()
    | fuel + 1 => do
      Routine.tick
      match ← read descriptor count with
      | .error e => return .error e
      | .ok bytes =>
        if bytes.isEmpty then return .ok ()
        else do
          step bytes
          go fuel

end Act

/-- A tool as a process. What it printed is written at its end, and a failure to do so is told. -/
def run (main : Act Unit) (programs : Programs) (call : Call) : Process :=
  (do
    let _ ← attempt main
    Act.flush
    if let some e := (← get).failure then
      Act.warn s!"write error: {e.description}"
      Act.setStatus 1 : Act Unit) { call, programs } fun _ s => .exit s.status

end TensorParity.Tool
