import TensorParity.Machine.Process

/-!
The state of a machine: its files, its pipes, and the processes that run on it. Each process has a
clock of its own, so processes run beside each other; what they do to shared things happens in the
order of their clocks.
-/
namespace TensorParity.Machine

/-- Bytes between those who write and those who read. -/
structure Pipe where
  bytes : ByteArray := .empty
  /-- How many of the bytes were read. -/
  start : Nat := 0

namespace Pipe

def available (p : Pipe) : Nat := p.bytes.size - p.start

/-- More bytes than this make writers wait. -/
def capacity : Nat := 65536

def put (p : Pipe) (bytes : ByteArray) : Pipe :=
  if p.start = p.bytes.size then ⟨bytes, 0⟩
  else if p.bytes.size < 2 * p.start then
    ⟨p.bytes.extract p.start p.bytes.size ++ bytes, 0⟩
  else { p with bytes := p.bytes ++ bytes }

def take (p : Pipe) (count : Nat) : ByteArray × Pipe :=
  (p.bytes.extract p.start (p.start + count), { p with start := p.start + count })

end Pipe

/-- What left the machine. Whoever reads it takes offence when it is more than a limit. -/
structure Outlet where
  limit : Nat
  bytes : ByteArray := .empty

namespace Outlet

def put (o : Outlet) (bytes : ByteArray) : Outlet := { o with bytes := o.bytes ++ bytes }

def isOver (o : Outlet) : Bool := o.limit < o.bytes.size

end Outlet

/-- An open file. Several descriptors may share it, and with it the place in the file. -/
structure Description where
  channel : Channel
  readable : Bool
  writable : Bool
  appending : Bool := false
  offset : Nat := 0

/-- A descriptor of a process. -/
structure Slot where
  descriptor : Nat
  /-- The number of the description. -/
  description : Nat
  /-- Whether it is closed when another program takes the place of this one. -/
  kept : Bool := false

structure Task where
  number : Nat
  parent : Nat
  program : Process
  /-- How far it has come, in microseconds. -/
  time : Nat
  slots : List Slot
  directory : Location
  reactions : List (Nat × Reaction) := []
  noted : List Nat := []
  /-- Whether it waits for another process. -/
  waiting : Bool := false
  stopped : Bool := false
  exit : Option Exit := none

namespace Task

def reaction (t : Task) (signal : Nat) : Reaction := (t.reactions.lookup signal).getD .usual

def setReaction (t : Task) (signal : Nat) (r : Reaction) : Task :=
  { t with reactions := (signal, r) :: t.reactions.filter (·.1 ≠ signal) }

def slot? (t : Task) (descriptor : Nat) : Option Slot :=
  t.slots.find? (·.descriptor = descriptor)

def close (t : Task) (descriptor : Nat) : Task :=
  { t with slots := t.slots.filter (·.descriptor ≠ descriptor) }

def put (t : Task) (s : Slot) : Task :=
  { t with slots := s :: t.slots.filter (·.descriptor ≠ s.descriptor) }

/-- The first number from `n` on that is no descriptor. -/
def freeFrom (t : Task) : (fuel n : Nat) → Nat
  | 0, n => n
  | fuel + 1, n => if (t.slot? n).isSome then freeFrom t fuel (n + 1) else n

def free (t : Task) (least : Nat) : Nat := t.freeFrom (t.slots.length + 1) least

/-- Ends the process; its descriptors are closed. -/
def finish (t : Task) (exit : Exit) : Task :=
  { t with exit := some exit, program := .exit 0, slots := [], waiting := false }

end Task

/-- Signals that do nothing by default. -/
def harmlessSignals : List Nat := [17, 18, 23, 28]

/-- Signals that stop a process by default. -/
def stoppingSignals : List Nat := [19, 20, 21, 22]

def killSignal : Nat := 9

def pipeSignal : Nat := 13

def stopSignal : Nat := 19

def continueSignal : Nat := 18

/-- A signal reaches a process. -/
def Task.deliver (t : Task) (signal : Nat) : Task :=
  if t.exit.isSome ∨ signal = 0 then t
  else if signal = killSignal then t.finish (.signal signal)
  else if signal = stopSignal then { t with stopped := true }
  else
    let t := if signal = continueSignal then { t with stopped := false } else t
    match t.reaction signal with
    | .ignore => t
    | .note => if signal ∈ t.noted then t else { t with noted := t.noted ++ [signal] }
    | .usual =>
      if signal ∈ harmlessSignals then t
      else if signal ∈ stoppingSignals then { t with stopped := true }
      else t.finish (.signal signal)

structure State where
  files : FileSystem
  /-- The processes apart from the one that runs. -/
  others : List Task := []
  descriptions : Array Description := #[]
  pipes : Array Pipe := #[]
  nameless : Array ByteArray := #[]
  outlets : Array Outlet := #[]
  /-- The number of the next process. -/
  next : Nat
  /-- How far the machine has come, in microseconds. -/
  time : Nat := 0

namespace State

def description? (m : State) (t : Task) (descriptor : Nat) : Option (Nat × Description) := do
  let s ← t.slot? descriptor
  return (s.description, ← m.descriptions[s.description]?)

/-- Whether any process has an open file that passes a test. -/
def holds (m : State) (t : Task) (test : Description → Bool) : Bool :=
  (t :: m.others).any fun t => t.slots.any fun s => (m.descriptions[s.description]?).any test

/-- Opens a new description under a new descriptor. -/
def install (m : State) (t : Task) (d : Description) : Nat × State × Task :=
  let n := t.free 0
  (n, { m with descriptions := m.descriptions.push d },
    t.put { descriptor := n, description := m.descriptions.size })

def setOffset (m : State) (description offset : Nat) : State :=
  { m with descriptions := m.descriptions.modify description fun d => { d with offset } }

/-- The files as a process sees them. -/
def filesOf (m : State) (t : Task) : FileSystem := { m.files with current := t.directory }

/-- The bytes of a file. -/
def contentOf (m : State) : Channel → ByteArray
  | .file location =>
    match m.files.find? location with
    | some (.file content) => content
    | _ => .empty
  | .nameless index => m.nameless[index]?.getD .empty
  | _ => .empty

def setContent (m : State) (channel : Channel) (content : ByteArray) : State :=
  match channel with
  | .file location => { m with files := m.files.put location (.file content) }
  | .nameless index => { m with nameless := m.nameless.modify index fun _ => content }
  | _ => m

/-- Changes the files. A file that was removed lives on for those who have it open. -/
def update (m : State) (files : FileSystem) : State :=
  let before := m.files
  let m := { m with files := { files with current := before.current } }
  (List.range m.descriptions.size).foldl (fun m i =>
    match m.descriptions[i]? with
    | some d =>
      match d.channel with
      | .file location =>
        match before.find? location, files.find? location with
        | some (.file content), some .directory => lose m i d content
        | some (.file content), none => lose m i d content
        | _, _ => m
      | _ => m
    | none => m) m
where
  lose (m : State) (i : Nat) (d : Description) (content : ByteArray) : State :=
    { m with
      descriptions := m.descriptions.modify i fun _ =>
        { d with channel := .nameless m.nameless.size }
      nameless := m.nameless.push content }

end State

end TensorParity.Machine
