import TensorParity.File.System

/-!
Processes. A process asks its machine for one thing at a time and goes on with the answer, so a
program is a tree of requests and knows nothing of the processes beside it.
-/
namespace TensorParity.Machine

/-- How a file is opened. -/
inductive Access where
  /-- To be read. -/
  | read
  /-- To be written from its beginning; what it held is gone. -/
  | write
  /-- To be written at its end. -/
  | append
  /-- To be read and written from its beginning. -/
  | update
  /-- To be written, if it is not there yet. -/
  | create
  deriving DecidableEq

/-- What a process does when a signal reaches it. -/
inductive Reaction where
  | usual
  | ignore
  /-- The process is told of the signal when it asks. -/
  | note
  deriving DecidableEq

/-- How a process ended. -/
inductive Exit where
  | status (code : Nat)
  | signal (number : Nat)
  deriving DecidableEq

/-- What a wait for children comes to. -/
inductive Awaited where
  /-- There is no child to wait for. -/
  | nobody
  /-- Children run, and none has ended. -/
  | nothing
  | ended (process : Nat) (exit : Exit)
  /-- A noted signal came first. -/
  | interrupted

/-- What a descriptor leads to. -/
inductive Channel where
  | file (location : Location)
  | directory (location : Location)
  /-- A file that no location names any more. -/
  | nameless (index : Nat)
  | pipe (index : Nat)
  /-- Read by whoever started the machine. -/
  | outlet (index : Nat)
  | null
  | zeros
  | full
  deriving DecidableEq

/-- What a process asks of its machine. -/
inductive Request where
  /-- Lets time pass. -/
  | pause (micros : Nat)
  /-- The numbers of the process and of its parent. -/
  | identify
  | await (block : Bool)
  | kill (target signal : Nat)
  /-- Sets a reaction and yields the one before it. -/
  | react (signal : Nat) (reaction : Reaction)
  /-- The signals noted since the last time. -/
  | noted
  | openFile (path : Path) (access : Access)
  | makePipe
  | close (descriptor : Nat)
  | duplicate (source target : Nat)
  /-- Duplicates a descriptor to the first free number from `least` on, for this program only. -/
  | keep (source least : Nat)
  /-- Reads at most `count` bytes, and none after the byte `last`. -/
  | read (descriptor count : Nat) (last : Option UInt8)
  | write (descriptor : Nat) (bytes : ByteArray)
  /-- Makes bytes of a file that were read unread. -/
  | giveBack (descriptor count : Nat)
  | inspect (descriptor : Nat)
  | files
  | change (update : FileSystem → FileSystem)
  /-- Another program takes the place of this one. -/
  | become

/-- What the machine answers. -/
def Request.Answer : Request → Type
  | pause _ => Unit
  | identify => Nat × Nat
  | await _ => Awaited
  | kill _ _ => Bool
  | react _ _ => Reaction
  | noted => List Nat
  | openFile _ _ => Except FileError Nat
  | makePipe => Nat × Nat
  | close _ => Bool
  | duplicate _ _ => Bool
  | keep _ _ => Option Nat
  | read _ _ _ => Except FileError ByteArray
  | write _ _ => Except FileError Unit
  | giveBack _ _ => Unit
  | inspect _ => Option Channel
  | files => FileSystem
  | change _ => Unit
  | become => Unit

inductive Process where
  | exit (status : Nat)
  /-- Ends by a signal of its own. -/
  | die (signal : Nat)
  | ask (request : Request) (next : request.Answer → Process)
  /-- Starts a child and goes on with its number. -/
  | fork (child : Process) (next : Nat → Process)

/-- A part of a program: what a process does until it has a value or a failure and a new state,
given what it does after that. -/
def Routine (σ ε α : Type) : Type := σ → (Except ε α → σ → Process) → Process

namespace Routine

variable {σ ε α β : Type}

instance : Monad (Routine σ ε) where
  pure a := fun s next => next (.ok a) s
  bind x f := fun s next => x s fun r s =>
    match r with
    | .ok a => f a s next
    | .error e => next (.error e) s

instance : MonadExceptOf ε (Routine σ ε) where
  throw e := fun s next => next (.error e) s
  tryCatch x handle := fun s next => x s fun r s =>
    match r with
    | .ok a => next (.ok a) s
    | .error e => handle e s next

instance : MonadStateOf σ (Routine σ ε) where
  get := fun s next => next (.ok s) s
  set s := fun _ next => next (.ok ()) s
  modifyGet f := fun s next => let (a, s) := f s; next (.ok a) s

/-- One request. -/
def ask (r : Request) : Routine σ ε r.Answer := fun s next => .ask r fun a => next (.ok a) s

/-- What a routine comes to, also when it fails. -/
def attempt (x : Routine σ ε α) : Routine σ ε (Except ε α) := fun s next =>
  x s fun r s => next (.ok r) s

/-- The value of a result, or its failure. -/
def ofResult (r : Except ε α) : Routine σ ε α := fun s next => next r s

/-- Starts a child that has a copy of the state, and yields its number. -/
def fork (child : σ → Process) : Routine σ ε Nat := fun s next =>
  .fork (child s) fun n => next (.ok n) s

/-- Leaves everything that comes after and goes on as another process. -/
def goOn (p : Process) : Routine σ ε α := fun _ _ => p

/-- Lets a moment pass, so that nothing runs forever without being seen. -/
def tick : Routine σ ε Unit := ask (.pause 1)

/-- Repeats a step until it says that it is done. -/
def repeated (step : Routine σ ε Bool) : (fuel : Nat) → Routine σ ε Unit
  | 0 => pure ()
  | fuel + 1 => do
    tick
    if ← step then repeated step fuel

/-- More rounds than any run makes. -/
def endless : Nat := 1000000000

end Routine

end TensorParity.Machine
