import TensorParity.Machine.Program
import TensorParity.Shell.Command
import TensorParity.Text.Integer

/-!
What a shell remembers, and how it asks its machine for things. Where an action ends before its time,
the reason travels as a failure: a loop or a function is left, or the shell ends.
-/
namespace TensorParity.Shell

open Machine

structure Variable where
  name : String
  /-- A variable without a value may still be exported or fixed. -/
  value : Option String
  exported : Bool := false
  fixed : Bool := false

structure Function where
  name : String
  line : Nat
  body : Command

/-- A command that runs beside the shell. -/
structure Job where
  number : Nat
  processes : List (Nat × Option Exit)
  /-- Whether `jobs` has told that it changed. -/
  told : Bool := false

/-- Where the reading of options stands. -/
structure OptionPlace where
  index : Nat := 1
  /-- The characters of the current word that are still to be read. -/
  rest : Option String := none

/-- The files and parameters of a shell, and its settings. -/
structure State where
  /-- What it calls itself in complaints. -/
  name : String
  process : Nat
  parent : Nat
  parameters : List String := []
  place : OptionPlace := {}
  table : List Variable := []
  functions : List Function := []
  aliases : List (String × String) := []
  /-- The letters of the settings that are on. -/
  settings : List Char := []
  /-- What is done when a signal comes; zero is the end of the shell. -/
  traps : List (Nat × String) := []
  /-- Signals that were ignored from the beginning, and those that were not. -/
  deaf : List Nat := []
  heard : List Nat := []
  /-- Signals that came and were not looked at yet. -/
  arrived : List Nat := []
  status : Nat := 0
  /-- How the last command in a word ended. -/
  inner : Nat := 0
  /-- What the shell ends with, if it ends without being told. -/
  saved : Option Nat := none
  /-- The line of the current command, as it is told and as complaints name it. -/
  line : Nat := 1
  faultLine : Nat := 0
  functionLine : Nat := 0
  /-- The built-in command or the file that complaints name. -/
  command : Option String := none
  loops : Nat := 0
  /-- Whether it was started by another shell to run a part of its script. -/
  nested : Bool := false
  /-- Whether a trace of a command is being put together. -/
  tracing : Bool := false
  jobs : List Job := []
  last : Option Nat := none
  /-- Variables as they were before they became local, for each function that runs; none for one that
  was not there. -/
  locals : List (List (String × Option Variable)) := []
  settingsBefore : List (List Char) := []
  documents : List (Nat × Word) := []
  /-- How many texts among the lines were named so far. -/
  named : Nat := 0
  /-- The permissions that new files do not get. -/
  mask : Nat := 18
  /-- The path of the current directory. -/
  directory : String := "/"
  limits : List (Char × Nat) := []
  /-- The programs that were found, and where. -/
  known : List (String × String) := []

/-- Why an action ends before its time. -/
inductive Stop where
  /-- The shell was told to end. -/
  | exit
  /-- The shell ends with the status that it has. -/
  | finish
  /-- Something went wrong that ends a shell which is not asked for commands by a person. -/
  | fault
  /-- So many loops are left. -/
  | leave (loops : Nat)
  /-- So many loops go on with their next round, or are left but for the last. -/
  | next (loops : Nat)
  /-- A function or a file is left; `told` says that its status was given. -/
  | back (told : Bool)
  deriving DecidableEq

abbrev Act := Routine State Stop

namespace State

def isOn (s : State) (letter : Char) : Bool := letter ∈ s.settings

def entry? (s : State) (name : String) : Option Variable := s.table.find? (·.name = name)

/-- The value of a variable. -/
def value? (s : State) (name : String) : Option String :=
  if name = "LINENO" then some (toString s.line)
  else (s.entry? name).bind (·.value)

def setting (s : State) (letter : Char) (on : Bool) : State :=
  { s with
    settings :=
      if !on then s.settings.filter (· ≠ letter)
      else if letter ∈ s.settings then s.settings
      else letter :: s.settings }

/-- Puts a variable in place of the one of its name. -/
def put (s : State) (v : Variable) : State :=
  { s with table := v :: s.table.filter (·.name ≠ v.name) }

def drop (s : State) (name : String) : State :=
  { s with table := s.table.filter (·.name ≠ name) }

def function? (s : State) (name : String) : Option Function :=
  s.functions.find? (·.name = name)

def trap? (s : State) (signal : Nat) : Option String := s.traps.lookup signal

/-- Whether it is known that a signal was not ignored from the beginning. -/
def wasHeard (s : State) (signal : Nat) : Bool := signal ∈ s.heard

/-- Whether anything is to be done when the shell ends or a signal comes. -/
def hasTraps (s : State) : Bool := s.traps.any fun (_, action) => action ≠ ""

/-- The separators of fields. -/
def separators (s : State) : List Char :=
  match s.value? "IFS" with
  | some text => text.toList
  | none => [' ', '\t', '\n']

/-- What other programs are told. -/
def environment (s : State) : List (String × String) :=
  s.table.filterMap fun v => if v.exported then v.value.map (v.name, ·) else none

end State

namespace Act

open Routine (ask)

/-- Writes octet text to a descriptor; yields whether that went well. -/
def write (descriptor : Nat) (text : String) : Act Bool := do
  if text = "" then return true
  return (← ask (.write descriptor (Octet.toBytes text))).isOk

def complaint (s : State) (text : String) : String :=
  let place := s!"{s.name}: {s.faultLine}: "
  match s.command with
  | some command => s!"{place}{command}: {text}\n"
  | none => s!"{place}{text}\n"

/-- Complains and goes on. -/
def warn (text : String) : Act Unit := do
  let _ ← write 2 (complaint (← get) text)

def setStatus (status : Nat) : Act Unit := modify fun s => { s with status }

/-- Complains and gives up. -/
def fail {α : Type} (text : String) (status : Nat := 2) : Act α := do
  warn text
  setStatus status
  throw .fault

/-- Prints as a built-in command does, and yields its status. -/
def print (text : String) : Act Nat := do
  if ← write 1 text then return 0
  else
    let name := ((← get).command.getD "")
    warn s!"{name}: I/O error"
    return 1

def files : Act FileSystem := ask .files

/-- Gives a variable a value. -/
def assign (name value : String) (exported : Bool := false) : Act Unit := do
  let s ← get
  if !isName name then fail s!"{name}: bad variable name"
  let exported := exported || s.isOn 'a'
  match s.entry? name with
  | some v =>
    if v.fixed then fail s!"{name}: is read only"
    set (s.put { v with value := some value, exported := v.exported || exported })
  | none => set (s.put { name, value := some value, exported })
  if name = "OPTIND" then
    let index := ((Text.natOf 10 (value.toList.takeWhile Char.isDigit)))
    modify fun s => { s with place := { index := max index 1 } }

/-- Forgets a variable. -/
def unset (name : String) : Act Unit := do
  let s ← get
  match s.entry? name with
  | some v =>
    if v.fixed then fail s!"{name}: is read only"
    set (s.drop name)
  | none => pure ()

/-- A number that an argument must be. -/
def number (text : String) : Act Nat := do
  match Text.integer? 10 true text with
  | some n => if 0 ≤ n ∧ n ≤ 2147483647 then return n.toNat else fail s!"Illegal number: {text}"
  | none => fail s!"Illegal number: {text}"

end Act

end TensorParity.Shell
