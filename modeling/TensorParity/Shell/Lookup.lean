import TensorParity.Shell.Builtin.Options
import TensorParity.Shell.Parser

/-!
What the name of a command stands for: a function, a built-in command, or a program that is looked
for in the directories of the search path.
-/
namespace TensorParity.Shell

open Machine

/-- The search path of a shell that was not told another. -/
def defaultPath : String := "/usr/local/sbin:/usr/local/bin:/usr/sbin:/usr/bin:/sbin:/bin"

namespace Lookup

/-- The built-in commands that are not special. -/
def ordinary : List String :=
  ["[", "alias", "bg", "cd", "chdir", "command", "echo", "false", "fg", "getopts", "hash", "jobs",
    "kill", "printf", "pwd", "read", "test", "true", "type", "ulimit", "umask", "unalias", "wait"]

/-- The built-in commands that take assignments as arguments. -/
def assigning : List String := ["alias", "export", "local", "readonly"]

/-- Whether an error in a built-in command ends the shell. -/
def isSpecial (name : String) : Bool := name = "local" || name ∈ Parser.specialNames

def isBuiltin (name : String) : Bool := isSpecial name || name ∈ ordinary

/-- The paths at which a program may be. -/
def candidates (path name : String) : List String :=
  (path.splitOn ":").map fun directory => if directory = "" then name else directory ++ "/" ++ name

/-- The path of a program, or why none can be run. -/
def search (programs : Programs) (fs : FileSystem) (path name : String) :
    Except FileError String :=
  go .notFound (candidates path name)
where
  go (e : FileError) : List String → Except FileError String
    | [] => .error e
    | place :: rest =>
      match Kind.ofPath programs fs place with
      | .nothing => go e rest
      | .file _ true => .ok place
      | _ => go .denied rest

/-- The reason why a program was not run. -/
def reason (e : FileError) : String :=
  if e = .notFound ∨ e = .notDirectory then "not found" else e.description

/-- What the name of a command stands for. -/
inductive Found where
  | function (f : Function)
  | builtin (name : String)
  | program (path : String)
  | missing (error : FileError)

def pathOf (s : State) : String := (s.value? "PATH").getD defaultPath

/-- Finds a command. -/
def find (programs : Programs) (functions : Bool) (path? : Option String) (name : String) :
    Act Found := do
  let s ← get
  match if functions then s.function? name else none with
  | some f => return .function f
  | none =>
    if isBuiltin name then return .builtin name
    else if name.any (· = '/') then return .program name
    else
      match search programs (← Act.files) (path?.getD (pathOf s)) name with
      | .ok place => do
        modify fun s =>
          if s.known.any (·.1 = name) then s else { s with known := s.known ++ [(name, place)] }
        return .program place
      | .error e => return .missing e

/-- Describes a command as `type` does, or yields how it would be called. -/
def describe (programs : Programs) (told : Bool) (path? : Option String) (name : String) :
    Act Nat := do
  let s ← get
  let say (long short : String) : Act Nat :=
    Act.print (if told then s!"{name}{long}\n" else s!"{short}\n")
  if name ∈ keywords then say " is a shell keyword" name
  else
    match s.aliases.lookup name with
    | some value => say s!" is an alias for {value}" s!"alias {name}={inQuotes value}"
    | none =>
      match ← find programs true path? name with
      | .function _ => say " is a shell function" name
      | .builtin _ =>
        say (if isSpecial name then " is a special shell builtin" else " is a shell builtin") name
      | .program place =>
        if name.any (· = '/') then
          if (Kind.ofPath programs (← Act.files) name).isThere then
            say s!" is {place}" place
          else missing name
        else
          let tracked := s.known.any (·.1 = name)
          say ((if tracked then " is a tracked alias for " else " is ") ++ place) place
      | .missing _ => missing name
where
  missing (name : String) : Act Nat := do
    if told then
      let _ ← Act.print s!"{name}: not found\n"
    return 127

end Lookup

namespace Builtin

def typeEach (programs : Programs) (status : Nat) : List String → Act Nat
  | [] => return status
  | name :: rest => do
    let found ← Lookup.describe programs true none name
    typeEach programs (status ||| found) rest

def runType (programs : Programs) (words : List String) : Act Nat := do
  typeEach programs 0 (← noOptions words)

/-- What is left of `command` when it runs nothing. -/
def runCommand (programs : Programs) (words : List String) : Act Nat := do
  let (found, rest) ← options "pvV" words
  let path? := if found.any (·.1 = 'p') then some defaultPath else none
  match rest, ((found.map (·.1)).filter (· ≠ 'p')).getLast? with
  | name :: _, some letter => Lookup.describe programs (letter = 'V') path? name
  | _, _ => return 0

def hashEach (programs : Programs) (status : Nat) : List String → Act Nat
  | [] => return status
  | name :: rest => do
    modify fun s => { s with known := s.known.filter (·.1 ≠ name) }
    match ← Lookup.find programs true none name with
    | .missing e => do
      Act.warn s!"{name}: {Lookup.reason e}"
      hashEach programs 1 rest
    | _ => hashEach programs status rest

/-- The place of a name in a table of 31 rows. -/
def rowOf (name : String) : Nat :=
  let cs := name.toList
  ((cs.foldl (fun n c => n + c.toNat) ((cs.head?.map Char.toNat).getD 0 * 16)) % 32768) % 31

def runHash (programs : Programs) (words : List String) : Act Nat := do
  let (found, rest) ← options "r" words
  if !found.isEmpty then
    modify fun s => { s with known := [] }
    return 0
  else if rest.isEmpty then
    let sorted := (← get).known.mergeSort fun a b => rowOf a.1 ≤ rowOf b.1
    Act.print (String.join (sorted.map fun (_, place) => place ++ "\n"))
  else hashEach programs 0 rest

end Builtin

end TensorParity.Shell
