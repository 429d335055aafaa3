import TensorParity.Shell.Run

/-!
A shell as a program: where it takes its commands from, and what it knows when it begins.
-/
namespace TensorParity.Shell

open Machine
open Machine.Routine (ask attempt)

namespace Start

/-- The words that a shell is started with, as far as they were read. -/
structure Arguments where
  /-- Whether the first word after the options is the script. -/
  script : Bool := false
  rest : List String

/-- Reads the options of a shell. -/
def readOptions : (fuel : Nat) → Arguments → Act Arguments
  | 0, a => return a
  | fuel + 1, a =>
    match a.rest with
    | [] => return a
    | word :: rest =>
      match word.toList with
      | ['-'] => return { a with rest }
      | ['-', '-'] => return { a with rest }
      | '-' :: letters => do readOptions fuel (← each true letters { a with rest })
      | '+' :: letters => do readOptions fuel (← each false letters { a with rest })
      | _ => return a
where
  /-- The letters of one word. -/
  each (on : Bool) : List Char → Arguments → Act Arguments
    | [], a => return a
    | 'c' :: letters, a => each on letters { a with script := true }
    | 'l' :: letters, a => each on letters a
    | 'o' :: letters, a => do
      match a.rest with
      | name :: rest => do
        Builtin.changeNamed name on
        each on letters { a with rest }
      | [] => do
        let s ← get
        let _ ← Act.print (if on then Builtin.settingsText s else Builtin.settingsCommands s)
        each on letters a
    | letter :: letters, a => do
      Builtin.changeSetting letter on
      each on letters a

/-- The variables that every shell has. -/
def usual (parent : Nat) : List Variable :=
  [{ name := "IFS", value := some " \t\n" },
    { name := "OPTIND", value := some "1" },
    { name := "PATH", value := some defaultPath },
    { name := "PPID", value := some (toString parent) },
    { name := "PS1", value := some "# " },
    { name := "PS2", value := some "> " },
    { name := "PS4", value := some "+ " }]

/-- The state of a shell before it has read its options. -/
def initial (call : Call) (process parent : Nat) (directory : String) : State :=
  let s : State :=
    { name := call.name, process, parent, table := usual parent, directory }
  let s := call.environment.foldl (fun s (name, value) =>
    if isName name ∧ name ≠ "PPID" ∧ name ≠ "OPTIND" ∧ name ≠ "IFS" then
      s.put { name, value := some value, exported := true }
    else s) s
  s.put { name := "PWD", value := some directory, exported := true }

/-- Runs a script that stands in a file. -/
def runScript (programs : Programs) (file : String) : Act Unit := do
  match ← ask (.openFile ⟨Octet.toText file⟩ .read) with
  | .error e => Act.fail (Redirection.refusal .read file e)
  | .ok n => do
    let text := Octet.ofBytes (← readAll n Routine.endless .empty)
    let _ ← ask (.close n)
    modify fun s => { s with name := file, faultLine := 0 }
    let _ ← Run.runReading programs Routine.endless {} false false { rest := text.toList }

/-- Reads the options and runs what they ask for. -/
def whole (programs : Programs) (arguments : List String) : Act Unit := do
  let a ← readOptions (arguments.length + 1) { rest := arguments }
  let settle (name? : Option String) (parameters : List String) : Act Unit :=
    modify fun s => { s with name := name?.getD s.name, parameters }
  let input : Act Unit := do
    let _ ← Run.runReading programs Routine.endless {} true false { rest := [] }
  let fromInput := (← get).isOn 's' || a.rest.isEmpty
  if a.script then
    match a.rest with
    | [] => Act.fail "-c requires an argument"
    | text :: rest => do
      settle rest.head? (rest.drop 1)
      let s := (← get).isOn 's'
      let _ ← Run.runText programs Routine.endless { final := !s } text
      if s then input
  else if fromInput then
    modify fun s => s.setting 's' true
    settle none a.rest
    input
  else
    settle none (a.rest.drop 1)
    runScript programs (a.rest.headD "")

end Start

/-- A shell, given the programs that it can run. -/
def program (programs : Programs) (call : Call) : Process :=
  .ask .identify fun (process, parent) =>
    .ask .files fun fs =>
      let directory := Octet.ofText ("/" ++ "/".intercalate fs.current)
      (Start.whole programs call.arguments) (Start.initial call process parent directory)
        fun r s => Run.endShell programs Routine.endless r s fun _ s => .exit s.status

end TensorParity.Shell
