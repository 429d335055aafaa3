import TensorParity.Backend.Process
import TensorParity.Machine.Run
import TensorParity.Shell.Start
import TensorParity.Tool.Catenate
import TensorParity.Tool.Clock
import TensorParity.Tool.Excerpt
import TensorParity.Tool.Files
import TensorParity.Tool.Letters
import TensorParity.Tool.Lines
import TensorParity.Tool.Name
import TensorParity.Tool.Say
import TensorParity.Tool.Sed.Run

/-!
A host that is a machine with a shell and the tools that scripts call, each by its name. It runs a
command as a function of the files, so a run with external commands has a value like every other
run. Its clock moves with what its processes do.
-/
namespace TensorParity.Tool

/-- The tools that a system has. -/
def table : List (String × Act Unit) :=
  [("true", return ()), ("false", Act.setStatus 1),
    ("cat", Cat.main), ("tee", Tee.main), ("head", Head.main), ("tail", Tail.main),
    ("basename", Basename.main), ("dirname", Dirname.main),
    ("echo", Echo.main), ("printf", Printf.main), ("yes", Yes.main), ("tr", Letters.main),
    ("mkdir", MakeDirectory.main), ("rmdir", RemoveDirectory.main), ("rm", Remove.main),
    ("touch", Touch.main), ("cp", Transfer.main .copy), ("mv", Transfer.main .move),
    ("ln", Transfer.main .link), ("chmod", Permissions.main), ("ls", Listing.main),
    ("sleep", Sleep.main), ("env", Env.main), ("printenv", PrintEnv.main),
    ("timeout", Timeout.main), ("nohup", Nohup.main), ("kill", Kill.main),
    ("wc", Count.main), ("cut", Cut.main), ("sort", Order.main), ("uniq", Uniq.main),
    ("tac", Turned.tac), ("rev", Turned.rev), ("seq", Sequence.main), ("sed", Sed.main)]

def find? (name : String) : Option (Act Unit) := table.lookup name

end TensorParity.Tool

namespace TensorParity

open Machine

namespace Machine

/-- The programs of a system, of which at most so many start one another. -/
def programs : (depth : Nat) → Programs
  | 0 => fun _ => none
  | depth + 1 => fun name =>
    if name = "sh" ∨ name = "dash" then some (Shell.program (programs depth))
    else (Tool.find? name).map fun tool => Tool.run tool (programs depth)

/-- The programs that the host starts, and those that they start. -/
def allPrograms : Programs := programs 100000

end Machine

namespace Invocation

/-- The first process of a machine, or why there is none. -/
def process (i : Invocation) (environment : List (String × String)) (fs : FileSystem) :
    Except FileError Process :=
  let call : Call :=
    { name := Octet.ofText i.program, arguments := i.arguments.map Octet.ofText, environment }
  if '/' ∈ i.program.toList then
    match Launch.ofPath allPrograms fs call.name with
    | .program run => .ok (run call)
    | .script interpreter argument =>
      match Launch.ofPath allPrograms fs interpreter with
      | .program run =>
        .ok (run
          { call with
            name := interpreter
            arguments := argument.toList ++ call.name :: call.arguments })
      | _ => .error .notFound
    | .plain => .error .denied
    | .refused e => .error e
  else if i.program = "." ∨ i.program = ".." then .error .denied
  else
    match allPrograms call.name with
    | some run => .ok (run call)
    | none => .error .notFound

/-- The machine on which a command starts, and its first process. What the command reads is in a
pipe, and its two output streams leave the machine. -/
def start (i : Invocation) (fs : FileSystem) (program : Process) : State × Task :=
  let input : Channel := if i.stdin.isSome then .pipe 0 else .null
  let m : State :=
    { files := fs
      descriptions := #[State.opened input .read, State.opened (.outlet 0) .append,
        State.opened (.outlet 1) .append]
      pipes := #[{ bytes := i.stdin.getD .empty }]
      outlets := #[{ limit := Command.maxStdoutBytes }, { limit := Command.maxStderrBytes }]
      next := fs.process + 2 }
  let t : Task :=
    { number := fs.process + 1, parent := fs.process, program, time := 0
      slots := [0, 1, 2].map fun n => { descriptor := n, description := n }
      directory := fs.current }
  (m, t)

end Invocation

/-- How a run of a machine ended. -/
def Machine.Result.ending (r : Machine.Result) : Ending :=
  match r.exit with
  | some (.status code) => .exited code
  | some (.signal number) => .signalled number
  | none => .timedOut

namespace Host

/-- The most requests that one command may make. -/
def maxRequests : Nat := 60000000

/-- Starts a command in its directory and runs it to its end. -/
def startOn (environment : List (String × String)) (i : Invocation) (fs : FileSystem) :
    Except FileError (Completion × FileSystem) := do
  if (i.program :: i.arguments).any fun a => '\x00' ∈ a.toList then throw .zeroInArgument
  let inside ←
    match i.directory with
    | none => pure fs
    | some p => do
      match ← fs.locate p with
      | (location, .directory) => pure { fs with current := location }
      | (_, .file _) => throw .notDirectory
  let program ← i.process environment inside
  let (m, t) := i.start inside program
  let limit := i.limitMillis.map fun n => (n + 1) * 1000
  let result :=
    Machine.run t.number limit maxRequests { left := maxRequests } { m with others := [t] }
  let kept (index : Nat) : List ByteArray := (result.outlets[index]?).toList.map (·.bytes)
  return (⟨kept 0, kept 1, result.ending⟩, { result.files with current := fs.current })

/-- A machine whose programs are told these variables. -/
def machine (environment : List (String × String)) : Host := ⟨startOn environment⟩

end Host

end TensorParity
