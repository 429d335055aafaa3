import TensorParity.Backend.Basic
import TensorParity.Text.Blank
import TensorParity.Text.Utf8

/-!
A back end of two external commands. The converter is run in the work directory with the artifact
and the input shapes, and must leave both files there. The runner is given both files and the inputs
on its standard input, and prints the outputs as its last line. What the commands do is up to the
host: any function from files to files.
-/
namespace TensorParity

open Json

/-- What a host is asked to run. -/
structure Invocation where
  program : String
  arguments : List String
  /-- Where it runs, unless in the current directory. -/
  directory : Option Path
  stdin : Option ByteArray
  limitMillis : Option Nat

/-- What came of a command. Streams come in the pieces in which they were read. -/
structure Completion where
  stdout : List ByteArray
  stderr : List ByteArray
  ending : Ending

/-- Runs commands. A command that cannot be started leaves the files as they are. -/
structure Host where
  run : Invocation → FileSystem → Except FileError (Completion × FileSystem)

/-- What is kept of a stream with a size limit. -/
structure Capture where
  kept : ByteArray
  total : Nat
  overflowed : Bool

namespace Capture

def empty : Capture := ⟨.empty, 0, false⟩

/-- Takes in one piece of the stream. The count stops at the largest word. -/
def absorb (limit : Nat) (c : Capture) (piece : ByteArray) : Capture :=
  let total := min (c.total + piece.size) (Shape.wordLimit - 1)
  { kept := c.kept ++ piece.extract 0 (min piece.size (limit - c.kept.size))
    total
    overflowed := c.overflowed || limit < total }

def ofPieces (limit : Nat) (pieces : List ByteArray) : Capture :=
  pieces.foldl (absorb limit) empty

/-- A stream that stayed within its limit. -/
def check (c : Capture) (stream : OutputStream) (limit : Nat) : Except ProcessError Unit :=
  if limit < c.total then .error (.overflow stream c.total limit) else .ok ()

end Capture

/-- A program and its fixed arguments. The arguments of one call follow them. -/
structure Command where
  program : String
  arguments : List String := []
  directory : Option Path := none
  /-- No limit waits until the command ends. -/
  limitMillis : Option Nat := none
  deriving DecidableEq

namespace Command

def maxStdinBytes : Nat := 16 * 1048576

def maxStdoutBytes : Nat := 16 * 1048576

def maxStderrBytes : Nat := 262144

/-- What a command reads must stay within its limit. -/
def checkStdin : Option ByteArray → Except ProcessError Unit
  | none => .ok ()
  | some body =>
    if maxStdinBytes < body.size then .error (.stdinTooLarge body.size maxStdinBytes) else .ok ()

/-- Both streams must have stayed within their limits. -/
def checkStreams (stdout stderr : Capture) : Except ProcessError Unit := do
  stdout.check .stdout maxStdoutBytes
  stderr.check .stderr maxStderrBytes

/-- Judges a completed command: whether its time passed, then its streams, then how it ended. -/
def judge (limitMillis : Option Nat) (c : Completion) : Except ProcessError ByteArray := do
  let stdout := Capture.ofPieces maxStdoutBytes c.stdout
  let stderr := Capture.ofPieces maxStderrBytes c.stderr
  match c.ending with
  | .timedOut => .error (.timedOut (limitMillis.getD 0))
  | .exited 0 =>
    checkStreams stdout stderr
    return stdout.kept
  | ending =>
    checkStreams stdout stderr
    let text := Text.trim (Text.lossy stderr.kept.toList)
    .error (.failed ending (Text.boundedInside diagnosticBytes text))

/-- What a host is asked to run for a command. -/
def invocation (command : Command) (extra : List String) (stdin : Option ByteArray) : Invocation :=
  ⟨command.program, command.arguments ++ extra, command.directory, stdin, command.limitMillis⟩

/-- Runs a command and yields what it printed, if it ended well. -/
def run (host : Host) (command : Command) (extra : List String) (stdin : Option ByteArray) :
    FileAction ProcessError ByteArray := do
  checkStdin stdin
  match host.run (command.invocation extra stdin) (← get) with
  | .error e => throw (.spawn command.program e)
  | .ok (completion, fs) => do
    set fs
    FileAction.ofResult (judge command.limitMillis completion) id

end Command

/-- The commands of a back end, and where and under which names the converter leaves its files. -/
structure ProcessSettings where
  converter : Command
  runner : Command
  workDir : Path
  structureSuffix : String := "ncnn.param"
  weightsSuffix : String := "ncnn.bin"
  deriving DecidableEq

namespace ProcessSettings

/-- What a runner reads. -/
def request (inputs : List (Tensor Float)) : Json :=
  .record [("inputs", OutputTuple.toJson inputs)]

/-- The fields of a runner's answer read so far. -/
structure Slots where
  outputs : Option OutputTuple := none

def Slots.field (s : Slots) (name : String) (value : Json) : Decoded Slots :=
  match name with
  | "outputs" => return { s with outputs := ← fill name s.outputs OutputTuple.ofJson value }
  | _ => throw (.unknownField name)

/-- What a runner prints. -/
def response (j : Json) : Decoded OutputTuple := do
  let s ← walkRecord ["outputs"] Slots.field {} j
  required "outputs" s.outputs

/-- The outputs that a runner's last line holds; earlier lines are passed over. -/
def readOutput (stdout : ByteArray) : Except OutputFault OutputTuple := do
  let some text := String.fromUTF8? stdout | .error .notText
  let some line := Text.lastLine? text | .error .blank
  (Json.decode response (Document.ofString line)).mapError (.malformed · line)

/-- The first of the files that is not there is missing. -/
def checkOutputs (fs : FileSystem) : List Path → Except ConversionError Unit
  | [] => .ok ()
  | p :: rest => if fs.isFile p then checkOutputs fs rest else .error (.missingOutput p)

def convert (host : Host) (s : ProcessSettings) (artifact : Path) (shapes : List Shape) :
    FileAction ConversionError Converted := do
  FileAction.makeDirectories s.workDir (.file s.workDir)
  let absolute ← FileAction.look (·.canonical artifact) (.file artifact)
  let c ← convertedPaths s.workDir artifact s.structureSuffix s.weightsSuffix
  for stale in c.paths do
    FileAction.attempt (·.remove stale)
  let _ ← (Command.run host { s.converter with directory := some s.workDir }
    [absolute.text, inputShapeArgument shapes] none).adapt .process
  checkOutputs (← get) c.paths
  return c

def infer (host : Host) (s : ProcessSettings) (c : Converted) (inputs : List (Tensor Float)) :
    FileAction InferenceError OutputTuple := do
  let stdout ← (Command.run host s.runner [c.structurePath.text, c.weightsPath.text]
    (some (request inputs).text.toUTF8)).adapt .process
  FileAction.ofResult (readOutput stdout) .output

end ProcessSettings

def Backend.process (host : Host) (s : ProcessSettings) : Backend :=
  ⟨"process", ProcessSettings.convert host s, ProcessSettings.infer host s⟩

end TensorParity
