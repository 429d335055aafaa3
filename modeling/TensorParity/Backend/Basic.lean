import TensorParity.Artifact.File

/-!
Back ends. A back end converts a portable artifact into two files, a structure and its weights, and
runs the converted model on inputs. The comparison does not know which back end ran.
-/
namespace TensorParity

/-- How a command ended. -/
inductive Ending where
  | exited (code : Nat)
  | signalled (signal : Nat)
  /-- The time limit passed first. -/
  | timedOut
  deriving DecidableEq

namespace Ending

def signalNames : List String := [
  "SIGHUP", "SIGINT", "SIGQUIT", "SIGILL", "SIGTRAP", "SIGABRT", "SIGBUS", "SIGFPE", "SIGKILL",
  "SIGUSR1", "SIGSEGV", "SIGUSR2", "SIGPIPE", "SIGALRM", "SIGTERM", "SIGSTKFLT", "SIGCHLD",
  "SIGCONT", "SIGSTOP", "SIGTSTP", "SIGTTIN", "SIGTTOU", "SIGURG", "SIGXCPU", "SIGXFSZ",
  "SIGVTALRM", "SIGPROF", "SIGWINCH", "SIGIO", "SIGPWR", "SIGSYS"]

/-- A signal with its name, if it has one. -/
def signalText (signal : Nat) : String :=
  match signalNames[signal - 1]? with
  | some name => s!"signal: {signal} ({name})"
  | none => s!"signal: {signal}"

def message : Ending → String
  | exited code => s!"exit status: {code}"
  | signalled signal => signalText signal
  | timedOut => "timed out"

end Ending

/-- An output stream of a command. -/
inductive OutputStream where
  | stdout
  | stderr
  deriving DecidableEq

def OutputStream.name : OutputStream → String
  | stdout => "stdout"
  | stderr => "stderr"

/-- Why running a command did not succeed. -/
inductive ProcessError where
  | spawn (program : String) (error : FileError)
  | stdinTooLarge (actual limit : Nat)
  | overflow (stream : OutputStream) (actual limit : Nat)
  | timedOut (millis : Nat)
  | failed (ending : Ending) (stderr : String)
  deriving DecidableEq

def ProcessError.message : ProcessError → String
  | spawn program error => s!"failed to spawn {program}: {error.message}"
  | stdinTooLarge actual limit => s!"stdin exceeds max bytes: actual={actual} max={limit}"
  | overflow stream actual limit =>
    s!"{stream.name} exceeds max bytes: actual={actual} max={limit}"
  | timedOut millis => s!"process timed out after {millis}ms"
  | failed ending stderr => s!"process exited with status {ending.message}: {stderr}"

inductive ConversionError where
  | process (error : ProcessError)
  | missingOutput (path : Path)
  | artifact (error : ArtifactError)
  /-- No file name to derive the names of the outputs from. -/
  | noStem (path : Path)
  | shapes (declared requested : List Shape)
  | file (path : Path) (error : FileError)
  deriving DecidableEq

def ConversionError.message : ConversionError → String
  | process error => s!"converter failed: {error.message}"
  | missingOutput path => s!"converter exited cleanly but did not produce {path.text}"
  | artifact error => s!"portable artifact rejected: {error.message}"
  | noStem path => s!"portable artifact rejected: artifact path {path.text} has no file stem"
  | shapes declared requested =>
    s!"requested input shapes {Shape.listText requested} do not match artifact inputs " ++
      Shape.listText declared
  | file path error => s!"io error at {path.text}: {error.message}"

/-- What the output of a runner lacks. -/
inductive OutputFault where
  | notText
  | blank
  | malformed (fault : Json.Fault) (line : String)
  deriving DecidableEq

/-- What is wrong with converted files. -/
inductive StructureFault where
  | tooLarge (path : Path) (actual limit : Nat)
  | malformed (fault : Json.Fault)
  | version (found : Nat)
  | blobLength (bytes : Nat)
  | shape (error : TensorError)
  | outside (name : String) (offset count available : Nat)
  | graph (error : GraphError)
  deriving DecidableEq

inductive InferenceError where
  | process (error : ProcessError)
  | output (fault : OutputFault)
  | structureFile (fault : StructureFault)
  | execution (error : ExecError)
  /-- A fault that was put in on purpose. -/
  | injected
  | file (path : Path) (error : FileError)
  deriving DecidableEq

/-- What a message quotes of foreign text is cut to this many bytes. -/
def diagnosticBytes : Nat := 256

def OutputFault.message : OutputFault → String
  | notText => "runner stdout was not utf8: invalid utf-8 sequence"
  | blank => "runner produced empty stdout"
  | malformed fault line => s!"{fault.message}; raw={Text.boundedInside diagnosticBytes line}"

def StructureFault.message : StructureFault → String
  | tooLarge path actual limit => s!"{path.text} exceeds max bytes: actual={actual} max={limit}"
  | malformed fault => Text.boundedInside diagnosticBytes fault.message
  | version found => s!"unsupported loopback format version {found}"
  | blobLength bytes => s!"weights blob length {bytes} is not a multiple of 4"
  | shape error => error.message
  | outside name offset count available =>
    s!"weight '{name}' [{offset}, +{count}) lies outside the {available}-element blob"
  | graph error => error.message

def InferenceError.message : InferenceError → String
  | process error => s!"target runner failed: {error.message}"
  | output fault => s!"target output is malformed: {fault.message}"
  | structureFile fault => s!"converted artifact could not be loaded: {fault.message}"
  | execution error => s!"target execution failed: {error.message}"
  | injected => "target execution failed: injected"
  | file path error => s!"io error at {path.text}: {error.message}"

/-- The two files a conversion yields. -/
structure Converted where
  structurePath : Path
  weightsPath : Path
  deriving DecidableEq

def Converted.paths (c : Converted) : List Path := [c.structurePath, c.weightsPath]

structure Backend where
  name : String
  /-- Converts the artifact at a path for these input shapes. -/
  convert : Path → List Shape → FileAction ConversionError Converted
  /-- Runs a converted model. Outputs come in declared order. -/
  infer : Converted → List (Tensor Float) → FileAction InferenceError OutputTuple

/-- The argument that tells a converter the input shapes. -/
def inputShapeArgument (shapes : List Shape) : String :=
  let group (s : Shape) : String := "[" ++ ",".intercalate (s.map toString) ++ "]"
  "inputshape=" ++ ",".intercalate (shapes.map group)

/-- The files that a conversion of an artifact yields in a directory. -/
def convertedPaths (workDir artifact : Path) (structureSuffix weightsSuffix : String) :
    Except ConversionError Converted :=
  match artifact.fileStem? with
  | none => .error (.noStem artifact)
  | some stem =>
    .ok ⟨workDir.join (stem ++ "." ++ structureSuffix), workDir.join (stem ++ "." ++ weightsSuffix)⟩

end TensorParity
