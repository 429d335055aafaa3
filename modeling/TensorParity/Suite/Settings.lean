import TensorParity.Backend.Loopback
import TensorParity.Backend.Process
import TensorParity.Comparison.Tolerance

/-!
Settings of a run: where it works, which commands it uses, and how close outputs must be. What is
not set in the environment has a default.
-/
namespace TensorParity

/-- Looks up a variable of the environment. -/
abbrev Environment := String → Option String

inductive BackendKind where
  | process
  | loopback
  deriving DecidableEq

/-- Why no back end can be had. -/
inductive SettingsError where
  | unknownBackend (text : String)
  | noConverter
  | noRunner
  deriving DecidableEq

def SettingsError.message : SettingsError → String
  | unknownBackend text => s!"unsupported backend '{text}'; expected process|loopback"
  | noConverter => "process backend needs a converter; set CP_CONVERTER"
  | noRunner => "process backend needs a target runner; set CP_TARGET_RUNNER"

def BackendKind.parse (text : String) : Except SettingsError BackendKind :=
  match text with
  | "process" => .ok .process
  | "loopback" => .ok .loopback
  | text => .error (.unknownBackend text)

structure Settings where
  workDir : Path := ⟨"artifacts/conversion_equivalence/work"⟩
  tolerance : Tolerance := {}
  converter : Option Command := none
  runner : Option Command := none
  structureSuffix : String := "ncnn.param"
  weightsSuffix : String := "ncnn.bin"
  /-- How long a conversion may take; without a limit it may take forever. -/
  converterLimitMillis : Option Nat := none
  keepArtifacts : Bool := false
  /-- The time that log entries carry. -/
  timestampMillis : Nat := 0
  deriving DecidableEq

namespace Settings

/-- A program and its arguments, separated by white space. -/
def commandOfText (text : String) : Option Command :=
  match Text.words text with
  | [] => none
  | program :: arguments => some { program, arguments }

/-- A number of one word in decimal digits, perhaps after a plus sign. White space around it does
not count. -/
def millisOfText (text : String) : Option Nat :=
  let digits :=
    match Text.trimList text.toList with
    | '+' :: digits => digits
    | digits => digits
  if digits.isEmpty || !digits.all Char.isDigit then none
  else
    let n := Nat.ofDigitChars 10 digits 0
    if n < Shape.wordLimit then some n else none

/-- The settings that an environment asks for. -/
def ofEnvironment (env : Environment) : Settings :=
  let defaults : Settings := {}
  { defaults with
    workDir := ((env "CP_WORK_DIR").map Path.mk).getD defaults.workDir
    converter := (env "CP_CONVERTER").bind commandOfText
    runner := (env "CP_TARGET_RUNNER").bind commandOfText
    converterLimitMillis := (env "CP_CONVERTER_TIMEOUT_MS").bind millisOfText }

/-- The back end of external commands. A missing converter is found before a missing runner. -/
def processSettings (s : Settings) : Except SettingsError ProcessSettings := do
  let some converter := s.converter | .error .noConverter
  let some runner := s.runner | .error .noRunner
  return {
    converter := { converter with limitMillis := s.converterLimitMillis }
    runner
    workDir := s.workDir
    structureSuffix := s.structureSuffix
    weightsSuffix := s.weightsSuffix }

def backend (host : Host) (s : Settings) : BackendKind → Except SettingsError Backend
  | .process => return Backend.process host (← s.processSettings)
  | .loopback => .ok (Backend.loopback s.workDir)

end Settings

end TensorParity
