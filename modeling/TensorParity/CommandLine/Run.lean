import TensorParity.CommandLine.Options
import TensorParity.File.System
import TensorParity.Scenario.Builtin
import TensorParity.Suite.Report
import TensorParity.Text.Quoted

/-!
The program: arguments, environment and files in, files, two output texts and an exit code out.
Whoever hands files to a run leaves out nothing that its arguments, its environment or the names of
its scenarios point to.
-/
namespace TensorParity.CommandLine

/-- What the caller gets to see. -/
structure Outcome where
  code : Nat
  stdout : String
  stderr : String
  deriving DecidableEq

inductive CommandError where
  | usage (error : UsageError)
  | settings (error : SettingsError)
  | suite (error : SuiteError)
  | emit (error : EmitError)
  deriving DecidableEq

def CommandError.message : CommandError → String
  | usage error => error.message
  | settings error => error.message
  | suite error => error.message
  | emit error => error.message

/-- The settings of the environment, changed by the options. -/
def settings (env : Environment) (now : Nat) (o : Options) : Settings :=
  let base := Settings.ofEnvironment env
  { base with
    workDir := o.workDir.getD base.workDir
    keepArtifacts := o.keepArtifacts
    timestampMillis := now }

def scenarioEntry (s : Scenario) : Json :=
  .record [
    ("name", .string s.name),
    ("family", .string s.family.name),
    ("seed", .ofNat s.seed.toNat),
    ("axes", .array (s.axes.map fun axis => .string axis.name))]

/-- What the program has, for those who ask for a list. -/
def scenarioList (r : Registry) : Json :=
  Json.sorted (.array (r.scenarios.map scenarioEntry))

def failureEntry (s : ScenarioReport) : Json :=
  .record [("name", .string s.name), ("reason_code", .string s.code)]

/-- What the program prints unless it is asked for the whole report. -/
def briefSummary (r : SuiteReport) (output : Path) : Json :=
  Json.sorted (.record [
    ("status", .string r.statusName),
    ("backend", .string r.backend),
    ("output_path", .string output.text),
    ("log_entries", .ofNat r.total),
    ("failed_entries", .ofNat r.failedEntries),
    ("scenarios_total", .ofNat r.total),
    ("scenarios_passed", .ofNat r.passedCount),
    ("failed", .array (r.failures.map failureEntry))])

/-- A value and a line end. -/
def printed (j : Json) : String := j.prettyText ++ "\n"

/-- Runs the suite, writes its files, and yields what to print. -/
def runSuite (host : Host) (r : Registry) (s : Settings) (o : Options) :
    FileAction CommandError Outcome := do
  let kind ← FileAction.ofResult (BackendKind.parse o.backend) .settings
  let backend ← FileAction.ofResult (s.backend host kind) .settings
  let report ← (r.run o.scenarios backend s).adapt .suite
  let output := o.output.getD (s.workDir.join "scenarios.jsonl")
  (report.emitLog output).adapt .emit
  if let some path := o.report then
    (report.emitReport path).adapt .emit
  let summary := if o.fullReport then report.summary else briefSummary report output
  return ⟨report.exitCode, printed summary, ""⟩

/-- What the arguments ask for. -/
def perform (host : Host) (r : Registry) (env : Environment) (now : Nat)
    (arguments : List String) : FileAction CommandError Outcome := do
  let o ← FileAction.ofResult (Options.parse arguments) .usage
  if o.list then return ⟨0, printed (scenarioList r), ""⟩
  else runSuite host r (settings env now o) o

/-- The outcome of a run that was refused. -/
def refused (e : CommandError) : Outcome :=
  ⟨1, "", "Error: " ++ Text.quoted e.message ++ "\n"⟩

/-- Runs the program on its built-in scenarios. -/
def run (host : Host) (env : Environment) (now : Nat) (arguments : List String) :
    StateM FileSystem Outcome := do
  match ← (perform host Registry.builtin env now arguments).run with
  | .ok outcome => return outcome
  | .error e => return refused e

/-- The program and the arguments of a command, each of which may be a path. -/
def commandPaths : Option Command → List Path
  | some c => (c.program :: c.arguments).map Path.mk
  | none => []

/-- The files of a scenario in a work directory, under the suffixes of either back end. -/
def scenarioPaths (s : Settings) (scenario : Scenario) : List Path :=
  let artifact := scenario.artifactPath s.workDir
  let converted (structureSuffix weightsSuffix : String) : List Path :=
    match convertedPaths s.workDir artifact structureSuffix weightsSuffix with
    | .ok c => c.paths
    | .error _ => []
  artifact :: converted s.structureSuffix s.weightsSuffix
    ++ converted Loopback.structureSuffix Loopback.weightsSuffix

/-- All paths that a run with these arguments names. -/
def footprint (r : Registry) (env : Environment) (arguments : List String) : List Path :=
  let o := (Options.parse arguments).toOption.getD {}
  let s := settings env 0 o
  [s.workDir] ++ o.output.toList ++ o.report.toList ++ commandPaths s.converter
    ++ commandPaths s.runner ++ r.scenarios.flatMap (scenarioPaths s)

/-- The locations that the paths of a run lead through, seen from the current directory. -/
def footprintPlaces (current : Location) (r : Registry) (env : Environment)
    (arguments : List String) : List Location :=
  ((footprint r env arguments).flatMap (FileSystem.places current)).eraseDups

end TensorParity.CommandLine
