import TensorParity.Json.Printer
import TensorParity.Suite.Run

/-!
What a suite leaves behind: a log with one line for each scenario, and a summary.
-/
namespace TensorParity

/-- A file that a suite writes. -/
inductive SuiteFile where
  | log
  | report
  deriving DecidableEq

/-- What messages call the file. -/
def SuiteFile.name : SuiteFile → String
  | log => "scenario log"
  | report => "suite report"

/-- Why a file of a suite was not written. -/
inductive EmitError where
  | directory (file : SuiteFile) (path : Path) (error : FileError)
  | content (file : SuiteFile) (path : Path) (error : FileError)
  deriving DecidableEq

def EmitError.message : EmitError → String
  | directory file path error =>
    s!"failed to create {file.name} output dir {path.text}: {error.message}"
  | content file path error => s!"failed to write {file.name} {path.text}: {error.message}"

namespace SuiteReport

/-- One line for each scenario. -/
def logText (r : SuiteReport) : String :=
  String.join (r.scenarios.map fun s => s.log.toJson.text ++ "\n")

/-- The log entries that tell of a failure. -/
def failedEntries (r : SuiteReport) : Nat := (r.scenarios.filter (!·.log.passed)).length

def statusName (r : SuiteReport) : String := if r.allPassed then "ok" else "failed"

def scenarioSummary (s : ScenarioReport) : Json :=
  .record [
    ("name", .string s.name),
    ("family", .string s.family.name),
    ("seed", .ofNat s.seed.toNat),
    ("outcome", .string (CaseLog.outcomeLabel s.passed)),
    ("reason_code", .string s.code),
    ("duration_ms", .ofNat s.log.durationMillis),
    ("detail", (s.log.extra.find? "detail").getD .null)]

/-- The summary of a suite, with keys in ascending order. -/
def summary (r : SuiteReport) : Json :=
  Json.sorted (.record [
    ("suite", .string Suite.name),
    ("backend", .string r.backend),
    ("status", .string r.statusName),
    ("scenarios_total", .ofNat r.total),
    ("scenarios_passed", .ofNat r.passedCount),
    ("exit_code", .ofNat r.exitCode),
    ("scenarios", .array (r.scenarios.map scenarioSummary))])

/-- Writes a file and the directories above it that are missing. -/
def emit (file : SuiteFile) (p : Path) (text : String) : FileAction EmitError Unit := do
  if let some parent := p.namedParent? then
    FileAction.makeDirectories parent (.directory file parent)
  FileAction.change (·.write p text.toUTF8) (.content file p)

def emitLog (r : SuiteReport) (p : Path) : FileAction EmitError Unit :=
  emit .log p r.logText

def emitReport (r : SuiteReport) (p : Path) : FileAction EmitError Unit :=
  emit .report p r.summary.prettyText

end SuiteReport

end TensorParity
