import TensorParity.Backend.Basic
import TensorParity.Comparison.Verdict
import TensorParity.Fingerprint
import TensorParity.Model.Run
import TensorParity.Report.CaseLog
import TensorParity.Scenario.Registry
import TensorParity.Suite.Settings

/-!
Runs scenarios. One run makes the model, runs it for reference, captures it in an artifact, has the
artifact converted, runs the result and compares, in this order; it stops at the first stage that
fails and never stops the suite. What it learned until then stands in its log entry.
-/
namespace TensorParity

/-- The name of the suite in logs and reports. -/
def Suite.name : String := "conversion_equivalence"

/-- The stage at which a run stopped, and why. -/
inductive ScenarioFailure where
  | setup (error : SetupError)
  | reference (error : ExecError)
  | capture (error : ArtifactError)
  | conversion (error : ConversionError)
  | inference (error : InferenceError)
  | comparison (error : ComparisonError)
  deriving DecidableEq

namespace ScenarioFailure

def code : ScenarioFailure → String
  | setup _ => "setup_failed"
  | reference _ => "reference_failed"
  | capture _ => "export_failed"
  | conversion _ => "conversion_failed"
  | inference _ => "inference_failed"
  | comparison error => error.code

def message : ScenarioFailure → String
  | setup error => error.message
  | reference error => s!"reference execution failed: {error.message}"
  | capture error => s!"export failed: {error.message}"
  | conversion error => error.message
  | inference error => error.message
  | comparison error => s!"comparison failed: {error.message}"

/-- Whether a kernel asked for an element outside its buffer. Such a failure ends the process. -/
def abrupt : ScenarioFailure → Bool
  | reference (.kernel _ _ (.outsideBuffer _)) => true
  | capture (.trace (.kernel _ _ (.outsideBuffer _))) => true
  | inference (.execution (.kernel _ _ (.outsideBuffer _))) => true
  | _ => false

end ScenarioFailure

/-- What a run learned, stage by stage. -/
structure Trail where
  inputShapes : List Shape := []
  referenceShapes : Option (List Shape) := none
  referenceFingerprint : Option UInt64 := none
  graphChecksum : Option String := none
  converted : Option Converted := none
  targetShapes : Option (List Shape) := none
  deriving DecidableEq

structure ScenarioReport where
  name : String
  family : ModelFamily
  seed : UInt64
  result : Except ScenarioFailure Verdict
  artifactPath : Path
  log : CaseLog

namespace ScenarioReport

def passed (r : ScenarioReport) : Bool :=
  match r.result with
  | .ok verdict => verdict.passed
  | .error _ => false

def code (r : ScenarioReport) : String :=
  match r.result with
  | .ok verdict => verdict.code
  | .error failure => failure.code

/-- Whether the run ended the process. -/
def abrupt (r : ScenarioReport) : Bool :=
  match r.result with
  | .ok _ => false
  | .error failure => failure.abrupt

end ScenarioReport

namespace Scenario

/-- Where the artifact of a scenario lies. Scenarios of one registry have different places. -/
def artifactPath (workDir : Path) (s : Scenario) : Path :=
  workDir.join (s.canonicalName ++ "." ++ Artifact.extension)

end Scenario

/-- The files and what a run has learned so far. -/
structure RunState where
  trail : Trail
  files : FileSystem

/-- One stage after the other; what was learned before a failure is kept. -/
abbrev RunAction := ExceptT ScenarioFailure (StateM RunState)

namespace RunAction

variable {ε α : Type}

def ofResult (result : Except ε α) (failed : ε → ScenarioFailure) : RunAction α :=
  match result with
  | .ok a => return a
  | .error e => throw (failed e)

/-- A stage that works on files. -/
def ofFiles (action : FileAction ε α) (failed : ε → ScenarioFailure) : RunAction α := do
  let s ← get
  let (result, files) := action.run.run s.files
  set { s with files }
  ofResult result failed

/-- Adds to what the run has learned. -/
def note (f : Trail → Trail) : RunAction Unit :=
  modify fun s => { s with trail := f s.trail }

end RunAction

namespace Scenario

/-- The stages of a run. -/
def stages (s : Scenario) (backend : Backend) (settings : Settings) : RunAction Verdict := do
  let path := s.artifactPath settings.workDir
  let setup ← RunAction.ofResult s.setup .setup
  let shapes := setup.inputShapes
  RunAction.note fun t => { t with inputShapes := shapes }
  let reference ← RunAction.ofResult (setup.model.run .double setup.inputs) .reference
  RunAction.note fun t =>
    { t with
      referenceShapes := some (reference.map (·.shape))
      referenceFingerprint := some (OutputTuple.fingerprint reference) }
  let artifact ← RunAction.ofFiles (Artifact.exportModel setup.model setup.inputs path) .capture
  RunAction.note fun t => { t with graphChecksum := some artifact.graphChecksum }
  let converted ← RunAction.ofFiles (backend.convert path shapes) .conversion
  RunAction.note fun t => { t with converted := some converted }
  let target ← RunAction.ofFiles (backend.infer converted setup.inputs) .inference
  RunAction.note fun t => { t with targetShapes := some (target.map (·.shape)) }
  RunAction.ofResult (compare reference target settings.tolerance) .comparison

/-- Removes files that are there. -/
def discard (fs : FileSystem) (paths : List Path) : FileSystem :=
  paths.foldl (fun fs p =>
    match fs.remove p with
    | .ok fs => fs
    | .error _ => fs) fs

/-- The files that a run is known to have made. -/
def madeFiles (artifact : Path) (t : Trail) : List Path :=
  artifact :: (t.converted.map Converted.paths).getD []

/-- What a verdict or a failure adds to a log entry. -/
def resultFields : Except ScenarioFailure Verdict → List (String × Json)
  | .ok verdict =>
    [("pairs_checked", .ofNat verdict.pairsChecked),
      ("mismatch", .ofOption Mismatch.toJson verdict.mismatch)] ++
      (verdict.mismatch.map fun m => ("detail", Json.string (Mismatch.message m))).toList
  | .error failure => [("detail", .string failure.message)]

def shapesJson (shapes : List Shape) : Json := .array (shapes.map .ofShape)

/-- The fields of a log entry beyond the envelope. -/
def logFields (s : Scenario) (settings : Settings) (t : Trail)
    (result : Except ScenarioFailure Verdict) : List (String × Json) :=
  [("tolerance", settings.tolerance.toJson),
    ("coverage_axes", .array (s.axes.map fun axis => .string axis.name)),
    ("input_shapes", shapesJson t.inputShapes),
    ("reference_shapes", .ofOption shapesJson t.referenceShapes),
    ("target_shapes", .ofOption shapesJson t.targetShapes),
    ("reference_fingerprint",
      .ofOption (fun word => Json.string (Fnv.label word)) t.referenceFingerprint),
    ("graph_hash", .ofOption Json.string t.graphChecksum),
    ("artifacts_kept", .bool settings.keepArtifacts)] ++ resultFields result

/-- A command that runs the scenario again and keeps its files. -/
def replayCommand (s : Scenario) (backend : String) : String :=
  s!"cargo run -p cp-conformance --bin run_scenarios -- --backend {backend} --scenario {s.name} " ++
    "--keep-artifacts"

def makeReport (s : Scenario) (backend : String) (settings : Settings) (t : Trail)
    (result : Except ScenarioFailure Verdict) : ScenarioReport :=
  let path := s.artifactPath settings.workDir
  let (passed, code) :=
    match result with
    | .ok verdict => (verdict.passed, verdict.code)
    | .error failure => (false, failure.code)
  let entry := CaseLog.make Suite.name s.name s.family.name backend s.seed.toNat
    ((madeFiles path t).map (·.text)) (s.replayCommand backend) passed code
  { name := s.name
    family := s.family
    seed := s.seed
    result
    artifactPath := path
    log :=
      { entry with timestampMillis := settings.timestampMillis }.withExtra
        (s.logFields settings t result) }

/-- Runs a scenario from start to end. -/
def run (s : Scenario) (backend : Backend) (settings : Settings) :
    StateM FileSystem ScenarioReport := do
  let (result, state) := (s.stages backend settings).run.run ⟨{}, ← get⟩
  let path := s.artifactPath settings.workDir
  set (if settings.keepArtifacts then state.files
    else discard state.files (madeFiles path state.trail))
  return s.makeReport backend.name settings state.trail result

end Scenario

/-- The reports of a run of several scenarios. -/
structure SuiteReport where
  backend : String
  scenarios : List ScenarioReport

namespace SuiteReport

def total (r : SuiteReport) : Nat := r.scenarios.length

def passedCount (r : SuiteReport) : Nat := (r.scenarios.filter (·.passed)).length

/-- A suite without scenarios has not passed. -/
def allPassed (r : SuiteReport) : Bool := 0 < r.total && r.total = r.passedCount

/-- Zero if every comparison found its outputs equivalent, and one otherwise. -/
def exitCode (r : SuiteReport) : Nat := if r.allPassed then 0 else 1

def failures (r : SuiteReport) : List ScenarioReport := r.scenarios.filter (!·.passed)

/-- The report as a caller gets it: not at all if one of the runs ended the process. -/
def delivered? (r : SuiteReport) : Option SuiteReport :=
  if r.scenarios.any (·.abrupt) then none else some r

end SuiteReport

/-- Why a suite did not start. -/
inductive SuiteError where
  | selection (error : UnknownScenario)
  | workDir (path : Path) (error : FileError)
  deriving DecidableEq

def SuiteError.message : SuiteError → String
  | selection error => error.message
  | workDir path error => s!"failed creating work dir {path.text}: {error.message}"

/-- Runs scenarios one after the other. A failure of one does not keep the next from running. -/
def Scenario.runEach (scenarios : List Scenario) (backend : Backend) (settings : Settings) :
    StateM FileSystem (List ScenarioReport) :=
  scenarios.mapM fun s => s.run backend settings

/-- Runs the scenarios of these names, or all, in the order of the registry. -/
def Registry.run (r : Registry) (names : List String) (backend : Backend) (settings : Settings) :
    FileAction SuiteError SuiteReport := do
  let selected ← FileAction.ofResult (r.select names) .selection
  FileAction.makeDirectories settings.workDir (.workDir settings.workDir)
  let reports ← ExceptT.lift (Scenario.runEach selected backend settings)
  return ⟨backend.name, reports⟩

end TensorParity
