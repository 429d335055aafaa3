import TensorParity.Proofs.Artifact.File
import TensorParity.Suite.Run

/-!
The ways in which a run of a scenario ends. Each stage leaves its result, what was learned and the
files as the stages before it made them; every run ends in exactly one of these ways.
-/
namespace TensorParity

namespace RunAction

variable {ε α β : Type} {st : RunState}

/-- What a stage yields, and what was learned and the files after it. -/
def outcome (x : RunAction α) (st : RunState) : Except ScenarioFailure α × RunState := x.run.run st

theorem outcome_bind (x : RunAction α) (f : α → RunAction β) (st : RunState) :
    (x >>= f).outcome st =
      match x.outcome st with
      | (.ok a, st') => (f a).outcome st'
      | (.error e, st') => (.error e, st') := by
  simp only [outcome, run_run_bind]
  obtain ⟨_ | _, _⟩ := x.run.run st <;> rfl

theorem outcome_ofResult (result : Except ε α) (failed : ε → ScenarioFailure) :
    (ofResult result failed).outcome st = (result.mapError failed, st) := by
  cases result <;> rfl

theorem outcome_ofFiles (action : FileAction ε α) (failed : ε → ScenarioFailure) :
    (ofFiles action failed).outcome st =
      ((action.outcome st.files).1.mapError failed,
        { st with files := (action.outcome st.files).2 }) := by
  unfold ofFiles
  simp only [outcome_bind]
  exact outcome_ofResult _ _

theorem outcome_note (f : Trail → Trail) :
    (note f).outcome st = (.ok (), { st with trail := f st.trail }) := rfl

end RunAction

namespace Scenario

/-- The reference run of a scenario has outputs. -/
structure Prepared (s : Scenario) (setup : ScenarioSetup) (reference : OutputTuple) : Prop where
  built : s.setup = .ok setup
  ran : setup.model.run .double setup.inputs = .ok reference

/-- Its artifact is written. -/
structure Exported (s : Scenario) (settings : Settings) (fs : FileSystem) (setup : ScenarioSetup)
    (reference : OutputTuple) (artifact : Artifact) (exported : FileSystem) : Prop
    extends Prepared s setup reference where
  captured : (Artifact.exportModel setup.model setup.inputs
    (s.artifactPath settings.workDir)).outcome fs = (.ok artifact, exported)

/-- The artifact is converted. -/
structure Translated (s : Scenario) (backend : Backend) (settings : Settings) (fs : FileSystem)
    (setup : ScenarioSetup) (reference : OutputTuple) (artifact : Artifact)
    (exported : FileSystem) (converted : Converted) (translated : FileSystem) : Prop
    extends Exported s settings fs setup reference artifact exported where
  converts :
    (backend.convert (s.artifactPath settings.workDir) setup.inputShapes).outcome exported =
      (.ok converted, translated)

section Unique

variable {s : Scenario} {backend : Backend} {settings : Settings} {fs : FileSystem}
  {setup setup' : ScenarioSetup} {reference reference' : OutputTuple}
  {artifact artifact' : Artifact} {exported exported' translated translated' : FileSystem}
  {converted converted' : Converted}

theorem Prepared.unique (h : s.Prepared setup reference) (h' : s.Prepared setup' reference') :
    setup = setup' ∧ reference = reference' := by
  obtain rfl := Except.ok.inj (h.built.symm.trans h'.built)
  exact ⟨rfl, Except.ok.inj (h.ran.symm.trans h'.ran)⟩

theorem Exported.unique (h : s.Exported settings fs setup reference artifact exported)
    (h' : s.Exported settings fs setup' reference' artifact' exported') :
    artifact = artifact' ∧ exported = exported' := by
  obtain ⟨rfl, -⟩ := h.toPrepared.unique h'.toPrepared
  obtain ⟨hartifact, hfiles⟩ := Prod.mk.inj (h.captured.symm.trans h'.captured)
  exact ⟨Except.ok.inj hartifact, hfiles⟩

theorem Translated.unique
    (h : s.Translated backend settings fs setup reference artifact exported converted translated)
    (h' : s.Translated backend settings fs setup' reference' artifact' exported' converted'
      translated') :
    converted = converted' ∧ translated = translated' := by
  obtain ⟨rfl, -⟩ := h.toPrepared.unique h'.toPrepared
  obtain ⟨-, rfl⟩ := h.toExported.unique h'.toExported
  obtain ⟨hconverted, hfiles⟩ := Prod.mk.inj (h.converts.symm.trans h'.converts)
  exact ⟨Except.ok.inj hconverted, hfiles⟩

end Unique

/-- What a run with outputs for reference has learned. -/
def referenceTrail (setup : ScenarioSetup) (reference : OutputTuple) : Trail :=
  { inputShapes := setup.inputShapes
    referenceShapes := some (reference.map (·.shape))
    referenceFingerprint := some (OutputTuple.fingerprint reference) }

/-- How the stages of a run end: the result, and what was learned and the files by then. -/
inductive Ends (s : Scenario) (backend : Backend) (settings : Settings) (fs : FileSystem) :
    Except ScenarioFailure Verdict → RunState → Prop
  | setup {e : SetupError} (hsetup : s.setup = .error e) :
      Ends s backend settings fs (.error (.setup e)) ⟨{}, fs⟩
  | reference {setup : ScenarioSetup} {e : ExecError} (hsetup : s.setup = .ok setup)
      (hreference : setup.model.run .double setup.inputs = .error e) :
      Ends s backend settings fs (.error (.reference e))
        ⟨{ inputShapes := setup.inputShapes }, fs⟩
  | capture {setup : ScenarioSetup} {reference : OutputTuple} {e : ArtifactError}
      {files : FileSystem} (hprepared : s.Prepared setup reference)
      (hcapture : (Artifact.exportModel setup.model setup.inputs
        (s.artifactPath settings.workDir)).outcome fs = (.error e, files)) :
      Ends s backend settings fs (.error (.capture e)) ⟨referenceTrail setup reference, files⟩
  | conversion {setup : ScenarioSetup} {reference : OutputTuple} {artifact : Artifact}
      {exported files : FileSystem} {e : ConversionError}
      (hexported : s.Exported settings fs setup reference artifact exported)
      (hconversion : (backend.convert (s.artifactPath settings.workDir) setup.inputShapes).outcome
        exported = (.error e, files)) :
      Ends s backend settings fs (.error (.conversion e))
        ⟨{ referenceTrail setup reference with graphChecksum := some artifact.graphChecksum },
          files⟩
  | inference {setup : ScenarioSetup} {reference : OutputTuple} {artifact : Artifact}
      {exported translated files : FileSystem} {converted : Converted} {e : InferenceError}
      (htranslated : s.Translated backend settings fs setup reference artifact exported converted
        translated)
      (hinference : (backend.infer converted setup.inputs).outcome translated =
        (.error e, files)) :
      Ends s backend settings fs (.error (.inference e))
        ⟨{ referenceTrail setup reference with
            graphChecksum := some artifact.graphChecksum
            converted := some converted }, files⟩
  | compared {setup : ScenarioSetup} {reference target : OutputTuple} {artifact : Artifact}
      {exported translated files : FileSystem} {converted : Converted}
      (htranslated : s.Translated backend settings fs setup reference artifact exported converted
        translated)
      (htarget : (backend.infer converted setup.inputs).outcome translated =
        (.ok target, files)) :
      Ends s backend settings fs
        ((compare reference target settings.tolerance).mapError .comparison)
        ⟨{ referenceTrail setup reference with
            graphChecksum := some artifact.graphChecksum
            converted := some converted
            targetShapes := some (target.map (·.shape)) }, files⟩

variable (s : Scenario) (backend : Backend) (settings : Settings) (fs : FileSystem)

/-- Every run ends in one of the ways. -/
theorem ends_stages :
    s.Ends backend settings fs ((s.stages backend settings).outcome ⟨{}, fs⟩).1
      ((s.stages backend settings).outcome ⟨{}, fs⟩).2 := by
  simp only [stages, RunAction.outcome_bind, RunAction.outcome_ofResult, RunAction.outcome_note,
    RunAction.outcome_ofFiles]
  cases hsetup : s.setup with
  | error e => exact .setup hsetup
  | ok setup =>
    simp only [Except.mapError]
    cases hreference : setup.model.run .double setup.inputs with
    | error e => exact .reference hsetup hreference
    | ok reference =>
      dsimp only
      cases hcapture : (Artifact.exportModel setup.model setup.inputs
        (s.artifactPath settings.workDir)).outcome fs with
      | mk result exported =>
        cases result with
        | error e => exact .capture ⟨hsetup, hreference⟩ hcapture
        | ok artifact =>
          have hexported : s.Exported settings fs setup reference artifact exported :=
            ⟨⟨hsetup, hreference⟩, hcapture⟩
          dsimp only
          cases hconversion : (backend.convert (s.artifactPath settings.workDir)
            setup.inputShapes).outcome exported with
          | mk result translated =>
            cases result with
            | error e => exact .conversion hexported hconversion
            | ok converted =>
              have htranslated : s.Translated backend settings fs setup reference artifact
                  exported converted translated := ⟨hexported, hconversion⟩
              dsimp only
              cases hinference : (backend.infer converted setup.inputs).outcome translated with
              | mk result files =>
                cases result with
                | error e => exact .inference htranslated hinference
                | ok target => exact .compared htranslated hinference

/-- A run goes through its stages, reports and, unless files are kept, cleans up. -/
theorem run_eq : (s.run backend settings).run fs =
    let (result, st) := (s.stages backend settings).outcome ⟨{}, fs⟩
    (s.makeReport backend.name settings st.trail result,
      if settings.keepArtifacts then st.files
      else discard st.files (madeFiles (s.artifactPath settings.workDir) st.trail)) :=
  rfl

theorem result_run : ((s.run backend settings).run fs).1.result =
    ((s.stages backend settings).outcome ⟨{}, fs⟩).1 :=
  rfl

theorem exists_ends : ∃ result st, s.Ends backend settings fs result st ∧
    (s.run backend settings).run fs =
      (s.makeReport backend.name settings st.trail result,
        if settings.keepArtifacts then st.files
        else discard st.files (madeFiles (s.artifactPath settings.workDir) st.trail)) :=
  ⟨_, _, s.ends_stages backend settings fs, s.run_eq backend settings fs⟩

end Scenario

/-- A report is delivered if no run ended the process. -/
theorem SuiteReport.delivered?_eq_some_iff {report : SuiteReport} :
    report.delivered? = some report ↔ ∀ scenario ∈ report.scenarios, scenario.abrupt = false := by
  simp [SuiteReport.delivered?]

/-- A suite whose directory is made runs every selected scenario once. -/
theorem Registry.outcome_runEach {r : Registry} {names : List String} {selected : List Scenario}
    {backend : Backend} {settings : Settings} {fs ready after : FileSystem}
    {reports : List ScenarioReport} (hselect : r.select names = .ok selected)
    (hready : fs.makeDirectories settings.workDir = .ok ready)
    (hreports : (Scenario.runEach selected backend settings).run ready = (reports, after)) :
    (r.run names backend settings).outcome fs = (.ok ⟨backend.name, reports⟩, after) := by
  have heach : FileAction.outcome (ε := SuiteError)
      (ExceptT.lift (Scenario.runEach selected backend settings)) ready = (.ok reports, after) :=
    congrArg (fun ended => (Except.ok ended.1, ended.2)) hreports
  rw [run, FileAction.outcome_bind, hselect, FileAction.outcome_ofResult]
  dsimp only [Except.mapError]
  rw [FileAction.outcome_bind, FileAction.outcome_makeDirectories_of_ok _ hready]
  dsimp only
  rw [FileAction.outcome_bind, heach]
  rfl

end TensorParity
