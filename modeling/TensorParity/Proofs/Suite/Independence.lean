import TensorParity.Proofs.Scenario.Registry
import TensorParity.Proofs.Suite.Disposal
import TensorParity.Proofs.Suite.Places

/-!
Scenarios of a suite beside each other. A run works in the places that carry its scenario's name and
does the same wherever these hold the same, so in a suite it does what it does alone. What it cannot
help is the end of the process: a run that leaves a buffer takes the whole report with it.
-/
namespace TensorParity

open FileSystem

section Steady

variable {mine : Location → Prop} {base fs gs : FileSystem} {ε α : Type}

/-- Work of one run, which has what it learned to itself and shares the files with others. -/
def RunState.frame (mine : Location → Prop) (base : FileSystem) : Frame RunState where
  alike st st' := st.trail = st'.trail ∧ Near mine base st.files st'.files
  leaves st st' := Untouched mine st.files st'.files
  refl _ _ _ := rfl
  trans h h' location hother := (h' location hother).trans (h location hother)

namespace RunAction

theorem steady_ofResult (result : Except ε α) (failed : ε → ScenarioFailure) :
    (RunState.frame mine base).Steady (ofResult result failed) := by
  cases result with
  | ok a => exact Frame.steady_pure a
  | error e => exact Frame.steady_throw (failed e)

theorem steady_note (f : Trail → Trail) : (RunState.frame mine base).Steady (note f) :=
  fun _ _ h => ⟨rfl, ⟨congrArg f h.1, h.2⟩, fun _ _ => rfl⟩

theorem steady_ofFiles {action : FileAction ε α} (h : (FileSystem.frame mine base).Steady action)
    (failed : ε → ScenarioFailure) :
    (RunState.frame mine base).Steady (ofFiles action failed) := by
  rintro st st' ⟨htrail, hnear⟩
  obtain ⟨hresult, hnear', huntouched⟩ := h st.files st'.files hnear
  have houtcome (st : RunState) : (ofFiles action failed).run.run st =
      ((action.run.run st.files).1.mapError failed,
        { st with files := (action.run.run st.files).2 }) :=
    outcome_ofFiles action failed
  rw [houtcome, houtcome]
  exact ⟨congrArg (Except.mapError failed) hresult, ⟨htrail, hnear'⟩, huntouched⟩

theorem ofFiles_eq_ok {action : FileAction ε α} {failed : ε → ScenarioFailure} {a : α}
    {st st' : RunState} (h : (ofFiles action failed).run.run st = (.ok a, st')) :
    ∃ files, action.outcome st.files = (.ok a, files) := by
  have houtcome : (ofFiles action failed).run.run st =
      ((action.outcome st.files).1.mapError failed,
        { st with files := (action.outcome st.files).2 }) :=
    outcome_ofFiles action failed
  rw [h] at houtcome
  exact ⟨_, Prod.ext (mapError_eq_ok.mp (congrArg Prod.fst houtcome).symm) rfl⟩

end RunAction

namespace Scenario

variable {s : Scenario} {settings : Settings} {location : Location}

/-- The stages of a run on the back end without external programs stay in its places. -/
theorem steady_stages (hs : s.canonicalName ≠ "") (hleads : Leads base settings.workDir location) :
    (RunState.frame s.Names base).Steady (s.stages (.loopback settings.workDir) settings) := by
  have hsite := site_artifactPath hs hleads
  refine (RunAction.steady_ofResult _ _).andThen fun setup =>
    (RunAction.steady_note _).andThen fun _ =>
    (RunAction.steady_ofResult _ _).andThen fun reference =>
    (RunAction.steady_note _).andThen fun _ =>
    (RunAction.steady_ofFiles (Artifact.steady_export hsite _ _) _).andThen fun artifact =>
    (RunAction.steady_note _).andThen fun _ => ?_
  refine (RunAction.steady_ofFiles (Loopback.steady_convert hsite.owned hleads
    fun c hc => owns_converted hs hleads hc) _).bind fun c st st' st'' hconverted halike => ?_
  have hnamed : convertedPaths settings.workDir (s.artifactPath settings.workDir)
      Loopback.structureSuffix Loopback.weightsSuffix = .ok c := by
    obtain ⟨files, hfirst⟩ := RunAction.ofFiles_eq_ok hconverted
    exact (outcome_loopback hfirst).1 c rfl
  have hc := owns_converted hs hleads hnamed
  exact ((RunAction.steady_note _).andThen fun _ =>
    (RunAction.steady_ofFiles (Loopback.steady_infer hc _) _).andThen fun target =>
    (RunAction.steady_note _).andThen fun _ => RunAction.steady_ofResult _ _) st' st'' halike

/-- What a run has converted lies in its places. -/
theorem owns_madeFiles (hs : s.canonicalName ≠ "") (hleads : Leads base settings.workDir location)
    {result : Except ScenarioFailure Verdict} {st : RunState}
    (h : s.Ends (.loopback settings.workDir) settings fs result st) :
    ∀ p ∈ madeFiles (s.artifactPath settings.workDir) st.trail, Owns s.Names base p := by
  have hartifact := (site_artifactPath hs hleads).owned
  have hall {c : Converted} {shapes : List Shape} {exported translated : FileSystem}
      (hconverts : (Loopback.convert settings.workDir (s.artifactPath settings.workDir)
        shapes).outcome exported = (.ok c, translated)) :
      ∀ p ∈ s.artifactPath settings.workDir :: c.paths, Owns s.Names base p := by
    obtain ⟨hstructure, hweights⟩ :=
      owns_converted hs hleads ((outcome_loopback hconverts).1 c rfl)
    simp only [Converted.paths, List.forall_mem_cons]
    exact ⟨hartifact, hstructure, hweights, List.forall_mem_nil _⟩
  cases h with
  | setup | reference | capture | conversion => exact List.forall_mem_singleton.mpr hartifact
  | inference htranslated | compared htranslated => exact hall htranslated.converts

end Scenario

/-- Files are removed in one's own places. -/
theorem near_discard {paths : List Path} (hpaths : ∀ p ∈ paths, Owns mine base p)
    (h : Near mine base fs gs) :
    Near mine base (Scenario.discard fs paths) (Scenario.discard gs paths) ∧
      Untouched mine fs (Scenario.discard fs paths) := by
  induction paths generalizing fs gs with
  | nil => exact ⟨h, fun _ _ => rfl⟩
  | cons p rest ih =>
    rw [List.forall_mem_cons] at hpaths
    simp only [Scenario.discard, List.foldl_cons]
    rcases stepSteady_remove hpaths.1 fs gs h with ⟨e, hleft, hright⟩ |
      ⟨fs', gs', hleft, hright, hnear, huntouched⟩
    · simp only [hleft, hright]
      exact ih hpaths.2 h
    · simp only [hleft, hright]
      obtain ⟨hnear', huntouched'⟩ := ih hpaths.2 hnear
      exact ⟨hnear', fun location hother =>
        (huntouched' location hother).trans (huntouched location hother)⟩

namespace Scenario

variable {s : Scenario} {settings : Settings} {location : Location}

/-- A run does the same wherever its places hold the same, and leaves all others as they are. -/
theorem agrees_run (hs : s.canonicalName ≠ "") (hleads : Leads base settings.workDir location)
    (h : Near s.Names base fs gs) :
    (FileSystem.frame s.Names base).Agrees fs
      ((s.run (.loopback settings.workDir) settings).run fs)
      ((s.run (.loopback settings.workDir) settings).run gs) := by
  obtain ⟨hresult, ⟨htrail, hnear⟩, huntouched⟩ :=
    steady_stages hs hleads ⟨{}, fs⟩ ⟨{}, gs⟩ ⟨rfl, h⟩
  have howned := owns_madeFiles hs hleads (s.ends_stages (.loopback settings.workDir) settings fs)
  rw [run_eq, run_eq]
  unfold RunAction.outcome at howned ⊢
  generalize (s.stages (.loopback settings.workDir) settings).run.run ⟨{}, fs⟩ = ended
    at hresult htrail hnear huntouched howned ⊢
  generalize (s.stages (.loopback settings.workDir) settings).run.run ⟨{}, gs⟩ = ended'
    at hresult htrail hnear ⊢
  obtain ⟨result, st⟩ := ended
  obtain ⟨result', trail', files'⟩ := ended'
  dsimp only at hresult htrail hnear huntouched howned ⊢
  subst hresult htrail
  by_cases hkeep : settings.keepArtifacts = true
  · rw [if_pos hkeep, if_pos hkeep]
    exact .same _ hnear huntouched
  · rw [if_neg hkeep, if_neg hkeep]
    obtain ⟨hnear', huntouched'⟩ := near_discard howned hnear
    exact .same _ hnear' fun location hother =>
      (huntouched' location hother).trans (huntouched location hother)

end Scenario

end Steady

theorem Scenario.name_run (s : Scenario) (backend : Backend) (settings : Settings)
    (fs : FileSystem) : ((s.run backend settings).run fs).1.name = s.name := by
  rw [run_eq]
  rfl

theorem ScenarioReport.abrupt_of_error {report : ScenarioReport} {failure : ScenarioFailure}
    (h : report.result = .error failure) : report.abrupt = failure.abrupt := by
  rw [abrupt, h]

theorem ScenarioReport.abrupt_of_ok {report : ScenarioReport} {verdict : Verdict}
    (h : report.result = .ok verdict) : report.abrupt = false := by
  rw [abrupt, h]

theorem ScenarioFailure.FromFiles.abrupt_eq_false {failure : ScenarioFailure}
    (h : failure.FromFiles) : failure.abrupt = false := by
  cases h with
  | artifact h =>
    obtain ⟨path, reason, rfl⟩ := h
    rfl
  | converted => rfl

/-- A run that has outputs at single precision does not end the process, whatever the files. -/
theorem Scenario.Sound.abrupt_eq_false {s : Scenario} {settings : Settings} {setup : ScenarioSetup}
    {reference target : OutputTuple} (h : s.Sound settings setup reference)
    (hsingle : setup.model.run .single setup.inputs = .ok target) (workDir : Path)
    (fs : FileSystem) : ((s.run (.loopback workDir) settings).run fs).1.abrupt = false := by
  rcases h.result_cases workDir fs with ⟨failure, hfailure, hrefused⟩ | hresult
  · rw [ScenarioReport.abrupt_of_error hfailure, hrefused.abrupt_eq_false]
  rw [hsingle] at hresult
  dsimp only at hresult
  cases hcompare : compare reference target settings.tolerance with
  | ok verdict =>
    rw [hcompare] at hresult
    exact ScenarioReport.abrupt_of_ok hresult
  | error e =>
    rw [hcompare] at hresult
    exact ScenarioReport.abrupt_of_error hresult

section Suite

variable {settings : Settings} {ready fs : FileSystem} {location : Location}
  {selected : List Scenario}

/-- Scenarios with different names report what each of them reports alone, whatever has happened in
the places of others. -/
theorem Scenario.runEach_eq_map (hdistinct : (selected.map Scenario.canonicalName).Nodup)
    (hnames : ∀ s ∈ selected, s.canonicalName ≠ "") (hleads : Leads ready settings.workDir location)
    (hkeeps : KeepsDirectories ready fs) (hprocess : fs.process = ready.process)
    (hagree : ∀ s ∈ selected, ∀ place, s.Names place → fs.find? place = ready.find? place) :
    ((runEach selected (.loopback settings.workDir) settings).run fs).1 =
      selected.map fun s => ((s.run (.loopback settings.workDir) settings).run ready).1 := by
  induction selected generalizing fs with
  | nil => rfl
  | cons s rest ih =>
    rw [List.map_cons, List.nodup_cons] at hdistinct
    rw [List.forall_mem_cons] at hnames hagree
    obtain ⟨hreport, hnear, huntouched⟩ := s.agrees_run hnames.1 hleads
      ⟨hkeeps, .refl ready, hprocess, rfl, hagree.1⟩
    have hrest := ih hdistinct.2 hnames.2 hnear.left hnear.processLeft fun s' hs' place hplace => by
      rw [huntouched place fun hsame => ?_, hagree.2 s' hs' place hplace]
      exact hdistinct.1 (names_disjoint hsame hplace ▸ List.mem_map_of_mem hs')
    rw [List.map_cons, ← hreport, ← hrest, runEach, List.mapM_cons]
    rfl

namespace Registry

variable {r : Registry} {names : List String}

/-- Selected scenarios have names, which differ. -/
theorem distinct_of_select (h : r.select names = .ok selected) :
    (selected.map Scenario.canonicalName).Nodup ∧ ∀ s ∈ selected, s.canonicalName ≠ "" := by
  have hsublist := sublist_of_select h
  exact ⟨r.acceptable.distinct.sublist (hsublist.map _),
    fun s hs => r.acceptable.named s (hsublist.subset hs)⟩

/-- A suite whose directory is made runs each selected scenario as if it were alone. -/
theorem outcome_run (hselect : r.select names = .ok selected)
    (hready : fs.makeDirectories settings.workDir = .ok ready) :
    ∃ after, (r.run names (.loopback settings.workDir) settings).outcome fs =
      (.ok ⟨"loopback", selected.map fun s =>
        ((s.run (.loopback settings.workDir) settings).run ready).1⟩, after) := by
  obtain ⟨hdistinct, hnames⟩ := distinct_of_select hselect
  obtain ⟨location, hleads⟩ := leads_of_makeDirectories hready
  have hreports := Scenario.runEach_eq_map hdistinct hnames hleads (.refl ready) rfl
    fun _ _ _ _ => rfl
  rw [← hreports]
  exact ⟨_, outcome_runEach hselect hready rfl⟩

/-- A suite reports for each selected scenario what the scenario reports alone. Its caller gets the
report exactly when no run ends the process. -/
theorem run_reports_alone (hselect : r.select names = .ok selected)
    (hready : fs.makeDirectories settings.workDir = .ok ready) :
    ∃ report after,
      (r.run names (.loopback settings.workDir) settings).outcome fs = (.ok report, after) ∧
      report.scenarios = selected.map (fun s =>
        ((s.run (.loopback settings.workDir) settings).run ready).1) ∧
      (report.delivered? = some report ↔
        ∀ s ∈ selected,
          ((s.run (.loopback settings.workDir) settings).run ready).1.abrupt = false) := by
  obtain ⟨after, houtcome⟩ := outcome_run hselect hready
  exact ⟨_, after, houtcome, rfl, SuiteReport.delivered?_eq_some_iff.trans List.forall_mem_map⟩

end Registry

end Suite

section Pair

/-- A scenario of one setup under another name. -/
def twin (setup : ScenarioSetup) : Scenario := { alone setup with name := "b" }

/-- Two scenarios that stay in their buffers. -/
def evenPair : Registry where
  scenarios := [alone plainSetup, twin plainSetup]
  valid := by decide +kernel

/-- A scenario that leaves a buffer at single precision, beside one that does not. -/
def unevenPair : Registry where
  scenarios := [alone hollowSetup, twin plainSetup]
  valid := by decide +kernel

theorem abrupt_twin {workDir : Path} {fs : FileSystem} :
    (((twin plainSetup).run (.loopback workDir) aloneSettings).run fs).1.abrupt = false := by
  have hsound : (twin plainSetup).Sound aloneSettings plainSetup [⟨[1, 1], #[0.5], by decide⟩] :=
    ⟨⟨rfl, sound_plain.ran⟩, sound_plain.finite, sound_plain.tolerance, sound_plain.fits⟩
  exact hsound.abrupt_eq_false run_single_plain workDir fs

theorem abrupt_hollow : (((alone hollowSetup).run (.loopback aloneSettings.workDir)
    aloneSettings).run {}).1.abrupt = true := by
  have hcapture : Artifact.capture hollowSetup.model hollowSetup.inputs =
      .ok Loopback.overflowingArtifact := Loopback.capture_overflowing
  have hdir : aloneSettings.workDir = ⟨"w"⟩ ∨ aloneSettings.workDir = ⟨""⟩ := .inr rfl
  have hfiles := run_alone_at hdir hcapture Loopback.fits_overflowing.text
  have hsingle : hollowSetup.model.run .single hollowSetup.inputs = .error (.outside "y") :=
    Loopback.run_overflowing
  have hresult : (((alone hollowSetup).run (.loopback aloneSettings.workDir)
      aloneSettings).run {}).1.result = .error (.inference (.execution (.outside "y"))) := by
    rw [sound_hollow.result_eq hfiles, hsingle]
  rw [ScenarioReport.abrupt_of_error hresult]
  rfl

/-- Both reports of a pair that stays in its buffers are delivered. -/
theorem evenPair_delivered :
    ∃ report after,
      (evenPair.run [] (.loopback aloneSettings.workDir) aloneSettings).outcome {} =
        (.ok report, after) ∧
      report.scenarios.map (·.name) = ["a", "b"] ∧ report.delivered? = some report := by
  have hselect : evenPair.select [] = .ok [alone plainSetup, twin plainSetup] := rfl
  have hready : FileSystem.makeDirectories {} aloneSettings.workDir = .ok {} := rfl
  obtain ⟨report, after, houtcome, hreports, hdelivered⟩ :=
    Registry.run_reports_alone hselect hready
  refine ⟨report, after, houtcome, ?_, hdelivered.mpr ?_⟩
  · simp only [hreports, List.map_cons, List.map_nil, Scenario.name_run]
    rfl
  · rintro s (_ | ⟨_, _ | ⟨_, ⟨⟩⟩⟩)
    · exact sound_plain.abrupt_eq_false run_single_plain _ _
    · exact abrupt_twin

/-- A run that ends the process takes the report of the other with it. -/
theorem unevenPair_lost :
    unevenPair.select [] = .ok [alone hollowSetup, twin plainSetup] ∧
      FileSystem.makeDirectories {} aloneSettings.workDir = .ok {} ∧
      (((twin plainSetup).run (.loopback aloneSettings.workDir) aloneSettings).run {}).1.abrupt =
        false ∧
      ∃ report after,
        (unevenPair.run [] (.loopback aloneSettings.workDir) aloneSettings).outcome {} =
          (.ok report, after) ∧
        report.delivered? = none := by
  have hselect : unevenPair.select [] = .ok [alone hollowSetup, twin plainSetup] := rfl
  have hready : FileSystem.makeDirectories {} aloneSettings.workDir = .ok {} := rfl
  obtain ⟨after, houtcome⟩ := Registry.outcome_run hselect hready
  refine ⟨hselect, hready, abrupt_twin, _, after, houtcome, ?_⟩
  simp only [SuiteReport.delivered?, List.map_cons, List.any_cons, abrupt_hollow, Bool.true_or,
    if_true]

end Pair

end TensorParity
