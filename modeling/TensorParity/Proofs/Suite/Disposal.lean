import TensorParity.Proofs.Backend.Loopback
import TensorParity.Proofs.Suite.Conversion
import TensorParity.Proofs.Suite.Stages

/-!
What a run leaves behind when it keeps no files. The artifact is always removed, and so are both
converted files of a conversion that succeeded. A conversion that fails after it wrote a file is not
cleaned up after, since a run learns of converted files only from a conversion that succeeds.
-/
namespace TensorParity

open FileSystem

/-- The back ends, and where each leaves the two files of an artifact. -/
inductive LeavesAt : Backend → (Path → Except ConversionError Converted) → Prop
  | process (host : Host) (s : ProcessSettings) :
      LeavesAt (.process host s) fun p => convertedPaths s.workDir p s.structureSuffix s.weightsSuffix
  | loopback (workDir : Path) :
      LeavesAt (.loopback workDir) fun p =>
        convertedPaths workDir p Loopback.structureSuffix Loopback.weightsSuffix

/-- The conversions that fail when they may have written a file, and which one: a converter that ran
may have written both, and without one the structure is written before the weights are. -/
inductive Unfinished (c : Converted) : Backend → ConversionError → Path → Prop
  | command {host : Host} {s : ProcessSettings} {e : ProcessError} {p : Path}
      (hran : ∀ program reason, e ≠ .spawn program reason) (hp : p ∈ c.paths) :
      Unfinished c (.process host s) (.process e) p
  | missing {host : Host} {s : ProcessSettings} {p q : Path} (hp : p ∈ c.paths) :
      Unfinished c (.process host s) (.missingOutput q) p
  | weights {workDir : Path} {e : FileError} :
      Unfinished c (.loopback workDir) (.file c.weightsPath e) c.structurePath

section Conversion

variable {fs fs' : FileSystem} {p : Path} {shapes : List Shape}

/-- A conversion that is refused before it makes a file. -/
theorem refused_of_noneMade {named : Converted → Prop} {unfinished : ConversionError → Prop}
    {e : ConversionError} (h : Artifact.NoneMade fs fs') :
    (∀ c, (.error e : Except ConversionError Converted) = .ok c → named c) ∧
      ∀ e', (.error e : Except ConversionError Converted) = .error e' →
        Artifact.NoneMade fs fs' ∨ unfinished e' := by
  constructor
  · intro c hok
    cases hok
  · exact fun _ _ => .inl h

/-- A conversion without external programs yields the files it names, and fails with one of them
written only when the other was refused. -/
theorem outcome_loopback {workDir : Path} {result : Except ConversionError Converted}
    (h : (Loopback.convert workDir p shapes).outcome fs = (result, fs')) :
    (∀ c, result = .ok c →
      convertedPaths workDir p Loopback.structureSuffix Loopback.weightsSuffix = .ok c) ∧
    ∀ e, result = .error e → Artifact.NoneMade fs fs' ∨
      ∃ c reason, convertedPaths workDir p Loopback.structureSuffix Loopback.weightsSuffix = .ok c ∧
        e = .file c.weightsPath reason ∧ Artifact.OneMade c.structurePath fs fs' := by
  rw [Loopback.convert, FileAction.outcome_bind, FileAction.outcome_get] at h
  rcases FileAction.bind_cases h with ⟨e, hload, rfl⟩ | ⟨a, files, hload, h⟩
  · obtain ⟨-, rfl⟩ := FileAction.ofResult_eq hload
    exact refused_of_noneMade (.refl _ _)
  obtain ⟨-, rfl⟩ := FileAction.ofResult_eq hload
  dsimp only at h
  split at h
  · obtain ⟨rfl, rfl⟩ := Prod.mk.inj h
    exact refused_of_noneMade (.refl _ _)
  rcases FileAction.bind_cases h with ⟨e, hmake, rfl⟩ | ⟨_, made, hmake, h⟩
  · exact refused_of_noneMade (makesOnly_makeDirectories hmake)
  have hmade {made' : Location → Prop} : MakesOnly made' fs made :=
    makesOnly_makeDirectories hmake
  rcases FileAction.bind_cases h with ⟨e, hpaths, rfl⟩ | ⟨c, files', hpaths, h⟩
  · obtain ⟨-, rfl⟩ := FileAction.lift_eq hpaths
    exact refused_of_noneMade hmade
  obtain ⟨hnamed, rfl⟩ := FileAction.lift_eq hpaths
  rcases FileAction.bind_cases h with ⟨e, hfirst, rfl⟩ | ⟨_, first, hfirst, h⟩
  · obtain ⟨rfl, -⟩ := FileAction.change_eq_error hfirst
    exact refused_of_noneMade hmade
  rcases FileAction.bind_cases h with ⟨e, hsecond, rfl⟩ | ⟨_, second, hsecond, h⟩
  · -- the structure lies there by now, and the refusal says nothing of it
    obtain ⟨rfl, reason, rfl⟩ := FileAction.change_eq_error hsecond
    refine ⟨by rintro _ ⟨⟩, fun e he => .inr ⟨c, reason, hnamed, (Except.error.inj he).symm, ?_⟩⟩
    exact .of_none hmade (makesOnly_write (FileAction.change_eq_ok hfirst))
  · obtain ⟨rfl, -⟩ := Prod.mk.inj h
    refine ⟨fun c' hok => ?_, by rintro _ ⟨⟩⟩
    rw [hnamed, Except.ok.inj hok]

theorem judge_ne_spawn {limit : Option Nat} {c : Completion} {program : String}
    {reason : FileError} : Command.judge limit c ≠ .error (.spawn program reason) := by
  intro h
  rcases Command.judge_eq_error h with h | ⟨_, _, _, h⟩ | h <;> cases h

/-- A conversion by a command yields the files it names; unless the command ran, it makes none. -/
theorem outcome_process {host : Host} {s : ProcessSettings}
    {result : Except ConversionError Converted}
    (h : (ProcessSettings.convert host s p shapes).outcome fs = (result, fs')) :
    (∀ c, result = .ok c →
      convertedPaths s.workDir p s.structureSuffix s.weightsSuffix = .ok c) ∧
    ∀ e, result = .error e → Artifact.NoneMade fs fs' ∨
      (∃ failure, e = .process failure ∧ ∀ program reason, failure ≠ .spawn program reason) ∨
      ∃ q, e = .missingOutput q := by
  rcases ProcessSettings.ready_or_refused host s p shapes fs with
    ⟨e, left, hrefused, hnone⟩ | ⟨absolute, c, started, hready⟩
  · obtain ⟨rfl, rfl⟩ := Prod.mk.inj (hrefused.symm.trans h)
    exact refused_of_noneMade hnone
  rw [hready.outcome] at h
  split at h
  · obtain ⟨rfl, rfl⟩ := Prod.mk.inj h
    exact refused_of_noneMade hready.noneMade
  split at h
  · rename_i failure hjudge
    obtain ⟨rfl, -⟩ := Prod.mk.inj h
    refine ⟨nofun, fun e he => .inr (.inl ⟨failure, (Except.error.inj he).symm, ?_⟩)⟩
    rintro program reason rfl
    exact judge_ne_spawn hjudge
  · obtain ⟨rfl, -⟩ := Prod.mk.inj h
    rw [ProcessSettings.checkOutputs_eq]
    split
    · rename_i q _
      constructor
      · intro c' hok
        cases hok
      · intro e he
        exact .inr (.inr ⟨q, (Except.error.inj he).symm⟩)
    · constructor
      · intro c' hok
        obtain rfl : c = c' := Except.ok.inj hok
        exact hready.named
      · intro e he
        cases he

variable {backend : Backend} {paths : Path → Except ConversionError Converted}

/-- The names of the two files that conversion without external programs leaves differ. -/
theorem pathNames_loopback_ne {workDir : Path} {c : Converted}
    (h : convertedPaths workDir p Loopback.structureSuffix Loopback.weightsSuffix = .ok c) :
    (pathNames c.structurePath).getLast? ≠ (pathNames c.weightsPath).getLast? := by
  unfold convertedPaths Path.fileStem? at h
  cases hname : p.fileName? with
  | none => simp [hname] at h
  | some name =>
    simp only [hname, Option.map_some] at h
    obtain rfl := Except.ok.inj h
    have hslash : '/' ∉ (Path.stem name).toList := Path.not_mem_stem (Path.not_mem_fileName hname)
    dsimp only
    exact Loopback.pathNames_converted_ne workDir hslash

/-- A conversion that succeeds yields the files it names. One that fails makes no file under such a
name, unless it is unfinished. -/
theorem outcome_convert (hleaves : LeavesAt backend paths)
    {result : Except ConversionError Converted}
    (h : (backend.convert p shapes).outcome fs = (result, fs')) :
    (∀ c, result = .ok c → paths p = .ok c) ∧
    ∀ e, result = .error e → ∀ c, paths p = .ok c → ∀ q ∈ c.paths, Unfinished c backend e q ∨
      ∃ made : Location → Prop, MakesOnly made fs fs' ∧
        ∀ location, made location → location.getLast? ≠ (pathNames q).getLast? := by
  cases hleaves with
  | process host s =>
    obtain ⟨hok, herror⟩ := outcome_process h
    refine ⟨hok, fun e he c hc q hq => ?_⟩
    rcases herror e he with hmade | ⟨failure, rfl, hran⟩ | ⟨r, rfl⟩
    · exact .inr ⟨_, hmade, fun _ => False.elim⟩
    · exact .inl (.command hran hq)
    · exact .inl (.missing hq)
  | loopback workDir =>
    obtain ⟨hok, herror⟩ := outcome_loopback h
    refine ⟨hok, fun e he c hc q hq => ?_⟩
    rcases herror e he with hmade | ⟨c', reason, hc', rfl, location, hresolve, hmade⟩
    · exact .inr ⟨_, hmade, fun _ => False.elim⟩
    · obtain rfl : c' = c := Except.ok.inj (hc'.symm.trans hc)
      rcases List.mem_pair.mp hq with rfl | rfl
      · exact .inl .weights
      · refine .inr ⟨_, hmade, ?_⟩
        rintro _ rfl
        rw [(resolve_named hresolve).2]
        exact pathNames_loopback_ne hc

end Conversion

/-- Results of runs that stopped before a conversion had succeeded. -/
def Unconverted : Except ScenarioFailure Verdict → Prop
  | .error (.setup _) => True
  | .error (.reference _) => True
  | .error (.capture _) => True
  | .error (.conversion _) => True
  | _ => False

/-- A run that keeps no files leaves no artifact. A converted file that it leaves was there before
and no conversion succeeded since, or its conversion failed after it may have written the file. -/
theorem Scenario.run_disposes {backend : Backend} {paths : Path → Except ConversionError Converted}
    (hleaves : LeavesAt backend paths) {settings : Settings}
    (hkeep : settings.keepArtifacts = false) (s : Scenario) (fs : FileSystem) :
    let path := s.artifactPath settings.workDir
    let report := ((s.run backend settings).run fs).1
    let after := ((s.run backend settings).run fs).2
    after.isFile path = false ∧
      ∀ c, paths path = .ok c → ∀ p ∈ c.paths, after.isFile p = true →
        (∃ e, report.result = .error (.conversion e) ∧ Unfinished c backend e p) ∨
          Unconverted report.result ∧ ∃ location now before,
            after.locate p = .ok (location, .file now) ∧
              fs.find? location = some (.file before) := by
  obtain ⟨result, st, hends, hrun⟩ := s.exists_ends backend settings fs
  have hwithin : Within (discard st.files (madeFiles (s.artifactPath settings.workDir) st.trail))
      st.files := within_discard _
  have hkeeps : KeepsDirectories st.files
      (discard st.files (madeFiles (s.artifactPath settings.workDir) st.trail)) :=
    (makesOnly_discard _ : MakesOnly (fun _ => False) _ _).toKeepsDirectories
  have hgone : ∀ p ∈ madeFiles (s.artifactPath settings.workDir) st.trail,
      (discard st.files (madeFiles (s.artifactPath settings.workDir) st.trail)).isFile p = false :=
    fun p hp => isFile_discard hp
  simp only [hrun, hkeep, if_neg Bool.false_ne_true]
  generalize discard st.files (madeFiles (s.artifactPath settings.workDir) st.trail) = after
    at hwithin hkeeps hgone ⊢
  have hartifact := hgone (s.artifactPath settings.workDir) (by simp [madeFiles])
  refine ⟨hartifact, fun c hc p hp hfile => ?_⟩
  obtain ⟨location, now, hlocate⟩ := isFile_iff.mp hfile
  obtain ⟨hresolve, hfound⟩ := locate_eq_file_iff.mp (hwithin.locate hlocate)
  -- files the trail names are gone, so a file that is there is none of them
  have hconverted (hsome : st.trail.converted = some c) : False := by
    rw [hgone p (by simp [madeFiles, hsome, hp])] at hfile
    cases hfile
  have hleft (hbefore : ∃ before, fs.find? location = some (.file before)) :
      ∃ location now before, after.locate p = .ok (location, .file now) ∧
        fs.find? location = some (.file before) :=
    ⟨location, now, hbefore.choose, hlocate, hbefore.choose_spec⟩
  cases hends with
  | setup _ => exact .inr ⟨trivial, hleft ⟨now, hfound⟩⟩
  | reference _ _ => exact .inr ⟨trivial, hleft ⟨now, hfound⟩⟩
  | capture _ hcapture =>
    have hmade := (Artifact.outcome_export hcapture).1 _ rfl
    exact .inr ⟨trivial, hleft ((hmade.files location now hfound).resolve_left id)⟩
  | conversion hexported hconversion =>
    rcases (outcome_convert hleaves hconversion).2 _ rfl c hc p hp with
      hunfinished | ⟨made, hmade, hnames⟩
    · exact .inl ⟨_, rfl, hunfinished⟩
    obtain ⟨place, hplace, hexport⟩ := (Artifact.outcome_export hexported.captured).2 _ rfl
    obtain ⟨before, hbefore⟩ := (hmade.files location now hfound).resolve_left fun hnew =>
      hnames location hnew (resolve_named hresolve).2
    refine .inr ⟨trivial, hleft ((hexport.files location before hbefore).resolve_left ?_)⟩
    rintro rfl
    -- the artifact's own place is empty once the artifact is removed
    have hkept := hkeeps.resolve (hmade.resolve hplace)
    have hempty := isFile_iff.mpr
      ⟨location, now, locate_eq_file_iff.mpr ⟨hkept, (locate_eq_file_iff.mp hlocate).2⟩⟩
    rw [hartifact] at hempty
    cases hempty
  | inference htranslated _ =>
    have hsame := (outcome_convert hleaves htranslated.converts).1 _ rfl
    exact (hconverted (congrArg some (Except.ok.inj (hsame.symm.trans hc)))).elim
  | compared htranslated _ =>
    have hsame := (outcome_convert hleaves htranslated.converts).1 _ rfl
    exact (hconverted (congrArg some (Except.ok.inj (hsame.symm.trans hc)))).elim

section Leaking

/-- A model that yields its one constant. -/
def constant : Model :=
  ⟨"m", [], ⟨[("c", ⟨[1], #[2.0], by decide⟩)], by decide⟩, [], ["c"], by decide⟩

def constantArtifact : Artifact :=
  ⟨"m", ⟨[], [], ["c"], ⟨[("c", [1])], by decide⟩⟩, [⟨"c", ⟨[1], #[2.0], by decide⟩⟩]⟩

def leaking : Scenario :=
  { name := "leak"
    family := .batchNorm
    seed := 1
    axes := [.parameterCardinality]
    build := fun _ => .ok ⟨constant, []⟩ }

/-- A converter that writes the structure and then gives up. -/
def givesUp : Host where
  run _ fs := .ok (⟨[], [], .exited 3⟩, fs.put ["w", "leak.ncnn.param"] (.file "x".toUTF8))

def giveUpSettings : ProcessSettings where
  converter := { program := "sh", arguments := ["-c", "printf x > leak.ncnn.param; exit 3", "sh"] }
  runner := { program := "true" }
  workDir := ⟨"w"⟩

def leakSettings : Settings := { workDir := ⟨"w"⟩ }

/-- The files after the export, and after the conversion. -/
def leakExported (a : Artifact) : FileSystem :=
  { entries := [(["w", "leak.cpa"], .file a.encode.toUTF8), (["w"], .directory)] }

def leakConverted (a : Artifact) : FileSystem :=
  (leakExported a).put ["w", "leak.ncnn.param"] (.file "x".toUTF8)

theorem export_constant :
    (Artifact.exportModel constant [] ⟨"w/leak.cpa"⟩).outcome {} =
      (.ok constantArtifact, leakExported constantArtifact) := by
  have hcapture : Artifact.capture constant [] = .ok constantArtifact := by decide +kernel
  have hwrite (a : Artifact) : (a.write ⟨"w/leak.cpa"⟩).outcome {} = (.ok (), leakExported a) := rfl
  simp only [Artifact.exportModel, FileAction.outcome_bind, FileAction.outcome_lift, hcapture,
    hwrite, FileAction.outcome_pure]

theorem run_givesUp (command : Command) (extra : List String) (fs : FileSystem) :
    (Command.run givesUp command extra none).outcome fs =
      (.error (.failed (.exited 3) ""),
        fs.put ["w", "leak.ncnn.param"] (.file "x".toUTF8)) := by
  have hjudge : Command.judge command.limitMillis ⟨[], [], .exited 3⟩ =
      .error (.failed (.exited 3) "") := by
    have hnone : Command.judge none ⟨[], [], .exited 3⟩ = .error (.failed (.exited 3) "") := by
      decide +kernel
    exact hnone
  rw [Command.outcome_run, Command.checkStdin, givesUp]
  dsimp only
  rw [hjudge]

theorem convert_leaking (a : Artifact) :
    (ProcessSettings.convert givesUp giveUpSettings ⟨"w/leak.cpa"⟩ []).outcome (leakExported a) =
      (.error (.process (.failed (.exited 3) "")), leakConverted a) := by
  have hmake : (leakExported a).makeDirectories giveUpSettings.workDir = .ok (leakExported a) := rfl
  have hcanonical : (leakExported a).canonical ⟨"w/leak.cpa"⟩ = .ok ⟨"/w/leak.cpa"⟩ := rfl
  have hpaths : convertedPaths giveUpSettings.workDir ⟨"w/leak.cpa"⟩ giveUpSettings.structureSuffix
      giveUpSettings.weightsSuffix = .ok ⟨⟨"w/leak.ncnn.param"⟩, ⟨"w/leak.ncnn.bin"⟩⟩ := by
    decide +kernel
  have hstale : Scenario.discard (leakExported a)
      [⟨"w/leak.ncnn.param"⟩, ⟨"w/leak.ncnn.bin"⟩] = leakExported a := rfl
  simp only [ProcessSettings.convert, FileAction.look, FileAction.outcome_bind,
    FileAction.outcome_makeDirectories_of_ok _ hmake, FileAction.outcome_get,
    FileAction.outcome_ofResult,
    hcanonical, Except.mapError, FileAction.outcome_lift, hpaths, outcome_forIn_remove,
    Converted.paths, hstale, FileAction.outcome_adapt, run_givesUp]
  rfl

theorem run_leaking :
    ((leaking.run (.process givesUp giveUpSettings) leakSettings).run {}).1.result =
        .error (.conversion (.process (.failed (.exited 3) ""))) ∧
      ((leaking.run (.process givesUp giveUpSettings) leakSettings).run {}).2 =
        (leakConverted constantArtifact).drop ["w", "leak.cpa"] := by
  have hsetup : leaking.setup = .ok ⟨constant, []⟩ := rfl
  have hreference : constant.run .double [] = .ok [⟨[1], #[2.0], by decide⟩] := by decide +kernel
  have hpath : leaking.artifactPath leakSettings.workDir = ⟨"w/leak.cpa"⟩ := by decide +kernel
  have hconvert (a : Artifact) : ((Backend.process givesUp giveUpSettings).convert ⟨"w/leak.cpa"⟩
      (ScenarioSetup.inputShapes ⟨constant, []⟩)).outcome (leakExported a) =
        (.error (.process (.failed (.exited 3) "")), leakConverted a) := convert_leaking a
  have hdiscard (a : Artifact) : Scenario.discard (leakConverted a) [⟨"w/leak.cpa"⟩] =
      (leakConverted a).drop ["w", "leak.cpa"] := rfl
  simp only [Scenario.run_eq, Scenario.stages, RunAction.outcome_bind, RunAction.outcome_ofResult,
    RunAction.outcome_note, RunAction.outcome_ofFiles, hsetup, hreference, hpath, export_constant,
    hconvert, Except.mapError]
  exact ⟨rfl, hdiscard _⟩

/-- The artifact is gone, and what is left of the conversion is accounted for. -/
theorem run_disposes_leaking :
    let report := ((leaking.run (.process givesUp giveUpSettings) leakSettings).run {}).1
    let after := ((leaking.run (.process givesUp giveUpSettings) leakSettings).run {}).2
    after.isFile (leaking.artifactPath leakSettings.workDir) = false ∧
      ∃ e, report.result = .error (.conversion e) ∧
        Unfinished ⟨⟨"w/leak.ncnn.param"⟩, ⟨"w/leak.ncnn.bin"⟩⟩ (.process givesUp giveUpSettings) e
          ⟨"w/leak.ncnn.param"⟩ := by
  have hkeep : leakSettings.keepArtifacts = false := rfl
  obtain ⟨hartifact, hleft⟩ :=
    Scenario.run_disposes (.process givesUp giveUpSettings) hkeep leaking {}
  refine ⟨hartifact, ?_⟩
  rcases hleft ⟨⟨"w/leak.ncnn.param"⟩, ⟨"w/leak.ncnn.bin"⟩⟩ (by decide +kernel)
    ⟨"w/leak.ncnn.param"⟩ (by decide) (by rw [run_leaking.2]; rfl) with
    hunfinished | ⟨-, location, now, before, -, hbefore⟩
  · exact hunfinished
  · simp only [find?, List.find?_nil, Option.map_none] at hbefore
    split at hbefore <;> cases hbefore

/-- A structure that a converter wrote before it gave up stays after the run. -/
theorem run_leaves_structure :
    let after := ((leaking.run (.process givesUp giveUpSettings) leakSettings).run {}).2
    leakSettings.keepArtifacts = false ∧
      convertedPaths giveUpSettings.workDir (leaking.artifactPath leakSettings.workDir)
          giveUpSettings.structureSuffix giveUpSettings.weightsSuffix =
        .ok ⟨⟨"w/leak.ncnn.param"⟩, ⟨"w/leak.ncnn.bin"⟩⟩ ∧
      ({} : FileSystem).isFile ⟨"w/leak.ncnn.param"⟩ = false ∧
      after.isFile ⟨"w/leak.ncnn.param"⟩ = true := by
  refine ⟨rfl, by decide +kernel, rfl, ?_⟩
  rw [run_leaking.2]
  rfl

end Leaking

end TensorParity
