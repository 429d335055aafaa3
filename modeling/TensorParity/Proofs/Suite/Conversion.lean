import TensorParity.Proofs.Artifact.File
import TensorParity.Proofs.Backend.Transport
import TensorParity.Proofs.File.Rooted
import TensorParity.Suite.Run

/-!
Conversions by a command. What lies where the outputs are to be is removed before the converter is
started, so an output that counts is a file that the converter made. That rests on the removal
reaching the place that is looked at in the end: it does not where the ending of an output's name goes
up again from a directory that only the converter makes.
-/
namespace TensorParity

open FileSystem

section Discard

variable {fs : FileSystem} {p : Path} {made : Location → Prop}

theorem within_discard (paths : List Path) : Within (Scenario.discard fs paths) fs := by
  induction paths generalizing fs with
  | nil => exact .refl fs
  | cons p rest ih =>
    rw [Scenario.discard, List.foldl_cons]
    split
    · exact ih.trans (within_remove ‹_›).1
    · exact ih

theorem makesOnly_discard (paths : List Path) : MakesOnly made fs (Scenario.discard fs paths) := by
  induction paths generalizing fs with
  | nil => exact .refl made fs
  | cons p rest ih =>
    rw [Scenario.discard, List.foldl_cons]
    split
    · exact (makesOnly_remove ‹_›).trans ih
    · exact ih

theorem rooted_discard (h : fs.Rooted) (paths : List Path) : (Scenario.discard fs paths).Rooted := by
  induction paths generalizing fs with
  | nil => exact h
  | cons p rest ih =>
    rw [Scenario.discard, List.foldl_cons]
    split
    · exact ih (h.remove ‹_›)
    · exact ih h

/-- What is discarded is no file any more. -/
theorem isFile_discard {paths : List Path} (h : p ∈ paths) :
    (Scenario.discard fs paths).isFile p = false := by
  induction paths generalizing fs with
  | nil => simp at h
  | cons q rest ih =>
    rcases List.mem_cons.mp h with rfl | h
    · rw [Scenario.discard, List.foldl_cons]
      split
      · exact (within_discard rest).isFile (within_remove ‹_›).2
      · exact (within_discard rest).isFile (isFile_of_remove ‹_›)
    · exact ih h

/-- What is stale is removed one after the other. -/
theorem outcome_forIn_remove {ε : Type} (paths : List Path) (fs : FileSystem) :
    FileAction.outcome (ε := ε) (forIn paths PUnit.unit fun stale _ => do
        FileAction.attempt (·.remove stale)
        pure (ForInStep.yield PUnit.unit)) fs =
      (.ok PUnit.unit, Scenario.discard fs paths) := by
  induction paths generalizing fs with
  | nil => rfl
  | cons p rest ih =>
    rw [List.forIn_cons, Scenario.discard, List.foldl_cons]
    simp only [FileAction.outcome_bind, FileAction.outcome_attempt]
    cases fs.remove p with
    | ok after => exact ih after
    | error e => exact ih fs

end Discard

namespace ProcessSettings

variable {host : Host} {s : ProcessSettings} {artifact absolute p : Path} {shapes : List Shape}
  {fs started after : FileSystem} {c : Converted} {completion : Completion}

/-- How a converter is started. -/
def converterInvocation (s : ProcessSettings) (absolute : Path) (shapes : List Shape) :
    Invocation where
  program := s.converter.program
  arguments := s.converter.arguments ++ [absolute.text, inputShapeArgument shapes]
  directory := some s.workDir
  stdin := none
  limitMillis := s.converter.limitMillis

/-- What a conversion finds and does before the converter is started. -/
structure Ready (s : ProcessSettings) (artifact : Path) (fs : FileSystem) (absolute : Path)
    (c : Converted) (started : FileSystem) : Prop where
  named : convertedPaths s.workDir artifact s.structureSuffix s.weightsSuffix = .ok c
  cleared : ∃ made, fs.makeDirectories s.workDir = .ok made ∧
    made.canonical artifact = .ok absolute ∧ started = Scenario.discard made c.paths

/-- A conversion is refused before it makes a file, or it gets to the converter. -/
theorem ready_or_refused (host : Host) (s : ProcessSettings) (artifact : Path)
    (shapes : List Shape) (fs : FileSystem) :
    (∃ e left, (convert host s artifact shapes).outcome fs = (.error e, left) ∧
      Artifact.NoneMade fs left) ∨
      ∃ absolute c started, Ready s artifact fs absolute c started := by
  rcases hconvert : (convert host s artifact shapes).outcome fs with ⟨result, left⟩
  rcases FileAction.bind_cases hconvert with ⟨e, hmake, rfl⟩ | ⟨_, made, hmake, h⟩
  · exact .inl ⟨e, left, rfl, makesOnly_makeDirectories hmake⟩
  have hmade : Artifact.NoneMade fs made := makesOnly_makeDirectories hmake
  rcases FileAction.bind_cases h with ⟨e, hcanonical, rfl⟩ | ⟨absolute, files, hcanonical, h⟩
  · obtain ⟨-, rfl⟩ := FileAction.look_eq hcanonical
    exact .inl ⟨e, _, rfl, hmade⟩
  obtain ⟨hfound, rfl⟩ := FileAction.look_eq hcanonical
  rcases FileAction.bind_cases h with ⟨e, hpaths, rfl⟩ | ⟨c, files, hpaths, -⟩
  · obtain ⟨-, rfl⟩ := FileAction.lift_eq hpaths
    exact .inl ⟨e, _, rfl, hmade⟩
  · have hnamed := (FileAction.lift_eq hpaths).1
    refine .inr ⟨absolute, c, _, hnamed, made, ?_, mapError_eq_ok.mp hfound, rfl⟩
    rcases FileAction.makeDirectories_cases hmake with ⟨-, hok⟩ | ⟨reason, herror, -⟩
    · exact hok
    · cases herror

/-- What comes of the converter. -/
theorem Ready.outcome (h : Ready s artifact fs absolute c started) :
    (convert host s artifact shapes).outcome fs =
      match host.run (s.converterInvocation absolute shapes) started with
      | .error e => (.error (.process (.spawn s.converter.program e)), started)
      | .ok (completion, after) =>
        match Command.judge s.converter.limitMillis completion with
        | .error e => (.error (.process e), after)
        | .ok _ => ((checkOutputs after c.paths).map fun _ => c, after) := by
  obtain ⟨hnamed, made, hmake, hcanonical, rfl⟩ := h
  have hrun : (Command.run host { s.converter with directory := some s.workDir }
      [absolute.text, inputShapeArgument shapes] none).outcome (Scenario.discard made c.paths) =
      match host.run (s.converterInvocation absolute shapes) (Scenario.discard made c.paths) with
      | .error e => (.error (.spawn s.converter.program e), Scenario.discard made c.paths)
      | .ok (completion, after) => (Command.judge s.converter.limitMillis completion, after) := by
    rw [Command.outcome_run]
    rfl
  simp only [convert, FileAction.look, FileAction.outcome_bind,
    FileAction.outcome_makeDirectories_of_ok _ hmake, FileAction.outcome_get,
    FileAction.outcome_ofResult, hcanonical, Except.mapError, FileAction.outcome_lift, hnamed,
    outcome_forIn_remove, FileAction.outcome_adapt, hrun]
  cases host.run (s.converterInvocation absolute shapes) (Scenario.discard made c.paths) with
  | error e => rfl
  | ok ran =>
    obtain ⟨completion, after⟩ := ran
    dsimp only
    cases Command.judge s.converter.limitMillis completion with
    | error e => rfl
    | ok body =>
      dsimp only
      cases checkOutputs after c.paths <;> rfl

/-- The first output that is no file is missing. -/
theorem checkOutputs_eq (fs : FileSystem) (paths : List Path) :
    checkOutputs fs paths =
      match paths.find? fun p => !fs.isFile p with
      | some p => .error (.missingOutput p)
      | none => .ok () := by
  induction paths with
  | nil => rfl
  | cons p rest ih =>
    rw [checkOutputs, List.find?_cons]
    cases fs.isFile p with
    | true => simpa using ih
    | false => rfl

/-! What the removal reaches. -/

/-- Whether a path leads to a file at a place where no file was before. -/
def Creates (before after : FileSystem) (p : Path) : Prop :=
  ∃ location content, after.locate p = .ok (location, .file content) ∧
    ∀ old, before.find? location ≠ some (.file old)

/-- Whether the place of an output is known when the converter is started: its names below the work
directory go up from no directory, or no directory is missing. -/
def Reached (s : ProcessSettings) (started : FileSystem) (p : Path) : Prop :=
  ".." ∉ (pathNames p).drop (pathNames s.workDir).length ∨ ∃ target, started.resolve p = .ok target

theorem Ready.rooted (h : Ready s artifact fs absolute c started) (hrooted : fs.Rooted) :
    started.Rooted := by
  obtain ⟨-, made, hmake, -, rfl⟩ := h
  exact rooted_discard (hrooted.makeDirectories hmake) _

theorem Ready.leads (h : Ready s artifact fs absolute c started) :
    ∃ location, Leads started s.workDir location := by
  obtain ⟨-, made, hmake, -, rfl⟩ := h
  obtain ⟨location, hleads⟩ := leads_of_makeDirectories hmake
  have hkeeps : MakesOnly (fun _ => True) made (Scenario.discard made c.paths) :=
    makesOnly_discard _
  exact ⟨location, hleads.mono hkeeps.toKeepsDirectories⟩

/-- Before the converter is started no file is made. -/
theorem Ready.noneMade (h : Ready s artifact fs absolute c started) :
    Artifact.NoneMade fs started := by
  obtain ⟨-, made, hmake, -, rfl⟩ := h
  have hmade := FileAction.outcome_makeDirectories_of_ok (ConversionError.file s.workDir) hmake
  exact (makesOnly_makeDirectories hmade).trans (makesOnly_discard _)

theorem Ready.isFile (h : Ready s artifact fs absolute c started) (hp : p ∈ c.paths) :
    started.isFile p = false := by
  obtain ⟨-, made, -, -, rfl⟩ := h
  exact isFile_discard hp

/-- An output is named in the work directory, after the artifact. -/
theorem Ready.path (h : Ready s artifact fs absolute c started) (hp : p ∈ c.paths) :
    ∃ stem suffix, '/' ∉ stem.toList ∧ suffix ∈ [s.structureSuffix, s.weightsSuffix] ∧
      p = s.workDir.join (stem ++ "." ++ suffix) := by
  have hnamed := h.named
  unfold convertedPaths Path.fileStem? at hnamed
  cases hname : artifact.fileName? with
  | none => simp [hname] at hnamed
  | some name =>
    simp only [hname, Option.map_some] at hnamed
    obtain rfl := Except.ok.inj hnamed
    have hstem := Path.not_mem_stem (Path.not_mem_fileName hname)
    rcases List.mem_pair.mp hp with rfl | rfl
    · exact ⟨Path.stem name, s.structureSuffix, hstem, by simp, rfl⟩
    · exact ⟨Path.stem name, s.weightsSuffix, hstem, by simp, rfl⟩

/-- The names of an output go on below the work directory. -/
theorem pathNames_output (s : ProcessSettings) {stem : String} (hstem : '/' ∉ stem.toList)
    (suffix : String) :
    (s.workDir.join (stem ++ "." ++ suffix)).isAbsolute = s.workDir.isAbsolute ∧
      ∃ names ≠ [], pathNames (s.workDir.join (stem ++ "." ++ suffix)) =
        pathNames s.workDir ++ names := by
  have hhead : (stem ++ "." ++ suffix).toList.head? ≠ some '/' := by
    cases hchars : stem.toList with
    | nil => simp [hchars]
    | cons first rest =>
      rw [hchars] at hstem
      simpa [hchars] using fun hslash : first = '/' => hstem (by simp [hslash])
  obtain ⟨-, -, -, habsolute⟩ := Path.body_join_pieces hhead s.workDir
  refine ⟨habsolute (by simp), _, ?_, pathNames_join_pieces hhead s.workDir⟩
  obtain ⟨piece, hpiece, hdot⟩ : ∃ piece ∈ Path.pieces '/' (stem ++ "." ++ suffix).toList,
      '.' ∈ piece := Path.exists_mem_pieces (by simp) (by decide)
  have hmem : piece ∈ (Path.pieces '/' (stem ++ "." ++ suffix).toList).filter (· ≠ []) :=
    List.mem_filter.mpr ⟨hpiece, by simpa using List.ne_nil_of_mem hdot⟩
  exact List.ne_nil_of_mem (List.mem_map_of_mem hmem)

/-- Below a work directory that is there, an output whose place is known is a file only if it was
made. -/
theorem Ready.creates (h : Ready s artifact fs absolute c started) (hrooted : fs.Rooted)
    (hcurrent : after.current = started.current) (hp : p ∈ c.paths) (hreached : Reached s started p)
    (hfile : after.isFile p = true) : Creates started after p := by
  obtain ⟨location, content, hlocate⟩ := isFile_iff.mp hfile
  obtain ⟨hresolve, -⟩ := locate_eq_file_iff.mp hlocate
  refine ⟨location, content, hlocate, fun old hold => ?_⟩
  suffices hback : started.resolve p = .ok (.named location false) by
    have hthere : started.isFile p = true :=
      isFile_iff.mpr ⟨location, old, locate_eq_file_iff.mpr ⟨hback, hold⟩⟩
    rw [h.isFile hp] at hthere
    cases hthere
  rcases hreached with hstraight | ⟨target, htarget⟩
  · obtain ⟨stem, suffix, hstem, -, rfl⟩ := h.path hp
    obtain ⟨habsolute, names, hne, hnames⟩ := pathNames_output s hstem suffix
    obtain ⟨middle, hleads⟩ := h.leads
    rw [hnames, List.drop_left] at hstraight
    have hfront : (pathNames s.workDir).foldlM started.enter
        (if (s.workDir.join (stem ++ "." ++ suffix)).isAbsolute then [] else started.current) =
          .ok middle := by
      rw [habsolute]
      exact hleads
    refine (h.rooted hrooted).resolve_back hcurrent.symm hnames hstraight (.inr hne) hfront hresolve
      ?_ nofun
    rw [Target.location, hold]
    simp
  · rw [htarget, resolve_unique hcurrent htarget hresolve]

/-- The ending of an output's name goes up from no directory if it names none. -/
theorem Ready.reached (h : Ready s artifact fs absolute c started) (hp : p ∈ c.paths)
    (hstructure : '/' ∉ s.structureSuffix.toList) (hweights : '/' ∉ s.weightsSuffix.toList)
    (hfile : after.isFile p = true) : Reached s started p := by
  obtain ⟨stem, suffix, hstem, hsuffix, rfl⟩ := h.path hp
  have hslash : '/' ∉ (stem ++ "." ++ suffix).toList := by
    rcases List.mem_pair.mp hsuffix with rfl | rfl <;> simp [hstem, hstructure, hweights]
  have hnames := pathNames_join hslash (by simp) s.workDir
  -- a path to a file does not end in double dots
  obtain ⟨location, content, hlocate⟩ := isFile_iff.mp hfile
  obtain ⟨front, last, -, hnames', -, -, -, hdots⟩ := named_eq (locate_eq_file_iff.mp hlocate).1
  rw [hnames] at hnames'
  obtain ⟨-, hlast⟩ := List.append_inj' hnames' rfl
  left
  rw [hnames, List.drop_left, hlast]
  simpa using hdots.symm

/-! Commands that end well. -/

/-- Whether a command ended well within the limits of its streams. -/
structure EndedWell (completion : Completion) : Prop where
  ending : completion.ending = .exited 0
  stdout : (streamBytes completion.stdout).length ≤ Command.maxStdoutBytes
  stderr : (streamBytes completion.stderr).length ≤ Command.maxStderrBytes

/-- A command is judged well if and only if it ended well. -/
theorem exists_judge_iff {limitMillis : Option Nat} :
    (∃ body, Command.judge limitMillis completion = .ok body) ↔ EndedWell completion := by
  constructor
  · rintro ⟨body, h⟩
    obtain ⟨⟨hending, hstdout, hstderr⟩, -⟩ := Command.judge_eq_ok_iff.mp h
    exact ⟨hending, hstdout, hstderr⟩
  · intro h
    exact ⟨⟨(streamBytes completion.stdout).toArray⟩,
      Command.judge_eq_ok_iff.mpr ⟨⟨h.ending, h.stdout, h.stderr⟩, rfl⟩⟩

/-- A conversion succeeds only after its converter has ended well, with files for outputs. -/
theorem convert_eq_ok (h : (convert host s artifact shapes).outcome fs = (.ok c, after)) :
    ∃ absolute started completion, Ready s artifact fs absolute c started ∧
      host.run (s.converterInvocation absolute shapes) started = .ok (completion, after) ∧
      EndedWell completion ∧ ∀ p ∈ c.paths, after.isFile p = true := by
  rcases ready_or_refused host s artifact shapes fs with ⟨e, left, hrefused, -⟩ |
    ⟨absolute, c', started, hready⟩
  · cases hrefused.symm.trans h
  rw [hready.outcome] at h
  split at h
  · cases h
  rename_i completion ran hrun
  split at h
  · cases h
  rename_i body hjudge
  obtain ⟨hcheck, rfl⟩ := Prod.mk.inj h
  obtain ⟨_, hchecked, rfl⟩ := map_eq_ok.mp hcheck
  refine ⟨absolute, started, completion, hready, hrun, exists_judge_iff.mp ⟨body, hjudge⟩, ?_⟩
  rw [checkOutputs_eq] at hchecked
  split at hchecked
  · cases hchecked
  · rename_i hnone
    intro p hp
    simpa only [Bool.not_eq_true', Bool.not_eq_false] using List.find?_eq_none.mp hnone p hp

/-- What comes of a converter that ends well is told by the first output that is no file. -/
theorem Ready.outcome_of_ended (h : Ready s artifact fs absolute c started)
    (hrun : host.run (s.converterInvocation absolute shapes) started = .ok (completion, after))
    (hended : EndedWell completion) :
    (convert host s artifact shapes).outcome fs =
      (match c.paths.find? fun p => !after.isFile p with
        | some p => .error (.missingOutput p)
        | none => .ok c, after) := by
  obtain ⟨body, hjudge⟩ := exists_judge_iff.mpr hended
  rw [h.outcome, hrun]
  dsimp only
  rw [hjudge]
  dsimp only
  rw [checkOutputs_eq]
  split <;> rfl

/-- What an output that counts is. -/
structure Counts (s : ProcessSettings) (started after : FileSystem) (p : Path) : Prop where
  gone : started.isFile p = false
  there : after.isFile p = true
  created : Reached s started p → Creates started after p

/-- Stale outputs do not count. A conversion succeeds only after its converter has ended well, and
each of its outputs is a file then where the path led to none before; where the removal reached the
place of an output, it is a file that the converter made. A converter that ends well without making
an output there leaves the first such output missing. The place is always reached if the endings of
the names hold no slash. -/
theorem convert_counts_created
    (hhost : ∀ invocation before completion after,
      host.run invocation before = .ok (completion, after) → after.current = before.current)
    (hrooted : fs.Rooted) (artifact : Path) (shapes : List Shape) :
    (∀ c after, (convert host s artifact shapes).outcome fs = (.ok c, after) →
      ∃ absolute started completion, Ready s artifact fs absolute c started ∧
        host.run (s.converterInvocation absolute shapes) started = .ok (completion, after) ∧
        EndedWell completion ∧ ∀ p ∈ c.paths, Counts s started after p) ∧
      ∀ absolute c started, Ready s artifact fs absolute c started → ∀ completion after,
        host.run (s.converterInvocation absolute shapes) started = .ok (completion, after) →
        EndedWell completion →
        (convert host s artifact shapes).outcome fs =
            (match c.paths.find? fun p => !after.isFile p with
              | some p => .error (.missingOutput p)
              | none => .ok c, after) ∧
          ∀ p ∈ c.paths,
            (Reached s started p → (after.isFile p = true ↔ Creates started after p)) ∧
            ('/' ∉ s.structureSuffix.toList → '/' ∉ s.weightsSuffix.toList →
              after.isFile p = true → Reached s started p) := by
  constructor
  · intro c after h
    obtain ⟨absolute, started, completion, hready, hrun, hended, hthere⟩ := convert_eq_ok h
    refine ⟨absolute, started, completion, hready, hrun, hended, fun p hp => ?_⟩
    exact ⟨hready.isFile hp, hthere p hp, fun hreached =>
      hready.creates hrooted (hhost _ _ _ _ hrun) hp hreached (hthere p hp)⟩
  · intro absolute c started hready completion after hrun hended
    refine ⟨hready.outcome_of_ended hrun hended, fun p hp => ⟨fun hreached => ⟨fun hfile => ?_, ?_⟩,
      fun hstructure hweights hfile => hready.reached hp hstructure hweights hfile⟩⟩
    · exact hready.creates hrooted (hhost _ _ _ _ hrun) hp hreached hfile
    · rintro ⟨location, content, hlocate, -⟩
      exact isFile_iff.mpr ⟨location, content, hlocate⟩

section Stale

/-- A converter that makes nothing. -/
def idle : Host where
  run _ fs := .ok (⟨[], [], .exited 0⟩, fs)

def idleSettings : ProcessSettings where
  converter := { program := "true" }
  runner := { program := "true" }
  workDir := ⟨"w"⟩

/-- An artifact, and the outputs of a run before. -/
def idleFiles : FileSystem :=
  (((FileSystem.put {} ["m.cpa"] (.file .empty)).put ["w"] .directory).put ["w", "m.ncnn.param"]
    (.file .empty)).put ["w", "m.ncnn.bin"] (.file .empty)

theorem rooted_idleFiles : idleFiles.Rooted :=
  (((rooted_empty.put (by decide) (by decide) _).put (by decide) (by decide) _).put (by decide)
    (by decide) _).put (by decide) (by decide) _

/-- The structure is missing if nothing was made, although it was there before. -/
theorem convert_counts_created_idle :
    (∀ invocation before completion after,
      idle.run invocation before = .ok (completion, after) → after.current = before.current) ∧
    idleFiles.Rooted ∧
    ((convert idle idleSettings ⟨"m.cpa"⟩ [[1]]).outcome idleFiles).1 =
      .error (.missingOutput ⟨"w/m.ncnn.param"⟩) := by
  have hhost (invocation : Invocation) (before : FileSystem) (completion : Completion)
      (after : FileSystem) (h : idle.run invocation before = .ok (completion, after)) :
      after.current = before.current := by
    cases h
    rfl
  have hready : Ready idleSettings ⟨"m.cpa"⟩ idleFiles ⟨"/m.cpa"⟩
      ⟨⟨"w/m.ncnn.param"⟩, ⟨"w/m.ncnn.bin"⟩⟩
      (Scenario.discard idleFiles [⟨"w/m.ncnn.param"⟩, ⟨"w/m.ncnn.bin"⟩]) :=
    ⟨by decide +kernel, idleFiles, rfl, rfl, rfl⟩
  refine ⟨hhost, rooted_idleFiles, ?_⟩
  rw [((convert_counts_created hhost rooted_idleFiles ⟨"m.cpa"⟩ [[1]]).2 _ _ _ hready _ _ rfl
    ⟨rfl, Nat.zero_le _, Nat.zero_le _⟩).1]
  decide +kernel

/-- A converter that makes a directory. -/
def climbing : Host where
  run _ fs := .ok (⟨[], [], .exited 0⟩, fs.put ["w", "m.d"] .directory)

/-- Endings that go up again from that directory. -/
def climbingSettings : ProcessSettings where
  converter := { program := "sh", arguments := ["-c", "mkdir m.d", "sh"] }
  runner := { program := "true" }
  workDir := ⟨"w"⟩
  structureSuffix := "d/../old"
  weightsSuffix := "d/../old"

def climbingFiles : FileSystem :=
  ((FileSystem.put {} ["m.cpa"] (.file .empty)).put ["w"] .directory).put ["w", "old"]
    (.file "stale".toUTF8)

/-- A file counts that was there before, as the removal did not find the directory on the way to
it. -/
theorem convert_counts_stale :
    let after := climbingFiles.put ["w", "m.d"] .directory
    (convert climbing climbingSettings ⟨"m.cpa"⟩ [[1]]).outcome climbingFiles =
        (.ok ⟨⟨"w/m.d/../old"⟩, ⟨"w/m.d/../old"⟩⟩, after) ∧
      ¬ Creates climbingFiles after ⟨"w/m.d/../old"⟩ := by
  have hready : Ready climbingSettings ⟨"m.cpa"⟩ climbingFiles ⟨"/m.cpa"⟩
      ⟨⟨"w/m.d/../old"⟩, ⟨"w/m.d/../old"⟩⟩ climbingFiles :=
    ⟨by decide +kernel, climbingFiles, rfl, rfl, rfl⟩
  have hended : EndedWell ⟨[], [], .exited 0⟩ := ⟨rfl, Nat.zero_le _, Nat.zero_le _⟩
  obtain ⟨body, hjudge⟩ : ∃ body, Command.judge none ⟨[], [], .exited 0⟩ = .ok body :=
    exists_judge_iff.mpr hended
  constructor
  · rw [hready.outcome]
    simp only [climbing, climbingSettings, hjudge]
    rfl
  · rintro ⟨location, content, hlocate, hfree⟩
    have hthere : (climbingFiles.put ["w", "m.d"] .directory).locate ⟨"w/m.d/../old"⟩ =
        .ok (["w", "old"], .file "stale".toUTF8) := rfl
    obtain ⟨rfl, -⟩ := Prod.mk.inj (Except.ok.inj (hthere.symm.trans hlocate))
    exact hfree "stale".toUTF8 rfl

end Stale

end ProcessSettings

end TensorParity
