import TensorParity.Proofs.Scenario.Registry
import TensorParity.Proofs.Suite.Places

/-!
File names of scenarios. Every file of a run is named by the canonical name of its scenario up to a
dot, and no canonical name holds a dot, so two scenarios of one registry share no file name in a
common directory, whatever the endings of converted files are.
-/
namespace TensorParity

namespace Scenario

variable {s : Scenario} {structureSuffix weightsSuffix : String}

/-- The files that a run works with in a directory: the artifact, the file a process stages it in,
and both files of a conversion with these endings. -/
def workFiles (s : Scenario) (workDir : Path) (process : Nat)
    (structureSuffix weightsSuffix : String) : Except ConversionError (List Path) := do
  let artifact := s.artifactPath workDir
  let some name := artifact.fileName? | .error (.noStem artifact)
  let staging := artifact.sibling (Artifact.stagingName process name)
  let converted ← convertedPaths workDir artifact structureSuffix weightsSuffix
  return [artifact, staging] ++ converted.paths

/-- Names of files that carry the name of a scenario. -/
def NamesFile (s : Scenario) (p : Path) : Prop :=
  ∃ name, p.fileName? = some name ∧ leadName name = s.canonicalName.toList

theorem namesFile_join (hs : s.canonicalName ≠ "") (dir : Path) {name : String}
    (h : s.Carries name) : s.NamesFile (dir.join name) := by
  have hother (dotted : String) (hdotted : leadName dotted = []) : name.toList ≠ dotted.toList :=
    fun hsame => h.ne_dotted hs dotted hdotted (String.toList_inj.mp hsame)
  exact ⟨name, Path.fileName?_join h.noSlash (hother "" (by decide)) (hother "." (by decide))
    (hother ".." (by decide)) dir, h.lead⟩

/-- All files of a run have names, which carry the name of the scenario. -/
theorem exists_workFiles (hs : s.canonicalName ≠ "") (workDir : Path) (process : Nat)
    (hstructure : '/' ∉ structureSuffix.toList) (hweights : '/' ∉ weightsSuffix.toList) :
    ∃ files, s.workFiles workDir process structureSuffix weightsSuffix = .ok files ∧
      ∀ p ∈ files, s.NamesFile p := by
  have hname := s.fileName?_artifactPath workDir
  have hconverted : convertedPaths workDir (s.artifactPath workDir) structureSuffix weightsSuffix =
      .ok ⟨workDir.join (s.canonicalName ++ "." ++ structureSuffix),
        workDir.join (s.canonicalName ++ "." ++ weightsSuffix)⟩ := by
    rw [convertedPaths, fileStem?_artifactPath hs]
  have hending (suffix : String) (hsuffix : '/' ∉ suffix.toList) :
      s.NamesFile (workDir.join (s.canonicalName ++ "." ++ suffix)) :=
    namesFile_join hs workDir (carries_suffix hs hsuffix)
  have hstaging : s.NamesFile ((s.artifactPath workDir).sibling
      (Artifact.stagingName process (s.canonicalName ++ "." ++ Artifact.extension))) := by
    rw [Path.sibling, hname]
    exact namesFile_join hs _ (carries_stagingName hs process)
  have hfiles : s.workFiles workDir process structureSuffix weightsSuffix = .ok
      [s.artifactPath workDir,
        (s.artifactPath workDir).sibling
          (Artifact.stagingName process (s.canonicalName ++ "." ++ Artifact.extension)),
        workDir.join (s.canonicalName ++ "." ++ structureSuffix),
        workDir.join (s.canonicalName ++ "." ++ weightsSuffix)] := by
    unfold workFiles
    dsimp only
    rw [hname]
    dsimp only
    rw [hconverted, ok_bind]
    dsimp only [Converted.paths, List.cons_append, List.nil_append]
    rfl
  refine ⟨_, hfiles, ?_⟩
  simp only [List.forall_mem_cons, List.not_mem_nil, false_implies, implies_true, and_true]
  exact ⟨hending Artifact.extension (by decide), hstaging, hending structureSuffix hstructure,
    hending weightsSuffix hweights⟩

end Scenario

namespace Registry

variable {r : Registry} {s t : Scenario} {i j : Nat}

/-- Scenarios at different places of a registry have different names. -/
theorem canonicalName_ne (hij : i ≠ j) (hs : r.scenarios[i]? = some s)
    (ht : r.scenarios[j]? = some t) : s.canonicalName ≠ t.canonicalName := by
  intro hsame
  have hi : i < (r.scenarios.map Scenario.canonicalName).length := by
    rw [List.length_map]
    exact (List.getElem?_eq_some_iff.mp hs).1
  refine hij ((List.getElem?_inj hi r.acceptable.distinct).mp ?_)
  rw [List.getElem?_map, List.getElem?_map, hs, ht, Option.map_some, Option.map_some, hsame]

/-- Scenarios make a registry exactly when their names are not empty, differ, and each has a primary
axis. No file of one of them has the name of a file of another. -/
theorem keeps_files_apart (scenarios : List Scenario) :
    ((∃ r, ofScenarios scenarios = .ok r) ↔
      (∀ s ∈ scenarios, s.canonicalName ≠ "") ∧ (scenarios.map Scenario.canonicalName).Nodup ∧
        ∀ s ∈ scenarios, ∃ axis ∈ s.axes, axis.isPrimary = true) ∧
    ∀ r, ofScenarios scenarios = .ok r → r.scenarios = scenarios ∧
      ∀ (i j : Nat) (s t : Scenario), i ≠ j → r.scenarios[i]? = some s → r.scenarios[j]? = some t →
        ∀ (workDir : Path) (process process' : Nat) (structureSuffix weightsSuffix : String),
          '/' ∉ structureSuffix.toList → '/' ∉ weightsSuffix.toList →
          ∃ files files',
            s.workFiles workDir process structureSuffix weightsSuffix = .ok files ∧
            t.workFiles workDir process' structureSuffix weightsSuffix = .ok files' ∧
            ∀ p ∈ files, ∀ q ∈ files', ∃ name name',
              p.fileName? = some name ∧ q.fileName? = some name' ∧ name ≠ name' := by
  refine ⟨exists_ofScenarios_iff.trans ⟨fun h => ⟨h.named, h.distinct, h.primary⟩,
    fun ⟨hnamed, hdistinct, hprimary⟩ => ⟨hnamed, hdistinct, hprimary⟩⟩, fun r hr =>
    ⟨ofScenarios_eq_ok_iff.mp hr, ?_⟩⟩
  intro i j s t hij hs ht workDir process process' structureSuffix weightsSuffix hstructure hweights
  have hname {k : Nat} {u : Scenario} (hu : r.scenarios[k]? = some u) : u.canonicalName ≠ "" :=
    r.acceptable.named u (List.mem_of_getElem? hu)
  obtain ⟨files, hfiles, hnames⟩ :=
    Scenario.exists_workFiles (hname hs) workDir process hstructure hweights
  obtain ⟨files', hfiles', hnames'⟩ :=
    Scenario.exists_workFiles (hname ht) workDir process' hstructure hweights
  refine ⟨files, files', hfiles, hfiles', fun p hp q hq => ?_⟩
  obtain ⟨name, hfile, hlead⟩ := hnames p hp
  obtain ⟨name', hfile', hlead'⟩ := hnames' q hq
  refine ⟨name, name', hfile, hfile', ?_⟩
  -- one name would lead with both canonical names
  rintro rfl
  exact canonicalName_ne hij hs ht (String.toList_inj.mp (hlead.symm.trans hlead'))

/-- Names that are spelled alike but for a character make a registry and keep their files apart. -/
theorem keeps_files_apart_alike :
    ∃ r files files',
      ofScenarios
        [{ alone plainSetup with name := "A.b" }, { alone plainSetup with name := "a-b" }] = .ok r ∧
      Scenario.workFiles { alone plainSetup with name := "A.b" } ⟨"w"⟩ 7 "b.x" "b.y" = .ok files ∧
      Scenario.workFiles { alone plainSetup with name := "a-b" } ⟨"w"⟩ 8 "b.x" "b.y" = .ok files' ∧
      ∀ p ∈ files, ∀ q ∈ files', ∃ name name',
        p.fileName? = some name ∧ q.fileName? = some name' ∧ name ≠ name' := by
  have hfirst : Text.caseName "A.b" = "a_b" := by decide +kernel
  have hsecond : Text.caseName "a-b" = "a-b" := by decide +kernel
  obtain ⟨haccepts, hapart⟩ := keeps_files_apart
    [{ alone plainSetup with name := "A.b" }, { alone plainSetup with name := "a-b" }]
  obtain ⟨r, hr⟩ := haccepts.mpr (by
    refine ⟨?_, ?_, ?_⟩ <;>
      simp [Scenario.canonicalName, hfirst, hsecond, alone, CoverageAxis.isPrimary])
  obtain ⟨hscenarios, hapart⟩ := hapart r hr
  obtain ⟨files, files', hfiles, hfiles', hnames⟩ := hapart 0 1 _ _ (by decide)
    (by rw [hscenarios]; rfl) (by rw [hscenarios]; rfl) ⟨"w"⟩ 7 8 "b.x" "b.y" (by decide)
    (by decide)
  exact ⟨r, files, files', hr, hfiles, hfiles', hnames⟩

end Registry

end TensorParity
