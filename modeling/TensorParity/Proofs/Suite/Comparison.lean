import TensorParity.Proofs.Artifact.Capture
import TensorParity.Proofs.Artifact.Export
import TensorParity.Proofs.Backend.Loopback
import TensorParity.Proofs.Comparison.Verdict
import TensorParity.Proofs.Scenario.Registry
import TensorParity.Proofs.Suite.Stages

/-!
Runs on the back end without external programs. Each stage takes what the stage before it made, so a
run whose reference has outputs ends with a comparison of these outputs with those at single
precision, which have the same shapes.
-/
namespace TensorParity

variable {m : Model} {p : Precision} {inputs : List (Tensor Float)} {a : Artifact}

theorem Model.outputs_ne_nil (m : Model) : m.outputs ≠ [] :=
  (check_eq_ok_iff.mp m.valid).2.2.1

/-- A run yields at least one output. -/
theorem Model.run_ne_nil {outputs : OutputTuple} (h : m.run p inputs = .ok outputs) :
    outputs ≠ [] := by
  obtain ⟨values, -, h⟩ := bind_eq_ok.mp h
  rintro rfl
  exact m.outputs_ne_nil (List.forall₂_nil_right_iff.mp (mapM_eq_ok_iff.mp h))

/-- Tuples of the same shapes differ in numbers at most. -/
theorem compare_of_sameShape {t : Tolerance} {reference target : OutputTuple}
    (husable : t.valid = true) (hsome : reference ≠ [])
    (hshapes : List.Forall₂ SameShape reference target) :
    ∃ verdict, compare reference target t = .ok verdict ∧
      (verdict.code = "equivalent" ∨ verdict.code = "numeric_mismatch") ∧
      1 ≤ verdict.pairsChecked := by
  have hjudged := judged_compare t reference target
  generalize compare reference target t = result at hjudged ⊢
  cases hjudged with
  | invalid hnot => exact absurd ((t.valid_iff).mp husable) hnot
  | length _ hlength => exact absurd hshapes.length_eq hlength
  | empty _ hreference _ => exact absurd hreference hsome
  | passed _ _ _ => exact ⟨_, rfl, .inl rfl, List.length_pos_iff.mpr hsome⟩
  | @failed position r x mismatch _ _ _ hr hx hdiffers =>
    refine ⟨_, rfl, .inr ?_, Nat.le_add_left 1 position⟩
    cases hdiffers with
    | shape hshape => exact absurd (related_getElem? hshapes hr hx) hshape
    | numeric => rfl

/-- Failures to change files. -/
inductive ScenarioFailure.FromFiles : ScenarioFailure → Prop
  | artifact {e : ArtifactError} (h : e.FromFiles) : FromFiles (.capture e)
  | converted (path : Path) (e : FileError) : FromFiles (.conversion (.file path e))

namespace Scenario

variable {s : Scenario} {settings : Settings} {setup : ScenarioSetup} {reference : OutputTuple}
  {workDir : Path} {fs : FileSystem}

/-- The place of a scenario's artifact has a name. -/
theorem fileName?_artifactPath (s : Scenario) (workDir : Path) :
    (s.artifactPath workDir).fileName? =
      some (s.canonicalName ++ "." ++ Artifact.extension) := by
  have hname : (s.canonicalName ++ "." ++ Artifact.extension).toList =
      s.name.toList.map Text.caseChar ++ ['.', 'c', 'p', 'a'] := by
    simp [canonicalName, Text.caseName, Artifact.extension]
  have hlong : 4 ≤ (s.canonicalName ++ "." ++ Artifact.extension).toList.length := by
    simp [hname]
  refine Path.fileName?_join ?_ ?_ ?_ ?_ workDir
  · rw [hname]
    simp [Text.caseChar_ne (show Text.isCaseChar '/' = false from rfl)]
  all_goals
    intro hshort
    rw [hshort] at hlong
    contradiction

/-- What a run on the back end asks for besides outputs for reference. -/
structure Sound (s : Scenario) (settings : Settings) (setup : ScenarioSetup)
    (reference : OutputTuple) : Prop extends Prepared s setup reference where
  finite : ∀ entry ∈ setup.model.constants.entries, entry.2.Finite
  tolerance : settings.tolerance.valid = true
  fits : ∀ a, Artifact.capture setup.model setup.inputs = .ok a → Loopback.Fits a

/-- An artifact that was exported is converted, and inference is the run at single precision. -/
theorem Sound.infer_eq_run {exported : FileSystem} (h : s.Sound settings setup reference)
    (workDir : Path) (hexported : s.Exported settings fs setup reference a exported)
    (hfiles : ∀ path e, ((Loopback.convert workDir (s.artifactPath settings.workDir)
      setup.inputShapes).outcome exported).1 ≠ .error (.file path e)) :
    ∃ c translated, (Loopback.convert workDir (s.artifactPath settings.workDir)
        setup.inputShapes).outcome exported = (.ok c, translated) ∧
      (Loopback.infer c setup.inputs).outcome translated =
        ((setup.model.run .single setup.inputs).mapError .execution, translated) := by
  obtain ⟨hcapture, -⟩ := Artifact.export_eq_ok hexported.captured
  have hshapes : setup.inputShapes = setup.model.inputShapes := Artifact.shapes_of_capture hcapture
  obtain ⟨htext, hstructure, hweights⟩ := h.fits a hcapture
  rw [hshapes] at hfiles ⊢
  exact Loopback.infer_eq_run hexported.captured htext hstructure hweights hfiles

theorem Sound.infer_of_convert {exported translated : FileSystem} {c : Converted}
    (h : s.Sound settings setup reference)
    (htranslated : s.Translated (.loopback workDir) settings fs setup reference a exported c
      translated) :
    (Loopback.infer c setup.inputs).outcome translated =
      ((setup.model.run .single setup.inputs).mapError .execution, translated) := by
  have hconverts : (Loopback.convert workDir (s.artifactPath settings.workDir)
      setup.inputShapes).outcome exported = (.ok c, translated) := htranslated.converts
  obtain ⟨c', translated', hconverts', hinfer⟩ := h.infer_eq_run workDir htranslated.toExported
    fun path e hrefused => by
      rw [hconverts] at hrefused
      cases hrefused
  rw [hconverts] at hconverts'
  cases hconverts'
  exact hinfer

/-- A run compares the reference with the outputs at single precision, if there are any, or the files
refuse a change. -/
theorem Sound.result_cases (h : s.Sound settings setup reference) (workDir : Path)
    (fs : FileSystem) :
    let result := ((s.run (.loopback workDir) settings).run fs).1.result
    (∃ failure, result = .error failure ∧ failure.FromFiles) ∨
      result = match setup.model.run .single setup.inputs with
        | .ok target => (compare reference target settings.tolerance).mapError .comparison
        | .error e => .error (.inference (.execution e)) := by
  dsimp only
  rw [result_run]
  have hends := s.ends_stages (.loopback workDir) settings fs
  generalize (s.stages (.loopback workDir) settings).outcome ⟨{}, fs⟩ = ended at hends ⊢
  obtain ⟨result, st⟩ := ended
  dsimp only at hends ⊢
  cases hends with
  | setup hsetup =>
    rw [h.built] at hsetup
    cases hsetup
  | reference hsetup hreference =>
    obtain rfl := Except.ok.inj (h.built.symm.trans hsetup)
    rw [h.ran] at hreference
    cases hreference
  | capture hprepared hexport =>
    obtain ⟨rfl, rfl⟩ := h.toPrepared.unique hprepared
    -- a capture asks for nothing that the reference run did not have
    obtain ⟨a, hcapture⟩ := Artifact.exists_capture h.ran h.finite
    have hrefused := Artifact.export_eq_error hcapture (s.fileName?_artifactPath _) hexport
    exact .inl ⟨_, rfl, .artifact hrefused⟩
  | @conversion _ _ _ _ _ e hexported hconversion =>
    obtain ⟨rfl, rfl⟩ := h.toPrepared.unique hexported.toPrepared
    have hconvert : (Loopback.convert workDir (s.artifactPath settings.workDir) _).outcome _ =
      (.error e, _) := hconversion
    by_cases hfile : ∃ path reason, e = .file path reason
    · obtain ⟨path, reason, rfl⟩ := hfile
      exact .inl ⟨_, rfl, .converted path reason⟩
    · obtain ⟨c, translated, hconverts, -⟩ := h.infer_eq_run workDir hexported
        fun path reason hrefused => by
          rw [hconvert] at hrefused
          exact hfile ⟨path, reason, Except.error.inj hrefused⟩
      rw [hconvert] at hconverts
      cases hconverts
  | inference htranslated hinference =>
    obtain ⟨rfl, rfl⟩ := h.toPrepared.unique htranslated.toPrepared
    have hinfer := hinference.symm.trans (h.infer_of_convert htranslated)
    obtain ⟨e, hsingle, rfl⟩ := mapError_eq_error.mp (congrArg Prod.fst hinfer).symm
    rw [hsingle]
    exact .inr rfl
  | compared htranslated htarget =>
    obtain ⟨rfl, rfl⟩ := h.toPrepared.unique htranslated.toPrepared
    have hinfer := htarget.symm.trans (h.infer_of_convert htranslated)
    rw [mapError_eq_ok.mp (congrArg Prod.fst hinfer).symm]
    exact .inr rfl

theorem Sound.result_eq (h : s.Sound settings setup reference)
    (hfiles : ∀ failure, ((s.run (.loopback workDir) settings).run fs).1.result = .error failure →
      ¬ failure.FromFiles) :
    ((s.run (.loopback workDir) settings).run fs).1.result =
      match setup.model.run .single setup.inputs with
      | .ok target => (compare reference target settings.tolerance).mapError .comparison
      | .error e => .error (.inference (.execution e)) := by
  rcases h.result_cases workDir fs with ⟨failure, hfailure, hrefused⟩ | hresult
  · exact absurd hrefused (hfiles failure hfailure)
  · exact hresult

/-- A run whose files can be changed reaches a verdict on numbers, that of the reference against the
outputs at single precision, unless a deformable convolution leaves its input at single precision,
which ends the run in inference. -/
theorem run_compares (h : s.Sound settings setup reference)
    (hfiles : ∀ failure, ((s.run (.loopback workDir) settings).run fs).1.result = .error failure →
      ¬ failure.FromFiles) :
    let result := ((s.run (.loopback workDir) settings).run fs).1.result
    ((∃ verdict, result = .ok verdict ∧
        (verdict.code = "equivalent" ∨ verdict.code = "numeric_mismatch") ∧
        1 ≤ verdict.pairsChecked) ↔
      ∀ node, setup.model.run .single setup.inputs ≠ .error (.outside node)) ∧
    (∀ target, setup.model.run .single setup.inputs = .ok target →
      result = (compare reference target settings.tolerance).mapError .comparison) ∧
    ∀ node, setup.model.run .single setup.inputs = .error (.outside node) →
      result = .error (.inference (.execution (.outside node))) := by
  dsimp only
  rw [h.result_eq hfiles]
  have hinputs : List.Forall₂ SameShape setup.inputs setup.inputs :=
    List.forall₂_same.mpr fun _ _ => rfl
  rcases (Model.alike_run (q := .single) (.refl setup.model) hinputs).eq_ok_or h.ran with
    ⟨target, hsingle, hshapes⟩ | ⟨node, hsingle⟩
  · obtain ⟨verdict, hcompare, hverdict⟩ :=
      compare_of_sameShape h.tolerance (Model.run_ne_nil h.ran) hshapes
    simp only [hsingle]
    refine ⟨⟨fun _ _ => nofun, fun _ => ⟨verdict, ?_, hverdict⟩⟩, fun other hother => ?_, nofun⟩
    · rw [hcompare]
      rfl
    · rw [Except.ok.inj hother]
  · simp only [hsingle]
    refine ⟨⟨?_, fun hnever => absurd rfl (hnever node)⟩, nofun, fun other hother => ?_⟩
    · rintro ⟨_, hok, -⟩
      cases hok
    · rw [Except.error.inj hother]

end Scenario

section Alone

/-- A scenario of one setup. -/
def alone (setup : ScenarioSetup) : Scenario :=
  { name := "a"
    family := .deformConv2d
    seed := 1
    axes := [.parameterCardinality]
    build := fun _ => .ok setup }

/-- Artifacts without a directory. -/
def aloneSettings : Settings := { workDir := ⟨""⟩ }

variable {setup : ScenarioSetup}

theorem artifactPath_alone : (alone setup).artifactPath aloneSettings.workDir = ⟨"a.cpa"⟩ := by
  have hname : Text.caseName "a" = "a" := by decide +kernel
  have hpath : Path.join ⟨""⟩ (Text.caseName "a" ++ "." ++ Artifact.extension) = ⟨"a.cpa"⟩ := by
    rw [hname]
    decide +kernel
  exact hpath

/-- The files refuse nothing where there are none. -/
theorem run_alone_at {dir : Path} (hdir : dir = ⟨"w"⟩ ∨ dir = ⟨""⟩)
    (hcapture : Artifact.capture setup.model setup.inputs = .ok a)
    (hsize : a.encode.utf8ByteSize ≤ Artifact.maxBytes) (failure : ScenarioFailure)
    (hfailure : (((alone setup).run (.loopback dir) aloneSettings).run {}).1.result =
      .error failure) : ¬ failure.FromFiles := by
  have hexport := Loopback.export_lone hcapture
  have hconverts := Loopback.convert_lone_at hdir (Artifact.load_of_export hexport hsize)
  rw [Artifact.inputShapes_of_capture hcapture] at hconverts
  rw [Scenario.result_run] at hfailure
  have hends := (alone setup).ends_stages (.loopback dir) aloneSettings {}
  generalize ((alone setup).stages (.loopback dir) aloneSettings).outcome ⟨{}, {}⟩ = ended
    at hends hfailure
  obtain ⟨result, st⟩ := ended
  dsimp only at hends hfailure
  cases hends with
  | setup | reference | inference =>
    cases hfailure
    rintro ⟨⟩
  | capture hprepared hfailed =>
    obtain rfl := Except.ok.inj hprepared.built
    rw [artifactPath_alone, hexport] at hfailed
    cases hfailed
  | conversion hexported hfailed =>
    obtain rfl := Except.ok.inj hexported.built
    have hcaptured := hexported.captured
    rw [artifactPath_alone, hexport] at hcaptured
    rw [artifactPath_alone] at hfailed
    cases hcaptured
    cases hfailure
    rintro ⟨⟩
    exact hconverts _ _ (congrArg Prod.fst hfailed)
  | compared =>
    obtain ⟨e, -, rfl⟩ := mapError_eq_error.mp hfailure
    rintro ⟨⟩

theorem run_alone (hcapture : Artifact.capture setup.model setup.inputs = .ok a)
    (hsize : a.encode.utf8ByteSize ≤ Artifact.maxBytes) (failure : ScenarioFailure)
    (hfailure : (((alone setup).run (.loopback ⟨"w"⟩) aloneSettings).run {}).1.result =
      .error failure) : ¬ failure.FromFiles :=
  run_alone_at (.inl rfl) hcapture hsize failure hfailure

/-- A setup whose outputs are the same at both precisions. -/
def plainSetup : ScenarioSetup :=
  ⟨Artifact.sampleModel, [⟨[1, 1], #[0.5], by decide⟩]⟩

theorem sound_plain : (alone plainSetup).Sound aloneSettings plainSetup
    [⟨[1, 1], #[0.5], by decide⟩] where
  built := rfl
  ran := by decide +kernel
  finite := by
    unfold Tensor.Finite
    decide +kernel
  tolerance := by decide +kernel
  fits := by
    intro a hcapture
    obtain rfl := Except.ok.inj (Artifact.capture_sample.symm.trans hcapture)
    exact Loopback.fits_of_writable (Artifact.writable_of_capture hcapture) (by decide +kernel)
      (by decide +kernel) (by decide +kernel)

theorem run_single_plain : plainSetup.model.run .single plainSetup.inputs =
    .ok [⟨[1, 1], #[0.5], by decide⟩] := by
  decide +kernel

/-- Its run reaches a verdict. -/
theorem run_compares_plain :
    ∃ verdict,
      (((alone plainSetup).run (.loopback ⟨"w"⟩) aloneSettings).run {}).1.result = .ok verdict ∧
        (verdict.code = "equivalent" ∨ verdict.code = "numeric_mismatch") ∧
        1 ≤ verdict.pairsChecked := by
  have hsize := (sound_plain.fits _ Artifact.capture_sample).text
  refine (Scenario.run_compares sound_plain (run_alone Artifact.capture_sample hsize)).1.mpr ?_
  rw [run_single_plain]
  nofun

/-- A setup that single precision takes out of an empty plane. -/
def hollowSetup : ScenarioSetup := ⟨Loopback.overflowing, Loopback.overflowingInputs⟩

theorem sound_hollow : (alone hollowSetup).Sound aloneSettings hollowSetup
    [⟨[1, 1, 2, 3], Array.replicate 6 0.0, by decide⟩] where
  built := rfl
  ran := by decide +kernel
  finite := by
    unfold Tensor.Finite
    decide +kernel
  tolerance := by decide +kernel
  fits := by
    intro a hcapture
    obtain rfl := Except.ok.inj (Loopback.capture_overflowing.symm.trans hcapture)
    exact Loopback.fits_overflowing

/-- A run that has all that a comparison asks for ends in inference. -/
theorem run_without_verdict :
    (alone hollowSetup).Sound aloneSettings hollowSetup
        [⟨[1, 1, 2, 3], Array.replicate 6 0.0, by decide⟩] ∧
      (∀ failure, (((alone hollowSetup).run (.loopback ⟨"w"⟩) aloneSettings).run {}).1.result =
        .error failure → ¬ failure.FromFiles) ∧
      (((alone hollowSetup).run (.loopback ⟨"w"⟩) aloneSettings).run {}).1.result =
        .error (.inference (.execution (.outside "y"))) := by
  have hcapture : Artifact.capture hollowSetup.model hollowSetup.inputs =
      .ok Loopback.overflowingArtifact := Loopback.capture_overflowing
  have hfiles := run_alone hcapture Loopback.fits_overflowing.text
  refine ⟨sound_hollow, hfiles, ?_⟩
  rw [sound_hollow.result_eq hfiles]
  have hsingle : hollowSetup.model.run .single hollowSetup.inputs = .error (.outside "y") :=
    Loopback.run_overflowing
  rw [hsingle]

end Alone

end TensorParity
