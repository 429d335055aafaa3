import TensorParity.Proofs.Artifact.File
import TensorParity.Proofs.Model.Meaning

/-!
Which exports succeed. A capture asks of a model and its inputs what a run in double precision asks,
and finite constants; of what is captured, the files alone can refuse the export.
-/
namespace TensorParity

/-- Whether a refusal comes from the files. -/
def ArtifactError.FromFiles (e : ArtifactError) : Prop :=
  ∃ path reason, e = Artifact.refused path reason

namespace Artifact

open FileAction

variable {m : Model} {inputs : List (Tensor Float)} {a : Artifact} {p : Path}
  {fs fs' : FileSystem}

theorem checkInputs_of_shapes {position : Nat} {pairs : List (InputDecl × Tensor Float)}
    (h : ∀ pair ∈ pairs, pair.2.shape = pair.1.shape) : checkInputs position pairs = .ok () := by
  induction pairs generalizing position with
  | nil => rfl
  | cons pair pairs ih =>
    obtain ⟨decl, t⟩ := pair
    obtain ⟨hshape, hrest⟩ := List.forall_mem_cons.mp h
    rw [checkInputs, if_pos hshape]
    exact ih hrest

theorem freeze_of_finite {entry : String × Tensor Float} (h : entry.2.Finite) :
    freeze entry = .ok ⟨entry.1, entry.2⟩ := by
  have hall : entry.2.data.all Float.isFinite = true := by
    rw [← Array.all_toList]
    exact List.all_eq_true.mpr h
  exact if_pos hall

/-- A capture of inputs of the declared shapes freezes the constants and traces the nodes. -/
theorem capture_of_shapes (hcount : inputs.length = m.inputs.length)
    (hshapes : ∀ pair ∈ m.inputs.zip inputs, pair.2.shape = pair.1.shape) :
    capture m inputs = m.constants.entries.mapM freeze >>= fun constants =>
      (m.trace .double inputs).mapError .trace >>= fun shapes =>
        .ok ⟨m.name, ⟨m.inputs, m.nodes, m.outputs, shapes⟩, constants⟩ := by
  unfold capture
  rw [if_neg (not_not_intro hcount.symm), checkInputs_of_shapes hshapes]
  rfl

/-- A model that has outputs in double precision is captured if its constants are finite. -/
theorem exists_capture {reference : OutputTuple} (hrun : m.run .double inputs = .ok reference)
    (hfinite : ∀ entry ∈ m.constants.entries, entry.2.Finite) : ∃ a, capture m inputs = .ok a := by
  obtain ⟨values, hvalues, -⟩ := bind_eq_ok.mp hrun
  obtain ⟨hdeclared, -⟩ := Model.evaluate_eq_ok_iff.mp hvalues
  obtain ⟨hlength, hshapes⟩ := List.forall₂_iff_zip.mp hdeclared
  have hconstants : m.constants.entries.mapM freeze =
      .ok (m.constants.entries.map fun entry => ⟨entry.1, entry.2⟩) :=
    mapM_ok fun entry hentry => freeze_of_finite (hfinite entry hentry)
  rw [capture_of_shapes hlength.symm fun _ hpair => hshapes hpair, hconstants, ok_bind, Model.trace,
    hvalues]
  exact ⟨_, rfl⟩

theorem makeParent_eq_error {e : ArtifactError}
    (h : (makeParent p).outcome fs = (.error e, fs')) : e.FromFiles := by
  unfold makeParent at h
  split at h
  · rcases makeDirectories_cases h with ⟨⟨⟩, -⟩ | ⟨reason, herror, -⟩
    exact ⟨_, reason, Except.error.inj herror⟩
  · cases h

theorem publish_eq_error {staging : Path} {e : ArtifactError}
    (h : (publish staging p).outcome fs = (.error e, fs')) : e.FromFiles := by
  rw [publish, outcome_bind, outcome_get] at h
  dsimp only at h
  split at h
  · cases h
  · rename_i reason hrename
    rcases bind_cases h with ⟨_, hattempt, -⟩ | ⟨_, after, -, h⟩
    · rw [outcome_attempt] at hattempt
      split at hattempt <;> cases hattempt
    · rw [outcome_throw] at h
      obtain ⟨herror, -⟩ := Prod.mk.inj h
      exact ⟨p, reason, (Except.error.inj herror).symm⟩

theorem stage_eq_error {name : String} {e : ArtifactError} (hname : p.fileName? = some name)
    (h : (stage a p).outcome fs = (.error e, fs')) : e.FromFiles := by
  simp only [stage, hname] at h
  rw [outcome_bind, outcome_get] at h
  rcases bind_cases h with ⟨_, hwrite, herror⟩ | ⟨_, written, -, h⟩
  · obtain rfl := Except.error.inj herror
    exact ⟨_, (change_eq_error hwrite).2⟩
  · exact publish_eq_error h

/-- At a place that has a name the files alone refuse an artifact. -/
theorem write_eq_error {name : String} {e : ArtifactError} (hname : p.fileName? = some name)
    (h : (a.write p).outcome fs = (.error e, fs')) : e.FromFiles := by
  rw [write_eq] at h
  rcases bind_cases h with ⟨_, hparent, herror⟩ | ⟨_, middle, -, h⟩
  · obtain rfl := Except.error.inj herror
    exact makeParent_eq_error hparent
  · exact stage_eq_error hname h

/-- So they do an export of a model that is captured. -/
theorem export_eq_error {name : String} {e : ArtifactError} (hcapture : capture m inputs = .ok a)
    (hname : p.fileName? = some name)
    (h : (exportModel m inputs p).outcome fs = (.error e, fs')) : e.FromFiles := by
  rw [exportModel, outcome_bind, outcome_lift, hcapture] at h
  rcases bind_cases h with ⟨_, hwrite, herror⟩ | ⟨_, written, -, h⟩
  · obtain rfl := Except.error.inj herror
    exact write_eq_error hname hwrite
  · cases h

end Artifact

end TensorParity
