import TensorParity.Proofs.Suite.Stages

/-!
What a run has learned when it ends. An entry of its trail is there exactly if the stage that fills
it has succeeded, and then it is what came of that stage.
-/
namespace TensorParity

section Learned

variable {α β : Type} {P : α → Prop} {f : α → β}

end Learned

namespace Scenario

section Reached

variable (s : Scenario) (backend : Backend) (settings : Settings) (fs : FileSystem)

/-- The reference run has these outputs. -/
def HasReference (reference : OutputTuple) : Prop :=
  ∃ setup, s.Prepared setup reference

/-- The model is exported as this artifact. -/
def HasArtifact (artifact : Artifact) : Prop :=
  ∃ setup reference exported, s.Exported settings fs setup reference artifact exported

/-- The artifact is converted into these files. -/
def HasConverted (converted : Converted) : Prop :=
  ∃ setup reference artifact exported translated,
    s.Translated backend settings fs setup reference artifact exported converted translated

/-- Inference on the converted files has these outputs. -/
def HasTarget (target : OutputTuple) : Prop :=
  ∃ setup reference artifact exported converted translated after,
    s.Translated backend settings fs setup reference artifact exported converted translated ∧
      (backend.infer converted setup.inputs).outcome translated = (.ok target, after)

end Reached

variable {s : Scenario} {backend : Backend} {settings : Settings} {fs : FileSystem}

theorem HasReference.unique (reference reference' : OutputTuple) (h : s.HasReference reference)
    (h' : s.HasReference reference') : reference = reference' := by
  obtain ⟨_, hprepared⟩ := h
  obtain ⟨_, hprepared'⟩ := h'
  exact (hprepared.unique hprepared').2

theorem HasArtifact.unique (artifact artifact' : Artifact) (h : s.HasArtifact settings fs artifact)
    (h' : s.HasArtifact settings fs artifact') : artifact = artifact' := by
  obtain ⟨_, _, _, hexported⟩ := h
  obtain ⟨_, _, _, hexported'⟩ := h'
  exact (hexported.unique hexported').1

theorem HasConverted.unique (converted converted' : Converted)
    (h : s.HasConverted backend settings fs converted)
    (h' : s.HasConverted backend settings fs converted') : converted = converted' := by
  obtain ⟨_, _, _, _, _, htranslated⟩ := h
  obtain ⟨_, _, _, _, _, htranslated'⟩ := h'
  exact (htranslated.unique htranslated').1

theorem HasTarget.unique (target target' : OutputTuple)
    (h : s.HasTarget backend settings fs target) (h' : s.HasTarget backend settings fs target') :
    target = target' := by
  obtain ⟨_, _, _, _, _, _, _, htranslated, hinfer⟩ := h
  obtain ⟨_, _, _, _, _, _, _, htranslated', hinfer'⟩ := h'
  obtain ⟨rfl, -⟩ := htranslated.toPrepared.unique htranslated'.toPrepared
  obtain ⟨rfl, rfl⟩ := htranslated.unique htranslated'
  exact Except.ok.inj (Prod.mk.inj (hinfer.symm.trans hinfer')).1

/-! A stage that has succeeded was preceded by one that has. -/

theorem HasTarget.converted {target : OutputTuple} (h : s.HasTarget backend settings fs target) :
    ∃ converted, s.HasConverted backend settings fs converted := by
  obtain ⟨_, _, _, _, converted, _, _, htranslated, -⟩ := h
  exact ⟨converted, _, _, _, _, _, htranslated⟩

theorem HasConverted.artifact {converted : Converted}
    (h : s.HasConverted backend settings fs converted) :
    ∃ artifact, s.HasArtifact settings fs artifact := by
  obtain ⟨_, _, artifact, _, _, htranslated⟩ := h
  exact ⟨artifact, _, _, _, htranslated.toExported⟩

theorem HasArtifact.reference {artifact : Artifact} (h : s.HasArtifact settings fs artifact) :
    ∃ reference, s.HasReference reference := by
  obtain ⟨_, reference, _, hexported⟩ := h
  exact ⟨reference, _, hexported.toPrepared⟩

namespace Ends

variable {result : Except ScenarioFailure Verdict} {st : RunState}

end Ends

end Scenario

end TensorParity
