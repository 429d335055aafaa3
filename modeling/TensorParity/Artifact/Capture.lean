import TensorParity.Artifact.Basic

/-!
Freezing a model into an artifact, and replaying it from one.
-/
namespace TensorParity

namespace Artifact

/-- The first input whose shape is not the declared one. -/
def checkInputs (position : Nat) : List (InputDecl × Tensor Float) → Except ArtifactError Unit
  | [] => .ok ()
  | (decl, t) :: rest =>
    if t.shape = decl.shape then checkInputs (position + 1) rest
    else .error (.inputShape position decl.name decl.shape t.shape)

/-- A constant whose elements are all finite. -/
def freeze : String × Tensor Float → Except ArtifactError FrozenConstant
  | (name, t) =>
    if t.data.all Float.isFinite then .ok ⟨name, t⟩ else .error (.nonFinite name)

/-- Traces a model in double precision and freezes its constants. The inputs must have exactly the
declared shapes. -/
def capture (m : Model) (inputs : List (Tensor Float)) : Except ArtifactError Artifact := do
  if m.inputs.length ≠ inputs.length then
    .error (.inputCount m.inputs.length inputs.length)
  checkInputs 0 (m.inputs.zip inputs)
  let constants ← m.constants.entries.mapM freeze
  let valueShapes ← (m.trace .double inputs).mapError .trace
  return ⟨m.name, ⟨m.inputs, m.nodes, m.outputs, valueShapes⟩, constants⟩

/-- The constants by name. A name may occur once. -/
def constantTable (constants : List FrozenConstant) : Except GraphError (Table (Tensor Float)) :=
  constants.foldlM (fun t c => Draft.insertNew t c.name c.tensor) .empty

/-- The model that the artifact alone describes. -/
def toModel (a : Artifact) : Except ArtifactError Model := do
  let constants ← (constantTable a.constants).mapError .graph
  (Model.ofParts a.modelName a.graph.inputs constants a.graph.nodes a.graph.outputs).mapError
    .graph

end Artifact

end TensorParity
