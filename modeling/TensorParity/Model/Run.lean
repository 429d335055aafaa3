import TensorParity.Kernel.Conv2d
import TensorParity.Kernel.DeformConv2d
import TensorParity.Kernel.Pointwise
import TensorParity.Model.Basic

/-!
Runs a model on concrete inputs. Values are computed node by node; at single precision inputs, node
results and constants are rounded wherever they enter. A run changes nothing, so it can be repeated.
-/
namespace TensorParity

inductive Precision where
  | double
  | single
  deriving DecidableEq

namespace Precision

def name : Precision → String
  | double => "f64"
  | single => "f32"

/-- What the precision makes of a value. -/
def quantize (p : Precision) (t : Tensor Float) : Tensor Float :=
  match p with
  | double => t
  | single => t.roundToSingle

end Precision

inductive ExecError where
  | inputCount (expected actual : Nat)
  | inputShape (name : String) (expected actual : Shape)
  | missingValue (name : String)
  | kernel (node : String) (kind : OperatorKind) (source : KernelError)
  deriving DecidableEq

def ExecError.message : ExecError → String
  | inputCount expected actual => s!"model expects {expected} inputs, got {actual}"
  | inputShape name expected actual =>
    s!"input '{name}' shape mismatch expected={expected.text} actual={actual.text}"
  | missingValue name => s!"value '{name}' was never produced"
  | kernel node kind source => s!"node '{node}' ({kind.name}) failed: {source.message}"

/-- Values computed so far, by name. -/
abbrev Values := Table (Tensor Float)

namespace Model

/-- The value of a name: a computed value, or else a constant at the precision of the run. -/
def lookup (m : Model) (p : Precision) (values : Values) (name : String) :
    Except ExecError (Tensor Float) :=
  match values.find? name with
  | some t => .ok t
  | none =>
    match m.constants.find? name with
    | some t => .ok (p.quantize t)
    | none => .error (.missingValue name)

/-- The value of an optional operand. -/
def lookup? (m : Model) (p : Precision) (values : Values) :
    Option String → Except ExecError (Option (Tensor Float))
  | some name => some <$> m.lookup p values name
  | none => .ok none

/-- The result of one node, at the precision of the kernels. -/
def apply (m : Model) (p : Precision) (values : Values) (node : Node) :
    Except ExecError (Tensor Float) := do
  let result ←
    match node.op with
    | .batchNorm input mean var weight bias eps => do
      let weight ← m.lookup? p values weight
      let bias ← m.lookup? p values bias
      let input ← m.lookup p values input
      let mean ← m.lookup p values mean
      let var ← m.lookup p values var
      pure (TensorParity.batchNorm input mean var weight bias eps)
    | .conv2d input weight bias params => do
      let bias ← m.lookup? p values bias
      let input ← m.lookup p values input
      let weight ← m.lookup p values weight
      pure (TensorParity.conv2d input weight bias params)
    | .deformConv2d input offset mask weight bias params => do
      let mask ← m.lookup? p values mask
      let bias ← m.lookup? p values bias
      let input ← m.lookup p values input
      let offset ← m.lookup p values offset
      let weight ← m.lookup p values weight
      pure (TensorParity.deformConv2d input offset mask weight bias params)
    | .sigmoid input => do
      let input ← m.lookup p values input
      pure (.ok (TensorParity.sigmoid input))
  result.mapError (.kernel node.output node.op.kind)

/-- Takes in one input after comparing its shape with the declared one. -/
def bindInput (p : Precision) (values : Values) (declared : InputDecl × Tensor Float) :
    Except ExecError Values :=
  let (decl, tensor) := declared
  if tensor.shape = decl.shape then .ok (values.insert decl.name (p.quantize tensor))
  else .error (.inputShape decl.name decl.shape tensor.shape)

/-- Adds the result of one node. -/
def step (m : Model) (p : Precision) (values : Values) (node : Node) : Except ExecError Values := do
  let produced ← m.apply p values node
  return values.insert node.output (p.quantize produced)

/-- All computed values: inputs and node outputs. -/
def evaluate (m : Model) (p : Precision) (inputs : List (Tensor Float)) :
    Except ExecError Values := do
  if inputs.length ≠ m.inputs.length then
    .error (.inputCount m.inputs.length inputs.length)
  let values ← (m.inputs.zip inputs).foldlM (bindInput p) .empty
  m.nodes.foldlM (m.step p) values

/-- The declared outputs, in order. -/
def run (m : Model) (p : Precision) (inputs : List (Tensor Float)) :
    Except ExecError OutputTuple := do
  let values ← m.evaluate p inputs
  m.outputs.mapM (m.lookup p values)

/-- The shape of every named value: inputs, constants and node outputs. -/
def trace (m : Model) (p : Precision) (inputs : List (Tensor Float)) :
    Except ExecError (Table Shape) := do
  let values ← m.evaluate p inputs
  return values.entries.foldl (fun shapes (name, t) => shapes.insert name t.shape)
    (m.constants.map (·.shape))

end Model

end TensorParity
