import TensorParity.Table
import TensorParity.Model.Node
import TensorParity.Rounding.Narrow

/-!
Models: declared inputs, constants, and nodes in an order in which every operand is defined before
it is read. The check is part of the type, so a model that exists is well formed.
-/
namespace TensorParity

/-- Why a layer cannot be built. -/
inductive ModuleFault where
  | noFeatures
  | stability (eps : Float)
  | notPositive
  | groups (groups inChannels outChannels : Nat)
  | reason (text : String)
  deriving DecidableEq

def ModuleFault.message : ModuleFault → String
  | noFeatures => "batch norm requires num_features > 0"
  | stability eps => s!"eps must be finite and non-negative, got {Notation.message eps}"
  | notPositive => "convolution requires positive channels and kernel size"
  | groups g inChannels outChannels =>
    s!"groups={g} must divide in_channels={inChannels} and out_channels={outChannels}"
  | reason text => text

/-- Why the parts of a model do not make one. -/
inductive GraphError where
  | duplicateValue (name : String)
  | undefinedValue (node name : String)
  | unknownOutput (name : String)
  | noOutputs
  | invalidModule (name : String) (fault : ModuleFault)
  | tensor (error : TensorError)
  deriving DecidableEq

def GraphError.message : GraphError → String
  | duplicateValue name => s!"value '{name}' is defined twice"
  | undefinedValue node name => s!"node '{node}' reads undefined value '{name}'"
  | unknownOutput name => s!"graph output '{name}' is not defined"
  | noOutputs => "graph declares no outputs"
  | invalidModule name fault => s!"module '{name}' is invalid: {fault.message}"
  | tensor error => s!"tensor error: {error.message}"

namespace Model

/-- Defines a new name. -/
def define (defined : List String) (name : String) : Except GraphError (List String) :=
  if name ∈ defined then .error (.duplicateValue name) else .ok (name :: defined)

/-- Checks a node's operands and then defines its output. -/
def defineNode (defined : List String) (node : Node) : Except GraphError (List String) :=
  match node.op.operands.find? (· ∉ defined) with
  | some name => .error (.undefinedValue node.output name)
  | none => define defined node.output

/-- Scans inputs and constants, then nodes, then outputs, and reports the first fault. -/
def check (inputs constants : List String) (nodes : List Node) (outputs : List String) :
    Except GraphError Unit := do
  let defined ← (inputs ++ constants).foldlM define []
  let defined ← nodes.foldlM defineNode defined
  if outputs.isEmpty then .error .noOutputs
  match outputs.find? (· ∉ defined) with
  | some name => .error (.unknownOutput name)
  | none => return ()

end Model

structure Model where
  name : String
  inputs : List InputDecl
  constants : Table (Tensor Float)
  nodes : List Node
  outputs : List String
  valid : Model.check (inputs.map (·.name)) constants.keys nodes outputs = .ok ()
  deriving DecidableEq

namespace Model

/-- Assembles a model from parts that pass the check. -/
def ofParts (name : String) (inputs : List InputDecl) (constants : Table (Tensor Float))
    (nodes : List Node) (outputs : List String) : Except GraphError Model :=
  match h : check (inputs.map (·.name)) constants.keys nodes outputs with
  | .ok () => .ok ⟨name, inputs, constants, nodes, outputs, h⟩
  | .error error => .error error

def inputShapes (m : Model) : List Shape := m.inputs.map (·.shape)

/-- The model with every constant's elements passed through `f`. -/
def mapConstants (f : Float → Float) (m : Model) : Model :=
  { m with
    constants := m.constants.map (Tensor.map f)
    valid := by simpa using m.valid }

/-- The model with its constants rounded to half precision. -/
def roundConstantsToHalf (m : Model) : Model := m.mapConstants roundToHalf

end Model

/-- The parts of a model while they are being collected. -/
structure Draft where
  name : String
  inputs : List InputDecl := []
  constants : List (String × Tensor Float) := []
  nodes : List Node := []
  outputs : List String := []
  deriving DecidableEq

namespace Draft

def input (d : Draft) (name : String) (shape : Shape) : Draft :=
  { d with inputs := d.inputs ++ [⟨name, shape⟩] }

def constant (d : Draft) (name : String) (tensor : Tensor Float) : Draft :=
  { d with constants := d.constants ++ [(name, tensor)] }

def node (d : Draft) (output : String) (op : Op) : Draft :=
  { d with nodes := d.nodes ++ [⟨output, op⟩] }

def output (d : Draft) (name : String) : Draft :=
  { d with outputs := d.outputs ++ [name] }

/-- Adds a constant whose name is new. -/
def insertNew {α : Type} (t : Table α) (name : String) (value : α) :
    Except GraphError (Table α) :=
  if name ∈ t.keys then .error (.duplicateValue name) else .ok (t.insert name value)

/-- Checks the collected parts. A constant registered twice is refused before anything else. -/
def finish (d : Draft) : Except GraphError Model := do
  let constants ← d.constants.foldlM (fun t (name, tensor) => insertNew t name tensor) .empty
  Model.ofParts d.name d.inputs constants d.nodes d.outputs

end Draft

end TensorParity
