import TensorParity.Json.Decode
import TensorParity.Model.Node

/-!
The record forms of inputs, convolution parameters and nodes. A node is one flat object: its output,
its operator, and the operator's own fields. Other keys of a node are passed over.
-/
namespace TensorParity

open Json

namespace InputDecl

def toJson (d : InputDecl) : Json :=
  .record [("name", .string d.name), ("shape", .ofShape d.shape)]

/-- The fields read so far. -/
structure Slots where
  name : Option String := none
  shape : Option Shape := none

def Slots.field (s : Slots) (name : String) (value : Json) : Decoded Slots :=
  match name with
  | "name" => return { s with name := ← fill name s.name asString value }
  | "shape" => return { s with shape := ← fill name s.shape asShape value }
  | _ => throw (.unknownField name)

def ofJson (j : Json) : Decoded InputDecl := do
  let s ← walkRecord ["name", "shape"] Slots.field {} j
  let name ← required "name" s.name
  let shape ← required "shape" s.shape
  return ⟨name, shape⟩

end InputDecl

namespace ConvParams

def toJson (p : ConvParams) : Json :=
  .record [
    ("stride", .ofShape [p.vertical.stride, p.horizontal.stride]),
    ("padding", .ofShape [p.vertical.padding, p.horizontal.padding]),
    ("dilation", .ofShape [p.vertical.dilation, p.horizontal.dilation]),
    ("groups", .ofNat p.groups)]

/-- The fields read so far; pairs are vertical first. -/
structure Slots where
  stride : Option (Fin Shape.wordLimit × Fin Shape.wordLimit) := none
  padding : Option (Fin Shape.wordLimit × Fin Shape.wordLimit) := none
  dilation : Option (Fin Shape.wordLimit × Fin Shape.wordLimit) := none
  groups : Option (Fin Shape.wordLimit) := none

def Slots.field (s : Slots) (name : String) (value : Json) : Decoded Slots :=
  match name with
  | "stride" => return { s with stride := ← fill name s.stride (asPair (asBelow _)) value }
  | "padding" => return { s with padding := ← fill name s.padding (asPair (asBelow _)) value }
  | "dilation" => return { s with dilation := ← fill name s.dilation (asPair (asBelow _)) value }
  | "groups" => return { s with groups := ← fill name s.groups (asBelow _) value }
  | _ => throw (.unknownField name)

/-- The parameters of one axis. -/
def axis (stride padding dilation : Fin Shape.wordLimit) : AxisParams :=
  ⟨stride, padding, dilation, stride.isLt, padding.isLt, dilation.isLt⟩

def ofJson (j : Json) : Decoded ConvParams := do
  let s ← walkRecord ["stride", "padding", "dilation", "groups"] Slots.field {} j
  let stride ← required "stride" s.stride
  let padding ← required "padding" s.padding
  let dilation ← required "dilation" s.dilation
  let groups ← required "groups" s.groups
  return ⟨axis stride.1 padding.1 dilation.1, axis stride.2 padding.2 dilation.2, groups,
    groups.isLt⟩

end ConvParams

namespace OperatorKind

/-- All operators, in the order of their numbers. -/
def all : List OperatorKind := [batchNorm, conv2d, deformConv2d, sigmoid]

/-- Keys of an operator's own fields. -/
def fields : OperatorKind → List String
  | batchNorm => ["input", "running_mean", "running_var", "weight", "bias", "eps"]
  | conv2d => ["input", "weight", "bias", "params"]
  | deformConv2d => ["input", "offset", "mask", "weight", "bias", "params"]
  | sigmoid => ["input"]

/-- An operator is written by name; its number is read as well. -/
def ofJson : Json → Decoded OperatorKind
  | .string s =>
    match all.find? (·.name = s) with
    | some kind => return kind
    | none => throw (.unknownVariant s (all.map name))
  | .number (.unsigned n) =>
    match all[n]? with
    | some kind => return kind
    | none => throw .outOfRange
  | j => wrongType j

end OperatorKind

namespace Op

def optionalName : Option String → Json := .ofOption .string

/-- The operator's own fields, in declared order. -/
def fields : Op → List (String × Json)
  | batchNorm input mean var weight bias eps => [
    ("input", .string input), ("running_mean", .string mean), ("running_var", .string var),
    ("weight", optionalName weight), ("bias", optionalName bias), ("eps", .ofFloat eps)]
  | conv2d input weight bias params => [
    ("input", .string input), ("weight", .string weight), ("bias", optionalName bias),
    ("params", params.toJson)]
  | deformConv2d input offset mask weight bias params => [
    ("input", .string input), ("offset", .string offset), ("mask", optionalName mask),
    ("weight", .string weight), ("bias", optionalName bias), ("params", params.toJson)]
  | sigmoid input => [("input", .string input)]

/-- The fields of any operator read so far. The inner layer of an optional operand is its value. -/
structure Slots where
  input : Option String := none
  runningMean : Option String := none
  runningVar : Option String := none
  offset : Option String := none
  mask : Option (Option String) := none
  weight : Option (Option String) := none
  bias : Option (Option String) := none
  eps : Option Float := none
  params : Option ConvParams := none

/-- A key that is not the operator's own says nothing. -/
def Slots.field (kind : OperatorKind) (s : Slots) (name : String) (value : Json) :
    Decoded Slots :=
  if name ∈ kind.fields then
    match name with
    | "input" => return { s with input := ← fill name s.input asString value }
    | "running_mean" => return { s with runningMean := ← fill name s.runningMean asString value }
    | "running_var" => return { s with runningVar := ← fill name s.runningVar asString value }
    | "offset" => return { s with offset := ← fill name s.offset asString value }
    | "mask" => return { s with mask := ← fill name s.mask (asOption asString) value }
    | "weight" =>
      let read : Json → Decoded (Option String) :=
        if kind = .batchNorm then asOption asString else fun j => some <$> asString j
      return { s with weight := ← fill name s.weight read value }
    | "bias" => return { s with bias := ← fill name s.bias (asOption asString) value }
    | "eps" => return { s with eps := ← fill name s.eps asFloat value }
    | "params" => return { s with params := ← fill name s.params ConvParams.ofJson value }
    | _ => return s
  else return s

/-- The operator once all fields are read. Operands that may be absent are then none. -/
def Slots.finish (s : Slots) : OperatorKind → Decoded Op
  | .batchNorm => do
    let input ← required "input" s.input
    let mean ← required "running_mean" s.runningMean
    let var ← required "running_var" s.runningVar
    let eps ← required "eps" s.eps
    return .batchNorm input mean var s.weight.join s.bias.join eps
  | .conv2d => do
    let input ← required "input" s.input
    let weight ← required "weight" s.weight.join
    let params ← required "params" s.params
    return .conv2d input weight s.bias.join params
  | .deformConv2d => do
    let input ← required "input" s.input
    let offset ← required "offset" s.offset
    let weight ← required "weight" s.weight.join
    let params ← required "params" s.params
    return .deformConv2d input offset s.mask.join weight s.bias.join params
  | .sigmoid => do
    let input ← required "input" s.input
    return .sigmoid input

/-- The operator that the fields name, each key at most once. -/
def kindOf (fields : List (String × Json)) : Decoded OperatorKind := do
  let kind ← fields.foldlM (fun kind (name, value) =>
    if name = "op" then fill name kind OperatorKind.ofJson value else return kind) none
  required "op" kind

def ofFields (fields : List (String × Json)) : Decoded Op := do
  let kind ← kindOf fields
  let s ← fields.foldlM (fun s (name, value) => s.field kind name value) ({} : Slots)
  s.finish kind

end Op

namespace Node

def toJson (n : Node) : Json :=
  .record (("output", .string n.output) :: ("op", .string n.op.kind.name) :: n.op.fields)

/-- The output, and the other fields in reverse order. -/
structure Slots where
  output : Option String := none
  others : List (String × Json) := []

/-- Only the output is read at once; other values are kept if their text is well formed. -/
def Slots.field (s : Slots) (name : String) (value : Json) : Decoded Slots :=
  if name = "output" then
    return { s with output := ← fill name s.output asString value }
  else if value.wellFormed then
    return { s with others := (name, value) :: s.others }
  else throw .malformed

def ofJson : Json → Decoded Node
  | .object fields closed => do
    let s ← walkFields Slots.field {} fields closed
    let output ← required "output" s.output
    let op ← Op.ofFields s.others.reverse
    return ⟨output, op⟩
  | j => wrongType j

end Node

end TensorParity
