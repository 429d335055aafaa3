import TensorParity.Artifact.Basic
import TensorParity.Json.Decode
import TensorParity.Text.Quoted

/-!
The text of an artifact. Reading is closed: the text has a size limit, an unknown key, a foreign
version or a checksum that does not fit the content refuses it.
-/
namespace TensorParity

open Json

namespace FrozenConstant

/-- The fields read so far. -/
structure Slots where
  name : Option String := none
  tensor : Option (Tensor Float) := none

def Slots.field (s : Slots) (name : String) (value : Json) : Decoded Slots :=
  match name with
  | "name" => return { s with name := ← fill name s.name asString value }
  | "tensor" => return { s with tensor := ← fill name s.tensor Tensor.ofJson value }
  | _ => throw (.unknownField name)

def ofJson (j : Json) : Decoded FrozenConstant := do
  let s ← walkRecord ["name", "tensor"] Slots.field {} j
  let name ← required "name" s.name
  let tensor ← required "tensor" s.tensor
  return ⟨name, tensor⟩

end FrozenConstant

namespace TracedGraph

/-- Shapes by name; of several with one name the last. -/
def shapesOfJson : Json → Decoded (Table Shape)
  | .object fields closed =>
    walkFields (fun t name value => return t.insert name (← asShape value)) .empty fields closed
  | j => wrongType j

/-- The fields read so far. -/
structure Slots where
  inputs : Option (List InputDecl) := none
  nodes : Option (List Node) := none
  outputs : Option (List String) := none
  valueShapes : Option (Table Shape) := none

def Slots.field (s : Slots) (name : String) (value : Json) : Decoded Slots :=
  match name with
  | "inputs" => return { s with inputs := ← fill name s.inputs (asList InputDecl.ofJson) value }
  | "nodes" => return { s with nodes := ← fill name s.nodes (asList Node.ofJson) value }
  | "outputs" => return { s with outputs := ← fill name s.outputs (asList asString) value }
  | "value_shapes" =>
    return { s with valueShapes := ← fill name s.valueShapes shapesOfJson value }
  | _ => throw (.unknownField name)

def ofJson (j : Json) : Decoded TracedGraph := do
  let s ← walkRecord ["inputs", "nodes", "outputs", "value_shapes"] Slots.field {} j
  let inputs ← required "inputs" s.inputs
  let nodes ← required "nodes" s.nodes
  let outputs ← required "outputs" s.outputs
  let valueShapes ← required "value_shapes" s.valueShapes
  return ⟨inputs, nodes, outputs, valueShapes⟩

end TracedGraph

/-- An artifact as a text states it: the content, and the version and checksums written beside
it. -/
structure StatedArtifact where
  version : Nat
  content : Artifact
  graphChecksum : String
  sourceChecksum : String

namespace StatedArtifact

def toJson (s : StatedArtifact) : Json :=
  .record [
    ("schema_version", .ofNat s.version),
    ("model_name", .string s.content.modelName),
    ("graph", s.content.graph.toJson),
    ("constants", .array (s.content.constants.map FrozenConstant.toJson)),
    ("graph_hash", .string s.graphChecksum),
    ("source_hash", .string s.sourceChecksum)]

/-- The fields read so far. -/
structure Slots where
  version : Option Nat := none
  modelName : Option String := none
  graph : Option TracedGraph := none
  constants : Option (List FrozenConstant) := none
  graphChecksum : Option String := none
  sourceChecksum : Option String := none

def Slots.field (s : Slots) (name : String) (value : Json) : Decoded Slots :=
  match name with
  | "schema_version" =>
    return { s with version := ← fill name s.version asHalfWord value }
  | "model_name" => return { s with modelName := ← fill name s.modelName asString value }
  | "graph" => return { s with graph := ← fill name s.graph TracedGraph.ofJson value }
  | "constants" =>
    return { s with constants := ← fill name s.constants (asList FrozenConstant.ofJson) value }
  | "graph_hash" => return { s with graphChecksum := ← fill name s.graphChecksum asString value }
  | "source_hash" =>
    return { s with sourceChecksum := ← fill name s.sourceChecksum asString value }
  | _ => throw (.unknownField name)

def ofJson (j : Json) : Decoded StatedArtifact := do
  let s ← walkRecord
    ["schema_version", "model_name", "graph", "constants", "graph_hash", "source_hash"]
    Slots.field {} j
  let version ← required "schema_version" s.version
  let modelName ← required "model_name" s.modelName
  let graph ← required "graph" s.graph
  let constants ← required "constants" s.constants
  let graphChecksum ← required "graph_hash" s.graphChecksum
  let sourceChecksum ← required "source_hash" s.sourceChecksum
  return ⟨version, ⟨modelName, graph, constants⟩, graphChecksum, sourceChecksum⟩

/-- The content, if version and checksums are the ones it must have. -/
def verify (s : StatedArtifact) : Except ArtifactError Artifact :=
  let a := s.content
  if s.version ≠ Artifact.schemaVersion then
    .error (.version Artifact.schemaVersion s.version)
  else if s.graphChecksum ≠ a.graphChecksum then
    .error (.checksum .graph a.graphChecksum s.graphChecksum)
  else if s.sourceChecksum ≠ a.sourceChecksum then
    .error (.checksum .source a.sourceChecksum s.sourceChecksum)
  else .ok a

end StatedArtifact

namespace Artifact

/-- Texts longer than this many bytes are refused unread. -/
def maxBytes : Nat := 64 * 1048576

/-- What a text says about a refused reading is cut to this many bytes. -/
def diagnosticBytes : Nat := 200

/-- The artifact beside its version and checksums. -/
def stated (a : Artifact) : StatedArtifact :=
  ⟨schemaVersion, a, a.graphChecksum, a.sourceChecksum⟩

def encode (a : Artifact) : String := a.stated.toJson.text

def checkSize (bytes : Nat) : Except ArtifactError Unit :=
  if maxBytes < bytes then .error (.tooLarge bytes maxBytes) else .ok ()

/-- A fault of the text. One that reports an unknown field keeps the name alone. -/
def ofFault (fault : Fault) : ArtifactError :=
  match Fault.unknownFieldIn? fault.message with
  | some name => .unknownField name
  | none => .malformed (Text.bounded diagnosticBytes fault.message)

def decode (text : String) : Except ArtifactError Artifact := do
  checkSize text.utf8ByteSize
  let s ← (Json.decode StatedArtifact.ofJson (Document.ofString text)).mapError ofFault
  s.verify

end Artifact

end TensorParity
