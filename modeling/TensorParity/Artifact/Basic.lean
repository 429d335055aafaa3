import TensorParity.Digest.Sha256
import TensorParity.Json.Printer
import TensorParity.Model.Run
import TensorParity.Record.Node
import TensorParity.Record.Tensor

/-!
Portable artifacts: a traced graph and the constants it was frozen with. The checksums of an
artifact are functions of its content; the graph checksum covers structure alone, the source
checksum the name and the constants as well.
-/
namespace TensorParity

/-- A frozen constant. -/
structure FrozenConstant where
  name : String
  tensor : Tensor Float
  deriving DecidableEq

/-- The structural half of an artifact. -/
structure TracedGraph where
  inputs : List InputDecl
  nodes : List Node
  outputs : List String
  /-- The shape of every named value. -/
  valueShapes : Table Shape
  deriving DecidableEq

structure Artifact where
  modelName : String
  graph : TracedGraph
  constants : List FrozenConstant
  deriving DecidableEq

namespace FrozenConstant

def toJson (c : FrozenConstant) : Json :=
  .record [("name", .string c.name), ("tensor", c.tensor.toJson)]

end FrozenConstant

namespace TracedGraph

def toJson (g : TracedGraph) : Json :=
  .record [
    ("inputs", .array (g.inputs.map InputDecl.toJson)),
    ("nodes", .array (g.nodes.map Node.toJson)),
    ("outputs", .array (g.outputs.map .string)),
    ("value_shapes", .record (g.valueShapes.entries.map fun (name, s) => (name, .ofShape s)))]

/-- What the graph checksum digests: a tag, and the graph's text. -/
def checksumText (g : TracedGraph) : String :=
  "cp-artifact-graph-v1\n" ++ g.toJson.text

def checksum (g : TracedGraph) : String :=
  Sha256.label g.checksumText.toUTF8.toList

end TracedGraph

namespace Artifact

/-- The version of the text format. -/
def schemaVersion : Nat := 1

/-- The bytes of one constant under the source checksum. -/
def constantBytes (c : FrozenConstant) : List UInt8 :=
  c.name.toUTF8.toList ++ ":".toUTF8.toList ++ c.tensor.shape.flatMap (littleEndian 8)
    ++ ":".toUTF8.toList ++ c.tensor.data.toList.flatMap (fun x => littleEndian 8 x.toBits.toNat)
    ++ "\n".toUTF8.toList

/-- What the source checksum digests: a tag, the version, the name, the graph checksum and every
constant. -/
def sourceBytes (version : Nat) (modelName graphChecksum : String)
    (constants : List FrozenConstant) : List UInt8 :=
  "cp-artifact-source-v1\n".toUTF8.toList ++ littleEndian 4 version
    ++ (modelName ++ "\n" ++ graphChecksum ++ "\n").toUTF8.toList
    ++ constants.flatMap constantBytes

def graphChecksum (a : Artifact) : String := a.graph.checksum

def sourceChecksum (a : Artifact) : String :=
  Sha256.label (sourceBytes schemaVersion a.modelName a.graphChecksum a.constants)

/-- Input shapes in the order of the model's signature. -/
def inputShapes (a : Artifact) : List Shape := a.graph.inputs.map (·.shape)

def valueShape? (a : Artifact) (name : String) : Option Shape := a.graph.valueShapes.find? name

end Artifact

/-- A section of an artifact that has a checksum. -/
inductive ArtifactPart where
  | graph
  | source
  deriving DecidableEq

def ArtifactPart.name : ArtifactPart → String
  | graph => "graph"
  | source => "source"

/-- Why a model has no artifact, or a text is none. -/
inductive ArtifactError where
  | inputCount (expected actual : Nat)
  | inputShape (position : Nat) (name : String) (declared actual : Shape)
  | trace (error : ExecError)
  | nonFinite (constant : String)
  | malformed (diagnostic : String)
  | unknownField (name : String)
  | version (expected found : Nat)
  | checksum (part : ArtifactPart) (expected found : String)
  | tooLarge (actual limit : Nat)
  | graph (error : GraphError)
  | file (path diagnostic : String)
  deriving DecidableEq

def ArtifactError.message : ArtifactError → String
  | inputCount expected actual =>
    s!"model declares {expected} inputs but {actual} were supplied"
  | inputShape position name declared actual =>
    s!"input #{position} '{name}' declared shape {declared.text} but traced with {actual.text}"
  | trace error => s!"trace failed: {error.message}"
  | nonFinite name => s!"constant '{name}' holds a non-finite value"
  | malformed diagnostic => s!"invalid json: {diagnostic}"
  | unknownField name => s!"unknown field '{name}'"
  | version expected found => s!"schema version mismatch: expected={expected} found={found}"
  | checksum part expected found =>
    s!"{part.name} checksum mismatch: expected={expected} found={found}"
  | tooLarge actual limit =>
    s!"artifact payload exceeds max bytes: actual={actual} max={limit}"
  | graph error => s!"artifact graph is invalid: {error.message}"
  | file path diagnostic => s!"io error at {path}: {diagnostic}"

end TensorParity
