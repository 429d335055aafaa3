import TensorParity.Backend.Basic

/-!
A back end without external programs. Converting writes the graph as a structure file and the
constants as little-endian single-precision words; inference reads both files back and runs the
model at single precision, so it knows what the files say and nothing else.
-/
namespace TensorParity

open Json

/-- Where a constant lies in the weights, counted in elements. -/
structure WeightSlot where
  name : String
  shape : Shape
  offset : Nat
  deriving DecidableEq

/-- The structure file of a converted model. -/
structure LoopbackStructure where
  version : Nat
  modelName : String
  inputs : List InputDecl
  nodes : List Node
  outputs : List String
  weights : List WeightSlot
  deriving DecidableEq

namespace WeightSlot

def toJson (w : WeightSlot) : Json :=
  .record [("name", .string w.name), ("shape", .ofShape w.shape), ("offset", .ofNat w.offset)]

/-- The fields read so far. -/
structure Slots where
  name : Option String := none
  shape : Option Shape := none
  offset : Option Nat := none

def Slots.field (s : Slots) (name : String) (value : Json) : Decoded Slots :=
  match name with
  | "name" => return { s with name := ← fill name s.name asString value }
  | "shape" => return { s with shape := ← fill name s.shape asShape value }
  | "offset" => return { s with offset := ← fill name s.offset asWord value }
  | _ => throw (.unknownField name)

def ofJson (j : Json) : Decoded WeightSlot := do
  let s ← walkRecord ["name", "shape", "offset"] Slots.field {} j
  let name ← required "name" s.name
  let shape ← required "shape" s.shape
  let offset ← required "offset" s.offset
  return ⟨name, shape, offset⟩

end WeightSlot

namespace LoopbackStructure

/-- The version of the format. -/
def formatVersion : Nat := 1

def toJson (s : LoopbackStructure) : Json :=
  .record [
    ("format_version", .ofNat s.version),
    ("model_name", .string s.modelName),
    ("inputs", .array (s.inputs.map InputDecl.toJson)),
    ("nodes", .array (s.nodes.map Node.toJson)),
    ("outputs", .array (s.outputs.map .string)),
    ("weights", .array (s.weights.map WeightSlot.toJson))]

/-- The fields read so far. -/
structure Slots where
  version : Option Nat := none
  modelName : Option String := none
  inputs : Option (List InputDecl) := none
  nodes : Option (List Node) := none
  outputs : Option (List String) := none
  weights : Option (List WeightSlot) := none

def Slots.field (s : Slots) (name : String) (value : Json) : Decoded Slots :=
  match name with
  | "format_version" =>
    return { s with version := ← fill name s.version asHalfWord value }
  | "model_name" => return { s with modelName := ← fill name s.modelName asString value }
  | "inputs" => return { s with inputs := ← fill name s.inputs (asList InputDecl.ofJson) value }
  | "nodes" => return { s with nodes := ← fill name s.nodes (asList Node.ofJson) value }
  | "outputs" => return { s with outputs := ← fill name s.outputs (asList asString) value }
  | "weights" =>
    return { s with weights := ← fill name s.weights (asList WeightSlot.ofJson) value }
  | _ => throw (.unknownField name)

def ofJson (j : Json) : Decoded LoopbackStructure := do
  let s ← walkRecord ["format_version", "model_name", "inputs", "nodes", "outputs", "weights"]
    Slots.field {} j
  let version ← required "format_version" s.version
  let modelName ← required "model_name" s.modelName
  let inputs ← required "inputs" s.inputs
  let nodes ← required "nodes" s.nodes
  let outputs ← required "outputs" s.outputs
  let weights ← required "weights" s.weights
  return ⟨version, modelName, inputs, nodes, outputs, weights⟩

/-- Slots for constants that lie one after the other from an offset on. -/
def slots (offset : Nat) : List FrozenConstant → List WeightSlot
  | [] => []
  | c :: rest => ⟨c.name, c.tensor.shape, offset⟩ :: slots (offset + c.tensor.numel) rest

/-- The structure of an artifact. -/
def ofArtifact (a : Artifact) : LoopbackStructure :=
  ⟨formatVersion, a.modelName, a.graph.inputs, a.graph.nodes, a.graph.outputs,
    slots 0 a.constants⟩

end LoopbackStructure

namespace Weights

/-- The bytes of one element at single precision. -/
def encodeElement (x : Float) : List UInt8 :=
  littleEndian 4 ((singleOf x).toWord 31)

/-- All constants at single precision, one after the other. -/
def encode (constants : List FrozenConstant) : ByteArray :=
  constants.foldl (fun blob c =>
    c.tensor.data.foldl (fun blob x => (encodeElement x).foldl ByteArray.push blob) blob)
    .empty

/-- One element of a blob. -/
def decodeElement (blob : ByteArray) (i : Nat) : Float :=
  let byte (k : Nat) : Nat := (blob[4 * i + k]?.getD 0).toNat
  ofSingle (.ofWord 31 (byte 0 + 256 * (byte 1 + 256 * (byte 2 + 256 * byte 3))))

/-- The elements of a blob whose length is a multiple of four. -/
def decode (blob : ByteArray) : Except StructureFault (Array Float) :=
  if blob.size % 4 ≠ 0 then .error (.blobLength blob.size)
  else .ok (Array.ofFn fun i : Fin (blob.size / 4) => decodeElement blob i)

end Weights

/-- The constant that a slot describes. -/
def WeightSlot.tensor (w : WeightSlot) (elements : Array Float) :
    Except StructureFault (Tensor Float) := do
  let count ← (Shape.numel w.shape).mapError .shape
  if elements.size < w.offset + count ∨ Shape.wordLimit ≤ w.offset + count then
    .error (.outside w.name w.offset count elements.size)
  (Tensor.ofArray w.shape (elements.extract w.offset (w.offset + count))).mapError .shape

namespace Loopback

def structureSuffix : String := "loopback.param"

def weightsSuffix : String := "loopback.bin"

def maxStructureBytes : Nat := 16 * 1048576

def maxWeightsBytes : Nat := 256 * 1048576

/-- The model that a structure and its weights describe. Of slots with one name the last counts. -/
def assemble (s : LoopbackStructure) (elements : Array Float) : Except StructureFault Model := do
  let constants ← s.weights.foldlM (fun (t : Table (Tensor Float)) w => do
    return t.insert w.name (← w.tensor elements)) .empty
  (Model.ofParts s.modelName s.inputs constants s.nodes s.outputs).mapError .graph

/-- Reads a file that must not exceed a size. -/
def readBounded (fs : FileSystem) (p : Path) (limit : Nat) : Except InferenceError ByteArray := do
  let size ← (fs.size p).mapError (.file p)
  if limit < size then
    .error (.structureFile (.tooLarge p size limit))
  (fs.read p).mapError (.file p)

/-- The structure that bytes spell. -/
def decodeStructure (content : ByteArray) : Except StructureFault LoopbackStructure := do
  let document :=
    match String.fromUTF8? content with
    | some text => Document.ofString text
    | none => ⟨.broken, true⟩
  let s ← (Json.decode LoopbackStructure.ofJson document).mapError .malformed
  if s.version ≠ LoopbackStructure.formatVersion then
    .error (.version s.version)
  return s

/-- Reads a converted model back. -/
def load (fs : FileSystem) (c : Converted) : Except InferenceError Model := do
  let content ← readBounded fs c.structurePath maxStructureBytes
  let s ← (decodeStructure content).mapError .structureFile
  let blob ← readBounded fs c.weightsPath maxWeightsBytes
  let elements ← (Weights.decode blob).mapError .structureFile
  (assemble s elements).mapError .structureFile

def convert (workDir : Path) (artifact : Path) (shapes : List Shape) :
    FileAction ConversionError Converted := do
  let a ← FileAction.ofResult (Artifact.load (← get) artifact) .artifact
  if a.inputShapes ≠ shapes then
    throw (.shapes a.inputShapes shapes)
  FileAction.makeDirectories workDir (.file workDir)
  let c ← convertedPaths workDir artifact structureSuffix weightsSuffix
  let content := (LoopbackStructure.ofArtifact a).toJson.prettyText.toUTF8
  FileAction.change (·.write c.structurePath content) (.file c.structurePath)
  FileAction.change (·.write c.weightsPath (Weights.encode a.constants)) (.file c.weightsPath)
  return c

def infer (c : Converted) (inputs : List (Tensor Float)) :
    FileAction InferenceError OutputTuple := do
  let m ← load (← get) c
  FileAction.ofResult (m.run .single inputs) .execution

end Loopback

def Backend.loopback (workDir : Path) : Backend :=
  ⟨"loopback", Loopback.convert workDir, Loopback.infer⟩

end TensorParity
