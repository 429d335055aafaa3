import TensorParity.Json.Decode

/-!
The record form of tensors: a shape and the elements in row-major order. A record is read only if
the two fit together.
-/
namespace TensorParity

open Json

namespace Tensor

def toJson (t : Tensor Float) : Json :=
  .record [("shape", .ofShape t.shape), ("data", .array (t.data.toList.map .ofFloat))]

/-- The fields read so far. -/
structure Slots where
  shape : Option Shape := none
  data : Option (List Float) := none

def Slots.field (s : Slots) (name : String) (value : Json) : Decoded Slots :=
  match name with
  | "shape" => return { s with shape := ← fill name s.shape asShape value }
  | "data" => return { s with data := ← fill name s.data (asList asFloat) value }
  | _ => throw (.unknownField name)

def ofJson (j : Json) : Decoded (Tensor Float) := do
  let s ← walkRecord ["shape", "data"] Slots.field {} j
  let shape ← required "shape" s.shape
  let data ← required "data" s.data
  (Tensor.ofArray shape data.toArray).mapError .inconsistent

end Tensor

namespace OutputTuple

/-- A tuple is the plain array of its tensors. -/
def toJson (outputs : OutputTuple) : Json := .array (outputs.map Tensor.toJson)

def ofJson : Json → Decoded OutputTuple := asList Tensor.ofJson

end OutputTuple

end TensorParity
