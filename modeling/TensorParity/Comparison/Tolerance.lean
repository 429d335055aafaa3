import TensorParity.Json.Decode

/-!
The tolerance of a comparison. A target value is close to a reference value when their distance is
at most an absolute bound plus a share of the reference's magnitude, so the two play different
parts. NaN is close to nothing, and an infinity only to itself.
-/
namespace TensorParity

structure Tolerance where
  /-- Share of the reference's magnitude. -/
  relative : Float := 1e-4
  absolute : Float := 1e-4
  deriving DecidableEq

namespace Tolerance

/-- A finite bound that is not negative. -/
def usable (x : Float) : Bool := x.isFinite && x >= 0.0

def valid (t : Tolerance) : Bool := usable t.relative && usable t.absolute

/-- How far a target may be from this reference value. -/
def bound (t : Tolerance) (reference : Float) : Float :=
  t.absolute + t.relative * reference.abs

def isClose (t : Tolerance) (reference target : Float) : Bool :=
  if reference.isNaN || target.isNaN then false
  else if !reference.isFinite || !target.isFinite then reference == target
  else (reference - target).abs <= t.bound reference

def toJson (t : Tolerance) : Json :=
  .record [("rtol", .ofFloat t.relative), ("atol", .ofFloat t.absolute)]

open Json

/-- The fields read so far. -/
structure Slots where
  relative : Option Float := none
  absolute : Option Float := none

def Slots.field (s : Slots) (name : String) (value : Json) : Decoded Slots :=
  match name with
  | "rtol" => return { s with relative := ← fill name s.relative asFloat value }
  | "atol" => return { s with absolute := ← fill name s.absolute asFloat value }
  | _ => throw (.unknownField name)

/-- Reads both bounds. They need not be usable. -/
def ofJson (j : Json) : Decoded Tolerance := do
  let s ← walkRecord ["rtol", "atol"] Slots.field {} j
  let relative ← required "rtol" s.relative
  let absolute ← required "atol" s.absolute
  return ⟨relative, absolute⟩

end Tolerance

end TensorParity
