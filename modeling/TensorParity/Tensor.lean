import TensorParity.Shape

/-!
Row-major tensors. The element count of the shape and the length of the data agree by construction,
so an operation that keeps both needs no further check.
-/
namespace TensorParity

/-- Why a tensor or one of its coordinates does not exist. -/
inductive TensorError where
  | lengthMismatch (shape : Shape) (expected actual : Nat)
  | countOverflow (shape : Shape)
  | positionOutside (position count : Nat)
  deriving DecidableEq

namespace TensorError

def message : TensorError → String
  | lengthMismatch shape expected actual =>
    s!"shape {shape.text} expects {expected} elements but data holds {actual}"
  | countOverflow shape => s!"element count overflows usize for shape {shape.text}"
  | positionOutside position count => s!"flat index {position} out of bounds for numel={count}"

end TensorError

/-- The element count of a shape, or the refusal that names the shape. -/
def Shape.numel (shape : Shape) : Except TensorError Nat :=
  match shape.numel? with
  | some count => .ok count
  | none => .error (.countOverflow shape)

/-- A shape with as many elements as it calls for, in row-major order. -/
structure Tensor (α : Type) where
  shape : Shape
  data : Array α
  numel_eq : shape.numel? = some data.size
  deriving DecidableEq

namespace Tensor

variable {α β : Type}

def ofArray (shape : Shape) (data : Array α) : Except TensorError (Tensor α) :=
  match h : shape.numel? with
  | none => .error (.countOverflow shape)
  | some count =>
    if hc : count = data.size then .ok ⟨shape, data, hc ▸ h⟩
    else .error (.lengthMismatch shape count data.size)

/-- Every element is `value`. -/
def full (shape : Shape) (value : α) : Except TensorError (Tensor α) :=
  match h : shape.numel? with
  | none => .error (.countOverflow shape)
  | some count => .ok ⟨shape, Array.replicate count value, by simpa using h⟩

def rank (t : Tensor α) : Nat := t.shape.length

def numel (t : Tensor α) : Nat := t.data.size

/-- Size of an axis, if the tensor has that axis. -/
def dim? (t : Tensor α) (axis : Nat) : Option Nat := t.shape[axis]?

/-- Applies `f` to every element and keeps the shape. -/
def map (f : α → β) (t : Tensor α) : Tensor β :=
  ⟨t.shape, t.data.map f, by simpa using t.numel_eq⟩

/-- Coordinates of the element at a flat position. -/
def unravel (t : Tensor α) (position : Nat) : Except TensorError (List Nat) :=
  if position < t.numel then .ok (t.shape.coordinates position)
  else .error (.positionOutside position t.numel)

@[simp] theorem shape_map (f : α → β) (t : Tensor α) : (t.map f).shape = t.shape := rfl

@[simp] theorem data_map (f : α → β) (t : Tensor α) : (t.map f).data = t.data.map f := rfl

end Tensor

/-- Outputs of one model run, in declared order. -/
abbrev OutputTuple := List (Tensor Float)

def OutputTuple.shapes (outputs : OutputTuple) : List Shape :=
  outputs.map (·.shape)

end TensorParity
