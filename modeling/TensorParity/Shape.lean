/-!
Shapes of row-major tensors: element counts, strides and coordinates. Counts and strides are held in
64-bit words; a count that leaves the range is refused, a stride that would leave it stops at the
largest word.
-/
namespace TensorParity

/-- Sizes along each axis, outermost first. -/
abbrev Shape := List Nat

namespace Shape

/-- Sizes, counts and positions lie below this limit. -/
def wordLimit : Nat := Nat.pow 2 64

/-- One step of a count: the product, if it and the size it takes in are words. -/
def mulWord? (n d : Nat) : Option Nat :=
  if d < wordLimit ∧ n * d < wordLimit then some (n * d) else none

/-- Number of elements, multiplied from the outermost axis inwards. There is none as soon as one
size or partial product leaves the word range, even if a later axis is empty. -/
def numel? (s : Shape) : Option Nat :=
  s.foldlM mulWord? 1

/-- The product of all sizes. -/
def volume (s : Shape) : Nat := s.foldr (· * ·) 1

/-- Number of elements below one step of an axis whose inner axes are `s`, stopping at the largest
word. -/
def span (s : Shape) : Nat :=
  s.foldr (fun d n => min (n * d) (wordLimit - 1)) 1

/-- Distance between neighbours along each axis. -/
def strides : Shape → List Nat
  | [] => []
  | _ :: inner => span inner :: strides inner

/-- Coordinates of the element at a flat row-major position. -/
def coordinates : Shape → Nat → List Nat
  | [], _ => []
  | _ :: inner, flat => flat / span inner :: coordinates inner (flat % span inner)

/-- Written `[2, 3]`. -/
def text (s : Shape) : String :=
  "[" ++ ", ".intercalate (s.map toString) ++ "]"

/-- A list of shapes, written `[[2, 3], []]`. -/
def listText (shapes : List Shape) : String :=
  "[" ++ ", ".intercalate (shapes.map text) ++ "]"

theorem length_strides (s : Shape) : s.strides.length = s.length := by
  induction s with
  | nil => rfl
  | cons _ inner ih => simp [strides, ih]

theorem length_coordinates (s : Shape) (flat : Nat) : (s.coordinates flat).length = s.length := by
  induction s generalizing flat with
  | nil => rfl
  | cons _ inner ih => simp [coordinates, ih]

end Shape

end TensorParity
