import TensorParity.Table
/-!
Data trees. A tree is what a text says up to the point where it stops being well formed, so that a
reader which walks the tree in order meets its first error where the text has it. Sorted trees have
their keys in ascending order in every object, each key once.
-/
namespace TensorParity

/-- A number keeps the class its spelling puts it in: an unsigned or negative integer of a word, or
a double. -/
inductive JsonNumber where
  | unsigned (n : Nat)
  /-- The integer `-n`, with `n` positive. -/
  | negative (n : Nat)
  | real (x : Float)
  deriving DecidableEq

inductive Json where
  | null
  | bool (b : Bool)
  | number (n : JsonNumber)
  | string (s : String)
  | array (items : List Json)
  /-- `closed` tells whether the text reached the closing brace. -/
  | object (fields : List (String × Json)) (closed : Bool)
  /-- The text is not well formed here; nothing after it was read. -/
  | broken
  deriving Inhabited

namespace Json

/-- A finished object with the fields in this order. -/
def record (fields : List (String × Json)) : Json := .object fields true

def ofNat (n : Nat) : Json := .number (.unsigned n)

/-- A double. NaN and the infinities have no number. -/
def ofFloat (x : Float) : Json := if x.isFinite then .number (.real x) else .null

def ofShape (s : List Nat) : Json := .array (s.map ofNat)

/-- A value that may be absent. -/
def ofOption {α : Type} (encode : α → Json) : Option α → Json
  | none => .null
  | some a => encode a

mutual

/-- The same data with sorted objects. Of fields with one key the last stays. -/
def sorted : Json → Json
  | .array items => .array (sortedItems items)
  | .object fields closed => .object (sortedFields [] fields) closed
  | j => j

def sortedItems : List Json → List Json
  | [] => []
  | item :: rest => item.sorted :: sortedItems rest

/-- Puts fields in order among those already sorted. -/
def sortedFields (before : List (String × Json)) : List (String × Json) → List (String × Json)
  | [] => before
  | (key, value) :: rest => sortedFields (Table.insertEntry key value.sorted before) rest

end

/-- A finished object with the fields of a table. -/
def ofTable (t : Table Json) : Json := .record t.entries

end Json

end TensorParity
