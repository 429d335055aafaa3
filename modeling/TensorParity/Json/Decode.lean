import TensorParity.Json.Reader
import TensorParity.Tensor
import TensorParity.Text.Quoted

/-!
Typed reading of data trees. A tree is walked in the order of its text, so the first fault a text
has is the one that is reported: an unknown key where the key stands, a wrong type where the value
stands, a missing field where its object ends.
-/
namespace TensorParity

namespace Json

/-- Why a tree is not a value of the type that is read. -/
inductive Fault where
  /-- The text is not well formed. -/
  | malformed
  /-- A value has another type; a string is shown in full. -/
  | wrongType (found : Option String)
  /-- A number is outside the range of its field. -/
  | outOfRange
  /-- An array has too many or too few items for a record. -/
  | wrongLength
  | unknownField (name : String)
  /-- A tag names none of the declared alternatives. -/
  | unknownVariant (name : String) (declared : List String)
  | duplicateField (name : String)
  | missingField (name : String)
  /-- The fields are there but do not fit together. -/
  | inconsistent (error : TensorError)
  /-- Something follows the value. -/
  | trailing
  deriving DecidableEq

/-- What a typed reader yields. -/
abbrev Decoded (α : Type) := Except Fault α

namespace Fault

def backquote : Char := Char.ofNat 96

def backquoted (name : String) : String :=
  String.ofList (backquote :: name.toList ++ [backquote])

def message : Fault → String
  | malformed => "malformed text"
  | wrongType (some found) => "invalid type: string " ++ Text.quoted found
  | wrongType none => "invalid type"
  | outOfRange => "invalid value"
  | wrongLength => "invalid length"
  | unknownField name => "unknown field " ++ backquoted name
  | unknownVariant name declared =>
    "unknown variant " ++ backquoted name ++ ", expected one of "
      ++ ", ".intercalate (declared.map backquoted)
  | duplicateField name => "duplicate field " ++ backquoted name
  | missingField name => "missing field " ++ backquoted name
  | inconsistent error => error.message
  | trailing => "trailing characters"

/-- What follows the first occurrence of `mark`. -/
def after? (mark : List Char) : List Char → Option (List Char)
  | [] => none
  | c :: cs =>
    if mark.isPrefixOf (c :: cs) then some ((c :: cs).drop mark.length) else after? mark cs

/-- The words and the backquote that introduce an unknown field in a message. -/
def unknownFieldMark : List Char := "unknown field ".toList ++ [backquote]

/-- The name that a message reports as an unknown field: it runs to the next backquote, wherever in
the message the introducing words come from. -/
def unknownFieldIn? (message : String) : Option String := do
  let tail ← after? unknownFieldMark message.toList
  let name := tail.takeWhile (· != backquote)
  if name.length < tail.length then some (String.ofList name) else none

end Fault

/-- Refuses a value of another type. A string is kept for the message. -/
def wrongType {α : Type} : Json → Decoded α
  | .broken => throw .malformed
  | .string s => throw (.wrongType (some s))
  | _ => throw (.wrongType none)

def asString : Json → Decoded String
  | .string s => return s
  | j => wrongType j

/-- An unsigned integer literal below `limit`. -/
def asBelow (limit : Nat) : Json → Decoded (Fin limit)
  | .number (.unsigned n) => if h : n < limit then return ⟨n, h⟩ else throw .outOfRange
  | .number (.negative _) => throw .outOfRange
  | j => wrongType j

def asBounded (limit : Nat) (j : Json) : Decoded Nat := Fin.val <$> asBelow limit j

/-- An unsigned integer literal of a word. -/
def asWord : Json → Decoded Nat := asBounded Shape.wordLimit

/-- An unsigned integer literal of half a word. -/
def asHalfWord : Json → Decoded Nat := asBounded (Nat.pow 2 32)

def JsonNumber.toFloat : JsonNumber → Float
  | .unsigned n => SignedBits.toFloat ⟨false, Decimal.nearest ⟨n, 0⟩⟩
  | .negative n => SignedBits.toFloat ⟨true, Decimal.nearest ⟨n, 0⟩⟩
  | .real x => x

/-- Any number. -/
def asFloat : Json → Decoded Float
  | .number n => return JsonNumber.toFloat n
  | j => wrongType j

/-- The items of an array, each read by `item`, in order. -/
def asList {α : Type} (item : Json → Decoded α) : Json → Decoded (List α)
  | .array items => items.mapM item
  | j => wrongType j

/-- A value that may be null. -/
def asOption {α : Type} (value : Json → Decoded α) : Json → Decoded (Option α)
  | .null => return none
  | j => some <$> value j

def asShape : Json → Decoded Shape := asList asWord

/-- Exactly two items. -/
def asPair {α : Type} (item : Json → Decoded α) : Json → Decoded (α × α)
  | .array (a :: b :: rest) => do
    let a ← item a
    let b ← item b
    if rest.isEmpty then return (a, b) else throw .wrongLength
  | .array [a] => do
    let _ ← item a
    throw .wrongLength
  | .array [] => throw .wrongLength
  | j => wrongType j

/-- Fills an empty slot; a filled one means that the field was repeated. -/
def fill {α : Type} (name : String) (slot : Option α) (value : Json → Decoded α) (j : Json) :
    Decoded (Option α) :=
  match slot with
  | some _ => throw (.duplicateField name)
  | none => some <$> value j

/-- What a required field holds at the end of its object. -/
def required {α : Type} (name : String) : Option α → Decoded α
  | some a => return a
  | none => throw (.missingField name)

/-- Walks an object's fields in order, and stops with a fault where the text breaks off. -/
def walkFields {σ : Type} (field : σ → String → Json → Decoded σ) (start : σ)
    (fields : List (String × Json)) (closed : Bool) : Decoded σ := do
  let state ← fields.foldlM (fun state (name, value) => field state name value) start
  if closed then return state else throw .malformed

/-- Reads a record: an object with fields in any order, or an array of the fields in declared
order. -/
def walkRecord {σ : Type} (declared : List String) (field : σ → String → Json → Decoded σ)
    (start : σ) : Json → Decoded σ
  | .object fields closed => walkFields field start fields closed
  | .array items => do
    let state ← (declared.zip items).foldlM
      (fun state (name, value) => field state name value) start
    if items.length ≤ declared.length then return state else throw .wrongLength
  | j => wrongType j

/-- Reads a whole text with a typed reader. -/
def decode {α : Type} (value : Json → Decoded α) (document : Document) : Decoded α := do
  let result ← value document.root
  if document.ended then return result else throw .trailing

mutual

/-- Whether the text of a tree is well formed. -/
def wellFormed : Json → Bool
  | .broken => false
  | .array items => wellFormedItems items
  | .object fields closed => closed && wellFormedFields fields
  | _ => true

def wellFormedItems : List Json → Bool
  | [] => true
  | item :: rest => item.wellFormed && wellFormedItems rest

def wellFormedFields : List (String × Json) → Bool
  | [] => true
  | (_, value) :: rest => value.wellFormed && wellFormedFields rest

end

end Json

end TensorParity
