import TensorParity.Comparison.Tolerance
import TensorParity.Decimal.Notation

/-!
Comparing two output tuples position by position. The verdict names the first place where they
differ: their lengths, then the first position whose shapes differ or whose elements are not all
close.
-/
namespace TensorParity

/-- The first difference of two tuples. -/
inductive Mismatch where
  | length (reference target : Nat)
  | shape (position : Nat) (reference target : Shape)
  | numeric (position flat : Nat) (index : List Nat) (reference target distance bound : Float)
  deriving DecidableEq

namespace Mismatch

/-- The tuple position of the difference; a difference in length has none. -/
def position : Mismatch → Option Nat
  | length .. => none
  | shape position .. => some position
  | numeric position .. => some position

/-- The word that reports use. -/
def code : Mismatch → String
  | length .. => "length_mismatch"
  | shape .. => "shape_mismatch"
  | numeric .. => "numeric_mismatch"

def message : Mismatch → String
  | length reference target => s!"output count differs: reference={reference} target={target}"
  | shape position reference target =>
    s!"output #{position} shape differs: reference={reference.text} target={target.text}"
  | numeric position _ index reference target distance bound =>
    s!"output #{position} at {Shape.text index}: reference={Notation.message reference} " ++
      s!"target={Notation.message target} |diff|={Notation.message distance} > " ++
      s!"bound={Notation.message bound}"

def toJson : Mismatch → Json
  | length reference target => .record [
    ("kind", .string "length"), ("reference", .ofNat reference), ("target", .ofNat target)]
  | shape position reference target => .record [
    ("kind", .string "shape"), ("position", .ofNat position), ("reference", .ofShape reference),
    ("target", .ofShape target)]
  | numeric position flat index reference target distance bound => .record [
    ("kind", .string "numeric"), ("position", .ofNat position), ("flat_index", .ofNat flat),
    ("index", .ofShape index), ("reference", .ofFloat reference), ("target", .ofFloat target),
    ("abs_diff", .ofFloat distance), ("bound", .ofFloat bound)]

end Mismatch

/-- Why two tuples cannot be compared. -/
inductive ComparisonError where
  | emptyOutputs
  | invalidTolerance (tolerance : Tolerance)
  | tensor (error : TensorError)
  deriving DecidableEq

namespace ComparisonError

def code : ComparisonError → String
  | emptyOutputs => "degenerate_outputs"
  | invalidTolerance _ => "invalid_tolerance"
  | tensor _ => "tensor_error"

def message : ComparisonError → String
  | emptyOutputs => "both output tuples are empty; at least one pair must be compared"
  | invalidTolerance t =>
    s!"tolerance must be finite and non-negative, got rtol={Notation.message t.relative} " ++
      s!"atol={Notation.message t.absolute}"
  | tensor error => error.message

end ComparisonError

structure Verdict where
  /-- Positions that were examined before the verdict was reached. -/
  pairsChecked : Nat
  tolerance : Tolerance
  mismatch : Option Mismatch
  deriving DecidableEq

namespace Verdict

def passed (v : Verdict) : Bool := v.mismatch.isNone

def code (v : Verdict) : String :=
  match v.mismatch with
  | none => "equivalent"
  | some m => m.code

def toJson (v : Verdict) : Json :=
  .record [
    ("pairs_checked", .ofNat v.pairsChecked),
    ("tolerance", v.tolerance.toJson),
    ("mismatch", .ofOption Mismatch.toJson v.mismatch)]

end Verdict

/-- A tolerance whose bounds are usable. -/
def Tolerance.validate (t : Tolerance) : Except ComparisonError Unit :=
  if t.valid then .ok () else .error (.invalidTolerance t)

/-- The first pair that is not close, and its place, counted from `flat` on. -/
def firstApart (t : Tolerance) (flat : Nat) : List (Float × Float) → Option (Nat × Float × Float)
  | [] => none
  | (r, x) :: rest => if t.isClose r x then firstApart t (flat + 1) rest else some (flat, r, x)

/-- The difference of one pair of tensors, if they differ. -/
def comparePair (t : Tolerance) (position : Nat) (reference target : Tensor Float) :
    Except ComparisonError (Option Mismatch) :=
  if reference.shape ≠ target.shape then
    .ok (some (.shape position reference.shape target.shape))
  else
    match firstApart t 0 (reference.data.toList.zip target.data.toList) with
    | none => .ok none
    | some (flat, r, x) => do
      let index ← (reference.unravel flat).mapError .tensor
      return some (.numeric position flat index r x (r - x).abs (t.bound r))

/-- Walks the pairs from a position on and stops at the first difference, with the number of
positions examined. -/
def comparePairs (t : Tolerance) (position : Nat) :
    List (Tensor Float × Tensor Float) → Except ComparisonError (Nat × Option Mismatch)
  | [] => .ok (position, none)
  | (reference, target) :: rest => do
    match ← comparePair t position reference target with
    | some m => return (position + 1, some m)
    | none => comparePairs t (position + 1) rest

/-- Compares a target with its reference. A difference in length is found before emptiness is, so
only two empty tuples are refused as empty. -/
def compare (reference target : OutputTuple) (t : Tolerance) :
    Except ComparisonError Verdict := do
  t.validate
  if reference.length ≠ target.length then
    return ⟨0, t, some (.length reference.length target.length)⟩
  if reference.isEmpty then
    .error .emptyOutputs
  let (checked, mismatch) ← comparePairs t 0 (reference.zip target)
  return ⟨checked, t, mismatch⟩

end TensorParity
