/-!
The arithmetic the spatial kernels need. Kernels are written once for any scalar type; they run on
doubles, and their algebra can be studied on an exact type.
-/
namespace TensorParity

/-- Ordered arithmetic with a floor and a conversion to positions. -/
class Scalar (α : Type) extends Add α, Sub α, Mul α where
  ofNat : Nat → α
  floor : α → α
  /-- The integer part as a position; a negative value and anything that is no number give zero. -/
  toPosition : α → Nat
  le : α → α → Bool
  lt : α → α → Bool

/-- The largest integral double not above `x`. Doubles from `2 ^ 52` on are integral already. -/
def floorFloat (x : Float) : Float :=
  if x.abs < 4503599627370496.0 then
    let truncated := x.abs.toUInt64.toFloat
    if truncated == x.abs then x
    else if x < 0.0 then -truncated - 1.0
    else truncated
  else x

instance : Scalar Float where
  ofNat n := n.toUInt64.toFloat
  floor := floorFloat
  toPosition x := x.toUInt64.toNat
  le a b := a ≤ b
  lt a b := a < b

/-- Folds `f` over `start`, …, `start + count - 1`, and stops as soon as a step has no result. -/
@[specialize]
def foldRange? {β : Type} (f : Nat → β → Option β) : (start count : Nat) → β → Option β
  | _, 0, acc => some acc
  | start, count + 1, acc =>
    match f start acc with
    | some acc => foldRange? f (start + 1) count acc
    | none => none

/-- The values of `f` at `0`, …, `count - 1`, if it has all of them. -/
@[specialize]
def tabulate? {α : Type} (f : Nat → Option α) (count : Nat) : Option (Array α) :=
  foldRange? (fun i (acc : Array α) =>
    match f i with
    | some value => some (acc.push value)
    | none => none) 0 count #[]

end TensorParity
