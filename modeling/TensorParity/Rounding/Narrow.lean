import TensorParity.Tensor
import TensorParity.Rounding.Format

/-!
Rounding of doubles through single and half precision and back. Both steps of the half-precision
path round to nearest, first to single and then to half.
-/
namespace TensorParity

open BinaryFormat

/-- A signed encoding: the sign, and the bits below it. -/
structure SignedBits where
  negative : Bool
  bits : Nat
  deriving DecidableEq

namespace SignedBits

/-- Splits a word of `width` bits below its sign bit. -/
@[inline]
def ofWord (width : Nat) (word : Nat) : SignedBits :=
  ⟨Nat.pow 2 width ≤ word, word % Nat.pow 2 width⟩

@[inline]
def toWord (width : Nat) (x : SignedBits) : Nat :=
  if x.negative then Nat.pow 2 width + x.bits else x.bits

/-- Rounds to another format. Infinity stays infinite; anything above it is the quiet NaN. -/
@[inline]
def convert (source target : BinaryFormat) (x : SignedBits) : SignedBits :=
  if x.bits < source.infinity then ⟨x.negative, source.convert target x.bits⟩
  else if x.bits = source.infinity then ⟨x.negative, target.infinity⟩
  else ⟨x.negative, target.infinity + Nat.pow 2 (target.fractionBits - 1)⟩

end SignedBits

/-- Sign and magnitude bits of a double. -/
@[inline]
def SignedBits.ofFloat (x : Float) : SignedBits :=
  .ofWord 63 x.toBits.toNat

@[inline]
def SignedBits.toFloat (x : SignedBits) : Float :=
  Float.ofBits (x.toWord 63).toUInt64

/-- The single-precision encoding nearest to a double. -/
@[inline]
def singleOf (x : Float) : SignedBits :=
  (SignedBits.ofFloat x).convert binary64 binary32

/-- The double with the value of a single-precision encoding. -/
@[inline]
def ofSingle (x : SignedBits) : Float :=
  (x.convert binary32 binary64).toFloat

/-- Rounds through single precision. -/
def roundToSingle (x : Float) : Float :=
  ofSingle (singleOf x)

/-- Rounds through single and then half precision. -/
def roundToHalf (x : Float) : Float :=
  (((singleOf x).convert binary32 binary16).convert binary16 binary64).toFloat

/-- Every element rounded through single precision. -/
def Tensor.roundToSingle (t : Tensor Float) : Tensor Float :=
  t.map TensorParity.roundToSingle

end TensorParity
