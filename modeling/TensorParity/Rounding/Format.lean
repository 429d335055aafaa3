/-!
Binary interchange formats and rounding to the nearest value of one. A non-negative value is
measured in units of the format's least subnormal number, so a magnitude is a natural number and
rounding needs only integer division. An encoding is the natural number that its exponent and
fraction bits spell.
-/
namespace TensorParity

/-- The quotient rounded to the nearest integer, a half to the even neighbour. -/
def roundHalfEven (numerator denominator : Nat) : Nat :=
  let quotient := numerator / denominator
  let twice := 2 * (numerator % denominator)
  if twice < denominator then quotient
  else if denominator < twice then quotient + 1
  else quotient + quotient % 2

/-- Widths of the two fields below the sign bit. -/
structure BinaryFormat where
  exponentBits : Nat
  fractionBits : Nat
  deriving DecidableEq

namespace BinaryFormat

@[inline] def binary64 : BinaryFormat := ⟨11, 52⟩
@[inline] def binary32 : BinaryFormat := ⟨8, 23⟩
@[inline] def binary16 : BinaryFormat := ⟨5, 10⟩

/-- Encoding of infinity: all exponent bits set and no fraction. -/
@[inline]
def infinity (f : BinaryFormat) : Nat :=
  (Nat.pow 2 f.exponentBits - 1) * Nat.pow 2 f.fractionBits

/-- Negated binary exponent of the least subnormal number: 1074 for `binary64`. -/
@[inline]
def unitExponent (f : BinaryFormat) : Nat :=
  Nat.pow 2 (f.exponentBits - 1) + f.fractionBits - 2

/-- Significand of a finite encoding, with its implicit leading bit. -/
@[inline]
def significand (f : BinaryFormat) (bits : Nat) : Nat :=
  if bits < Nat.pow 2 f.fractionBits then bits
  else bits % Nat.pow 2 f.fractionBits + Nat.pow 2 f.fractionBits

/-- Places by which the significand of a finite encoding is shifted, in units. -/
@[inline]
def scale (f : BinaryFormat) (bits : Nat) : Nat :=
  bits / Nat.pow 2 f.fractionBits - 1

/-- The value of a finite encoding, in units. -/
def units (f : BinaryFormat) (bits : Nat) : Nat :=
  f.significand bits * Nat.pow 2 (f.scale bits)

/-- The encoding nearest to `numerator / denominator` units. A carry out of the significand moves on
to the next exponent by itself, and a value beyond the range becomes infinity. -/
def nearest (f : BinaryFormat) (numerator denominator : Nat) : Nat :=
  let scale := (numerator / denominator).log2 - f.fractionBits
  let rounded := roundHalfEven numerator (denominator * Nat.pow 2 scale)
  min (scale * Nat.pow 2 f.fractionBits + rounded) f.infinity

/-- The encoding in `target` nearest to a finite encoding of `source`. The significand is shifted by
the difference of the two scales, so no number grows beyond the wider encoding. -/
@[inline]
def convert (source target : BinaryFormat) (bits : Nat) : Nat :=
  if bits = 0 then 0
  else
    let significand := source.significand bits
    let up := source.scale bits + target.unitExponent
    let scale := significand.log2 + up - (source.unitExponent + target.fractionBits)
    let place := source.unitExponent + scale
    let rounded :=
      if up ≤ place then roundHalfEven significand (Nat.pow 2 (place - up))
      else significand * Nat.pow 2 (up - place)
    min (scale * Nat.pow 2 target.fractionBits + rounded) target.infinity

end BinaryFormat

end TensorParity
