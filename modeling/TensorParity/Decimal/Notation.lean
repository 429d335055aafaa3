import TensorParity.Decimal.Shortest
import TensorParity.Rounding.Narrow

/-!
How a double is written: in messages always positionally, in data with an exponent once the leading
digit stands far from the point. An exact tie between two shortest decimals goes up in messages and
to the even digit in data.
-/
namespace TensorParity

namespace Decimal

/-- Decimal digits of a natural number, most significant first. -/
def digitChars (n : Nat) : List Char := Nat.toDigits 10 n

/-- Positional digits around a point. `whole` writes the fraction of an integral value. -/
def positional (whole : List Char) (d : Decimal) : List Char :=
  let digits := digitChars d.digits
  let point := (digits.length : Int) + d.exponent
  if 0 ≤ d.exponent then digits ++ List.replicate d.exponent.toNat '0' ++ whole
  else if 0 < point then digits.take point.toNat ++ '.' :: digits.drop point.toNat
  else '0' :: '.' :: List.replicate (-point).toNat '0' ++ digits

/-- One digit before the point, and a signed exponent. -/
def scientific (d : Decimal) : List Char :=
  let digits := digitChars d.digits
  let lead := (digits.length : Int) + d.exponent - 1
  let sign := if lead < 0 then '-' else '+'
  let fraction := if digits.length = 1 then [] else '.' :: digits.drop 1
  digits.take 1 ++ fraction ++ 'e' :: sign :: digitChars lead.natAbs

/-- Power of ten of the leading digit. -/
def leadExponent (d : Decimal) : Int :=
  ((digitChars d.digits).length : Int) + d.exponent - 1

end Decimal

namespace Notation

private def signed (negative : Bool) (text : List Char) : List Char :=
  if negative then '-' :: text else text

/-- The digits of a finite magnitude. -/
def magnitude (tie : Decimal.Tie) (bits : Nat) : Decimal :=
  if bits = 0 then ⟨0, 0⟩ else Decimal.shortest tie bits

/-- Messages never use an exponent, and integral values have no point. -/
def message (x : Float) : String :=
  let s := SignedBits.ofFloat x
  if x.isNaN then "NaN"
  else if s.bits < BinaryFormat.binary64.infinity then
    String.ofList (signed s.negative ((magnitude .up s.bits).positional []))
  else String.ofList (signed s.negative ['i', 'n', 'f'])

/-- Data keeps a fraction on integral values and uses an exponent when the leading digit is below
`10 ^ -5` or above `10 ^ 15`. A value that is not finite has no digits. -/
def data? (x : Float) : Option (List Char) :=
  let s := SignedBits.ofFloat x
  if s.bits < BinaryFormat.binary64.infinity then
    let d := magnitude .even s.bits
    let lead := d.leadExponent
    some (signed s.negative
      (if -5 ≤ lead ∧ lead ≤ 15 then d.positional ['.', '0'] else d.scientific))
  else none

end Notation

end TensorParity
