import TensorParity.Text.CharClass

/-!
Integers at the beginning of a text, in words of 64 bits.
-/
namespace TensorParity.Text

/-- One more than the greatest number without a sign, and than the greatest with one. -/
def wordLimit : Nat := 18446744073709551616

def signedLimit : Nat := 9223372036854775808

/-- The number with a sign that has the same 64 bits. -/
def wrapSigned (n : Int) : Int := Int.bmod n wordLimit

/-- What was read at the beginning of a text. -/
structure IntegerReading where
  value : Int
  rest : List Char
  /-- Whether there was a number. -/
  found : Bool
  /-- Whether it was one that the word holds; if not, the value is the nearest that it holds. -/
  inRange : Bool

/-- The base of a number and where its digits begin. A base of zero is told by the number. -/
def baseOf (base : Nat) (cs : List Char) : Nat × List Char :=
  match base, cs with
  | 0, '0' :: x :: c :: rest =>
    if (x = 'x' ∨ x = 'X') ∧ isHexDigit c then (16, c :: rest)
    else if (x = 'b' ∨ x = 'B') ∧ (c = '0' ∨ c = '1') then (2, c :: rest)
    else (8, cs)
  | 0, '0' :: _ => (8, cs)
  | 0, _ => (10, cs)
  | base, _ => (base, cs)

/-- Reads a number after blanks, with or without a sign. -/
def readInteger (signed : Bool) (base : Nat) (text : List Char) : IntegerReading :=
  let cs := text.dropWhile isSpace
  let (negative, cs) :=
    match cs with
    | '-' :: rest => (true, rest)
    | '+' :: rest => (false, rest)
    | cs => (false, cs)
  let (base, cs) := baseOf base cs
  let digits := cs.takeWhile fun c => (digitOf? base c).isSome
  let rest := cs.drop digits.length
  if digits.isEmpty then ⟨0, text, false, true⟩
  else
    let n := natOf base digits
    if signed then
      if negative then
        if signedLimit < n then ⟨-signedLimit, rest, true, false⟩ else ⟨-n, rest, true, true⟩
      else if signedLimit ≤ n then ⟨signedLimit - 1, rest, true, false⟩
      else ⟨n, rest, true, true⟩
    else if wordLimit ≤ n then ⟨wordLimit - 1, rest, true, false⟩
    else if negative then ⟨(-n) % wordLimit, rest, true, true⟩
    else ⟨n, rest, true, true⟩

/-- The number that a text spells, with blanks around it. `spelled` asks for a digit at least. -/
def integer? (base : Nat) (spelled : Bool) (text : String) : Option Int :=
  let r := readInteger true base text.toList
  if !r.inRange ∨ (spelled ∧ !r.found) ∨ !r.rest.all isSpace then none else some r.value

end TensorParity.Text
