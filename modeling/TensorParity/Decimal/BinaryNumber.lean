import TensorParity.Rounding.Format
import TensorParity.Text.CharClass
import TensorParity.Text.Layout

/-!
Binary floating-point numbers as text: reading the number of a format that is nearest to a text, and
writing it with a fixed number of places, with an exponent, or in base sixteen. All arithmetic is
exact, and halves go to the even neighbour.
-/
namespace TensorParity

inductive Magnitude where
  /-- `significand * 2 ^ exponent`. -/
  | finite (significand : Nat) (exponent : Int)
  | infinite
  | undefined
  deriving DecidableEq

/-- A number of a binary format. -/
structure BinaryNumber where
  negative : Bool
  magnitude : Magnitude
  deriving DecidableEq

/-- A format with its significand in a word of 64 bits. -/
@[inline] def BinaryFormat.extended : BinaryFormat := ⟨15, 63⟩

namespace BinaryNumber

/-- What was read at the beginning of a text. -/
structure Reading where
  value : BinaryNumber
  rest : List Char
  found : Bool
  /-- Whether the number was neither too great nor too small for the format. -/
  inRange : Bool

/-- The number with an encoding. -/
def ofEncoding (f : BinaryFormat) (negative : Bool) (bits : Nat) : BinaryNumber :=
  if bits = f.infinity then ⟨negative, .infinite⟩
  else ⟨negative, .finite (f.significand bits) ((f.scale bits : Int) - f.unitExponent)⟩

/-- The number nearest to a quotient. A number that is not normal must be exact to be in range. -/
def ofQuotient (f : BinaryFormat) (negative : Bool) (numerator denominator : Nat) : BinaryNumber × Bool :=
  let scaled := numerator * Nat.pow 2 f.unitExponent
  let bits := f.nearest scaled denominator
  let exact := bits < f.infinity && f.units bits * denominator = scaled
  (ofEncoding f negative bits,
    bits < f.infinity && (Nat.pow 2 f.fractionBits ≤ bits || exact))

/-- Digits with at most one point among them: the digits, how many follow the point, and what
follows them all. -/
def mantissa (base : Nat) (cs : List Char) : List Char × Nat × List Char :=
  let isDigit (c : Char) : Bool := (Text.digitOf? base c).isSome
  let whole := cs.takeWhile isDigit
  match cs.drop whole.length with
  | '.' :: rest =>
    let fraction := rest.takeWhile isDigit
    if whole.isEmpty && fraction.isEmpty then ([], 0, cs)
    else (whole ++ fraction, fraction.length, rest.drop fraction.length)
  | rest => (whole, 0, rest)

/-- An exponent after its letter, if there is one. -/
def exponent (letter : Char) (cs : List Char) : Int × List Char :=
  match cs with
  | c :: rest =>
    if c.toLower = letter then
      let (negative, digits) :=
        match rest with
        | '-' :: rest => (true, rest)
        | '+' :: rest => (false, rest)
        | rest => (false, rest)
      let spelled := digits.takeWhile Char.isDigit
      if spelled.isEmpty then (0, cs)
      else
        let n : Int := Text.natOf 10 spelled
        (if negative then -n else n, digits.drop spelled.length)
    else (0, cs)
  | [] => (0, cs)

/-- No number with a leading digit farther from the point than this is in any format. -/
def farthest : Int := 20000

/-- Reads digits in base ten or sixteen. -/
def readDigits (f : BinaryFormat) (negative : Bool) (base : Nat) (cs : List Char) :
    Option Reading :=
  let (digits, places, rest) := mantissa base cs
  if digits.isEmpty then none
  else
    let (e, rest) := exponent (if base = 16 then 'p' else 'e') rest
    let n := Text.natOf base digits
    let power := e - (if base = 16 then 4 * places else places : Nat)
    let root := if base = 16 then 2 else 10
    let lead := power + digits.length * (if base = 16 then 4 else 1 : Nat)
    let (value, inRange) :=
      if n = 0 then (⟨negative, .finite 0 0⟩, true)
      else if farthest < lead then (⟨negative, .infinite⟩, false)
      else if lead < -farthest then (⟨negative, .finite 0 0⟩, false)
      else
        ofQuotient f negative (n * Nat.pow root power.toNat) (Nat.pow root (-power).toNat)
    some ⟨value, rest, true, inRange⟩

/-- What follows a word, whatever the case of its letters. -/
def afterWord? (word : String) (cs : List Char) : Option (List Char) :=
  let head := String.ofList ((cs.take word.length).map Char.toLower)
  if head = word then some (cs.drop word.length) else none

/-- What follows a remark in parentheses, if there is one. -/
def afterRemark (cs : List Char) : List Char :=
  match cs with
  | '(' :: rest =>
    match rest.dropWhile fun c => c.isAlphanum || c = '_' with
    | ')' :: rest => rest
    | _ => cs
  | cs => cs

/-- Reads a number after blanks. -/
def read (f : BinaryFormat) (text : List Char) : Reading :=
  let cs := text.dropWhile Text.isSpace
  let (negative, cs) :=
    match cs with
    | '-' :: rest => (true, rest)
    | '+' :: rest => (false, rest)
    | cs => (false, cs)
  let named : Option Reading :=
    match (afterWord? "infinity" cs).or (afterWord? "inf" cs) with
    | some rest => some ⟨⟨negative, .infinite⟩, rest, true, true⟩
    | none =>
      (afterWord? "nan" cs).map fun rest => ⟨⟨negative, .undefined⟩, afterRemark rest, true, true⟩
  let hexadecimal : Option Reading :=
    match cs with
    | '0' :: x :: rest => if x = 'x' ∨ x = 'X' then readDigits f negative 16 rest else none
    | _ => none
  ((named.or hexadecimal).or (readDigits f negative 10 cs)).getD
    ⟨⟨false, .finite 0 0⟩, text, false, true⟩

/-- A finite magnitude times a power of ten, as a quotient. -/
def quotient (significand : Nat) (exponent : Int) (power : Int) : Nat × Nat :=
  (significand * Nat.pow 2 exponent.toNat * Nat.pow 10 power.toNat,
    Nat.pow 2 (-exponent).toNat * Nat.pow 10 (-power).toNat)

/-- The decimal exponent of a finite magnitude. -/
def leadPower (significand : Nat) (exponent : Int) : Int :=
  if significand = 0 then 0
  else
    let guess := Int.fdiv (((significand.log2 : Int) + exponent) * 30103) 100000
    let (numerator, denominator) := quotient significand exponent (-guess)
    if numerator < denominator then guess - 1
    else if 10 * denominator ≤ numerator then guess + 1
    else guess

/-- So many digits after the first, rounded, and the power of ten of the first. -/
def significant (significand : Nat) (exponent : Int) (places : Nat) : List Char × Int :=
  let power := leadPower significand exponent
  let rounded (power : Int) : Nat :=
    let (numerator, denominator) := quotient significand exponent (places - power)
    roundHalfEven numerator denominator
  let n := rounded power
  if n = 0 then (List.replicate (places + 1) '0', 0)
  else if Nat.pow 10 (places + 1) ≤ n then (Nat.toDigits 10 (rounded (power + 1)), power + 1)
  else (Nat.toDigits 10 n, power)

/-- Digits with a point after the first `whole` of them. -/
def pointed (alternate : Bool) (whole : Nat) (digits : List Char) : List Char :=
  let fraction := digits.drop whole
  digits.take whole ++ (if fraction.isEmpty && !alternate then [] else '.' :: fraction)

/-- Digits without zeros at the end, but at least so many. -/
def trimZeros (digits : List Char) (least : Nat) : List Char :=
  let kept := (digits.reverse.dropWhile (· = '0')).length
  digits.take (max kept least)

/-- An exponent of at least so many digits. -/
def exponentText (letter : Char) (least : Nat) (power : Int) : List Char :=
  let cs := Nat.toDigits 10 power.natAbs
  letter :: (if power < 0 then '-' else '+') :: (List.replicate (least - cs.length) '0' ++ cs)

/-- So many digits after the point. -/
def fixedText (alternate : Bool) (significand : Nat) (exponent : Int) (places : Nat) : List Char :=
  let (numerator, denominator) := quotient significand exponent places
  let cs := Nat.toDigits 10 (roundHalfEven numerator denominator)
  let cs := List.replicate (places + 1 - cs.length) '0' ++ cs
  pointed alternate (cs.length - places) cs

/-- One digit before the point and so many after it. -/
def scientificText (alternate : Bool) (significand : Nat) (exponent : Int) (places : Nat) :
    List Char :=
  let (digits, power) := significant significand exponent places
  pointed alternate 1 digits ++ exponentText 'e' 2 power

/-- So many digits, with an exponent only where the point would be far from them. -/
def generalText (alternate : Bool) (significand : Nat) (exponent : Int) (count : Nat) :
    List Char :=
  let (digits, power) := significant significand exponent (count - 1)
  if power < -4 ∨ (count : Int) ≤ power then
    let digits := if alternate then digits else trimZeros digits 1
    pointed alternate 1 digits ++ exponentText 'e' 2 power
  else if power < 0 then
    let digits := List.replicate power.natAbs '0' ++ digits
    pointed alternate 1 (if alternate then digits else trimZeros digits 1)
  else
    let whole := power.toNat + 1
    pointed alternate whole (if alternate then digits else trimZeros digits whole)

/-- In base sixteen. The first digit holds `leadBits` bits of a significand of `bits`. -/
def hexadecimalText (alternate : Bool) (bits leadBits : Nat) (significand : Nat) (exponent : Int)
    (places : Option Nat) : List Char :=
  let count := (bits - leadBits) / 4
  let power := if significand = 0 then 0 else exponent + (bits - leadBits : Nat)
  let shown := min (places.getD count) count
  let n := roundHalfEven significand (Nat.pow 16 (count - shown))
  let cs := Nat.toDigits 16 n
  let cs := List.replicate (shown + 1 - cs.length) '0' ++ cs
  let cs :=
    match places with
    | none => trimZeros cs 1
    | some p => cs ++ List.replicate (p - shown) '0'
  pointed alternate 1 cs ++ exponentText 'p' 1 power

/-- How the numbers of a format are written in base sixteen. -/
structure Hexadecimal where
  bits : Nat
  leadBits : Nat

/-- A number by the letter of a directive; a capital letter writes capitals. -/
def layout (h : Hexadecimal) (l : Text.Layout) (letter : Char) (r : BinaryNumber) : List Char :=
  let case (cs : List Char) : List Char := if letter.isUpper then cs.map Char.toUpper else cs
  let sign := l.sign r.negative
  match r.magnitude with
  | .infinite => l.fill (sign ++ case ['i', 'n', 'f'])
  | .undefined => l.fill (sign ++ case ['n', 'a', 'n'])
  | .finite significand exponent =>
    let places := l.places.getD 6
    match letter.toLower with
    | 'f' => l.number l.zeros sign (fixedText l.alternate significand exponent places)
    | 'e' =>
      l.number l.zeros sign (case (scientificText l.alternate significand exponent places))
    | 'a' =>
      l.number l.zeros (sign ++ case ['0', 'x'])
        (case (hexadecimalText l.alternate h.bits h.leadBits significand exponent l.places))
    | _ =>
      l.number l.zeros sign (case (generalText l.alternate significand exponent (max places 1)))

end BinaryNumber

end TensorParity
