/-!
How text and numbers are laid out in a field of some width: filled with blanks on one side, or with
zeros after the sign.
-/
namespace TensorParity.Text

structure Layout where
  left : Bool := false
  zeros : Bool := false
  plus : Bool := false
  space : Bool := false
  alternate : Bool := false
  width : Nat := 0
  places : Option Nat := none
  deriving DecidableEq

namespace Layout

/-- Flags at the beginning of a directive, and what follows them. -/
def flags (l : Layout) : List Char → Layout × List Char
  | '-' :: rest => flags { l with left := true } rest
  | '0' :: rest => flags { l with zeros := true } rest
  | '+' :: rest => flags { l with plus := true } rest
  | ' ' :: rest => flags { l with space := true } rest
  | '#' :: rest => flags { l with alternate := true } rest
  | cs => (l, cs)

/-- A width; a negative one fills on the right. -/
def withWidth (l : Layout) (n : Int) : Layout :=
  if n < 0 then { l with left := true, width := n.natAbs } else { l with width := n.toNat }

/-- A number of places; a negative one is none. -/
def withPlaces (l : Layout) (n : Int) : Layout :=
  { l with places := if n < 0 then none else some n.toNat }

/-- Fills with blanks up to the width. -/
def fill (l : Layout) (cs : List Char) : List Char :=
  let blanks := List.replicate (l.width - cs.length) ' '
  if l.left then cs ++ blanks else blanks ++ cs

/-- A text, cut to the places. -/
def text (l : Layout) (cs : List Char) : List Char :=
  l.fill (match l.places with
    | some n => cs.take n
    | none => cs)

def sign (l : Layout) (negative : Bool) : List Char :=
  if negative then ['-'] else if l.plus then ['+'] else if l.space then [' '] else []

/-- What comes before the digits, zeros up to the width if `zeros` says so, and the digits. -/
def number (l : Layout) (zeros : Bool) (before digits : List Char) : List Char :=
  let missing := if zeros && !l.left then l.width - (before.length + digits.length) else 0
  l.fill (before ++ List.replicate missing '0' ++ digits)

/-- Digits of an integer. Places are the least number of digits; zero has none in no places. -/
def digits (l : Layout) (base : Nat) (n : Nat) : List Char :=
  let cs := if n = 0 ∧ l.places = some 0 then [] else Nat.toDigits base n
  List.replicate (l.places.getD 0 - cs.length) '0' ++ cs

/-- An integer with a sign, in base ten. -/
def signed (l : Layout) (n : Int) : List Char :=
  l.number (l.zeros && l.places.isNone) (l.sign (n < 0)) (l.digits 10 n.natAbs)

/-- A word without a sign, by the letter of a directive. -/
def unsigned (l : Layout) (letter : Char) (n : Nat) : List Char :=
  let base := if letter = 'o' then 8 else if letter = 'u' then 10 else 16
  let cs := l.digits base n
  let cs := if letter = 'X' then cs.map Char.toUpper else cs
  let before :=
    if l.alternate ∧ n ≠ 0 ∧ (letter = 'x' ∨ letter = 'X') then ['0', letter] else []
  let cs := if l.alternate ∧ letter = 'o' ∧ cs.head? ≠ some '0' then '0' :: cs else cs
  l.number (l.zeros && l.places.isNone) before cs

end Layout

end TensorParity.Text
