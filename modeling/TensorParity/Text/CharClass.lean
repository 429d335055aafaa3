/-!
The named classes of ASCII characters that patterns and tools know, and the characters of case names
in file names and identifiers. No character beyond ASCII is in any of them.
-/
namespace TensorParity.Text

def isCntrl (c : Char) : Bool := c.toNat < 32 || c.toNat = 127

/-- Visible characters. -/
def isGraph (c : Char) : Bool := 32 < c.toNat && c.toNat < 127

def isPrint (c : Char) : Bool := c = ' ' || isGraph c

/-- The blank characters that lines may hold, and those that end them. -/
def isSpace (c : Char) : Bool := c = ' ' || (9 ≤ c.toNat && c.toNat ≤ 13)

def isHexDigit (c : Char) : Bool :=
  c.isDigit || ('a' ≤ c && c ≤ 'f') || ('A' ≤ c && c ≤ 'F')

/-- The characters of a named class. -/
def charClass? (name : String) : Option (Char → Bool) :=
  match name with
  | "alnum" => some Char.isAlphanum
  | "alpha" => some Char.isAlpha
  | "blank" => some fun c => c = ' ' || c = '\t'
  | "cntrl" => some isCntrl
  | "digit" => some Char.isDigit
  | "graph" => some isGraph
  | "lower" => some Char.isLower
  | "print" => some isPrint
  | "punct" => some fun c => isGraph c && !c.isAlphanum
  | "space" => some isSpace
  | "upper" => some Char.isUpper
  | "xdigit" => some isHexDigit
  | _ => none

/-- The value of a digit in a base of up to sixteen. -/
def digitOf? (base : Nat) (c : Char) : Option Nat :=
  let value :=
    if c.isDigit then some (c.toNat - 48)
    else if 'a' ≤ c ∧ c ≤ 'f' then some (c.toNat - 87)
    else if 'A' ≤ c ∧ c ≤ 'F' then some (c.toNat - 55)
    else none
  value.filter (· < base)

/-- The number that digits spell. -/
def natOf (base : Nat) (digits : List Char) : Nat :=
  digits.foldl (fun n c => n * base + (digitOf? base c).getD 0) 0

def isCaseChar (c : Char) : Bool := c.isAlphanum || c = '-' || c = '_'

/-- Lower case; every character outside letters, digits, `-` and `_` becomes `_`. Letters and digits
are those of ASCII. -/
def caseChar (c : Char) : Char := if isCaseChar c then c.toLower else '_'

def caseName (s : String) : String := String.ofList (s.toList.map caseChar)

end TensorParity.Text
