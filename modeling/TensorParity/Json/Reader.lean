import TensorParity.Json.Basic
import TensorParity.Decimal.Shortest
import TensorParity.Rounding.Narrow

/-!
Reads text as a data tree. Blanks are the four of the format, numbers have no leading zeros, strings
hold no raw control characters and no unpaired surrogate escapes, and containers nest at most 127
deep.
-/
namespace TensorParity

namespace Json

/-- Containers nest at most this deep. -/
def maxDepth : Nat := 127

def isBlank (c : Char) : Bool :=
  c = ' ' || c = '\t' || c = '\n' || c = '\r'

def skipBlank (cs : List Char) : List Char :=
  cs.dropWhile isBlank

namespace Reader

/-- Value of a run of decimal digits. -/
def digitsValue (digits : List Char) : Nat :=
  digits.foldl (fun n c => 10 * n + (c.toNat - '0'.toNat)) 0

/-- A double from the digits of its magnitude, unless that is out of range. -/
def real? (negative : Bool) (d : Decimal) : Option JsonNumber :=
  let bits := d.nearest
  if bits = BinaryFormat.binary64.infinity then none
  else some (.real (SignedBits.toFloat ⟨negative, bits⟩))

/-- An integer literal. One that fits no word is a double, and so is minus zero. -/
def integer? (negative : Bool) (n : Nat) : Option JsonNumber :=
  if negative then
    if 0 < n ∧ n ≤ Nat.pow 2 63 then some (.negative n) else real? true ⟨n, 0⟩
  else if n < Shape.wordLimit then some (.unsigned n) else real? false ⟨n, 0⟩

/-- The digits after a point, if there is one. A point needs a digit after it. -/
def fraction? : List Char → Option (List Char × List Char)
  | '.' :: cs =>
    let (digits, rest) := cs.span Char.isDigit
    if digits.isEmpty then none else some (digits, rest)
  | cs => some ([], cs)

/-- An exponent, if there is one. -/
def exponent? : List Char → Option (Option Int × List Char)
  | c :: cs =>
    if c = 'e' ∨ c = 'E' then
      let (negative, cs) :=
        match cs with
        | '-' :: rest => (true, rest)
        | '+' :: rest => (false, rest)
        | _ => (false, cs)
      let (digits, rest) := cs.span Char.isDigit
      if digits.isEmpty then none
      else
        let value : Int := digitsValue digits
        some (some (if negative then -value else value), rest)
    else some (none, c :: cs)
  | [] => some (none, [])

/-- The digits before the point: a single zero, or a run that does not start with one. -/
def whole? : List Char → Option (List Char × List Char)
  | '0' :: c :: rest => if c.isDigit then none else some (['0'], c :: rest)
  | cs =>
    let (digits, rest) := cs.span Char.isDigit
    if digits.isEmpty then none else some (digits, rest)

/-- A number without its sign. -/
def unsigned? (negative : Bool) (cs : List Char) : Option (JsonNumber × List Char) := do
  let (whole, cs) ← whole? cs
  let (fraction, cs) ← fraction? cs
  let (exponent, cs) ← exponent? cs
  let value ←
    match fraction, exponent with
    | [], none => integer? negative (digitsValue whole)
    | _, _ =>
      real? negative ⟨digitsValue (whole ++ fraction), exponent.getD 0 - fraction.length⟩
  return (value, cs)

def number? : List Char → Option (JsonNumber × List Char)
  | '-' :: cs => unsigned? true cs
  | cs => unsigned? false cs

def hexDigit? (c : Char) : Option Nat :=
  if c.isDigit then some (c.toNat - '0'.toNat)
  else if 'a' ≤ c ∧ c ≤ 'f' then some (c.toNat - 'a'.toNat + 10)
  else if 'A' ≤ c ∧ c ≤ 'F' then some (c.toNat - 'A'.toNat + 10)
  else none

def hex4? (a b c d : Char) : Option Nat := do
  let a ← hexDigit? a
  let b ← hexDigit? b
  let c ← hexDigit? c
  let d ← hexDigit? d
  return ((a * 16 + b) * 16 + c) * 16 + d

/-- The character a one-letter escape stands for. -/
def escaped? : Char → Option Char
  | '"' => some '"'
  | '\\' => some '\\'
  | '/' => some '/'
  | 'b' => some '\x08'
  | 'f' => some '\x0c'
  | 'n' => some '\n'
  | 'r' => some '\r'
  | 't' => some '\t'
  | _ => none

def isHighSurrogate (n : Nat) : Bool := 0xD800 ≤ n && n < 0xDC00

def isLowSurrogate (n : Nat) : Bool := 0xDC00 ≤ n && n < 0xE000

/-- The character a pair of surrogates spells. -/
def joinSurrogates (high low : Nat) : Char :=
  Char.ofNat (0x10000 + (high - 0xD800) * 0x400 + (low - 0xDC00))

/-- The characters up to the closing quote, after those already read (kept in reverse). -/
def string? (read : List Char) : List Char → Option (String × List Char)
  | '"' :: rest => some (String.ofList read.reverse, rest)
  | '\\' :: 'u' :: a :: b :: c :: d :: rest =>
    match hex4? a b c d with
    | none => none
    | some high =>
      if isLowSurrogate high then none
      else if isHighSurrogate high then
        match rest with
        | '\\' :: 'u' :: a :: b :: c :: d :: rest =>
          match hex4? a b c d with
          | none => none
          | some low =>
            if isLowSurrogate low then string? (joinSurrogates high low :: read) rest else none
        | _ => none
      else string? (Char.ofNat high :: read) rest
  | '\\' :: c :: rest =>
    match escaped? c with
    | none => none
    | some c => string? (c :: read) rest
  | c :: rest => if c.toNat < 0x20 ∨ c = '\\' then none else string? (c :: read) rest
  | [] => none

/-- Drops an expected word. -/
def word? (word : List Char) (cs : List Char) : Option (List Char) :=
  if word.isPrefixOf cs then some (cs.drop word.length) else none

mutual

/-- One value, and what follows it; nothing follows a value that is not well formed. -/
def value (depth : Nat) : (fuel : Nat) → List Char → Json × Option (List Char)
  | 0, _ => (.broken, none)
  | fuel + 1, cs =>
    match skipBlank cs with
    | '"' :: rest =>
      match string? [] rest with
      | some (s, rest) => (.string s, some rest)
      | none => (.broken, none)
    | '[' :: rest =>
      match depth with
      | 0 => (.broken, none)
      | depth + 1 =>
        match skipBlank rest with
        | ']' :: rest => (.array [], some rest)
        | rest => items depth fuel [] rest
    | '{' :: rest =>
      match depth with
      | 0 => (.broken, none)
      | depth + 1 =>
        match skipBlank rest with
        | '}' :: rest => (.object [] true, some rest)
        | rest => members depth fuel [] rest
    | 'n' :: rest =>
      match word? ['u', 'l', 'l'] rest with
      | some rest => (.null, some rest)
      | none => (.broken, none)
    | 't' :: rest =>
      match word? ['r', 'u', 'e'] rest with
      | some rest => (.bool true, some rest)
      | none => (.broken, none)
    | 'f' :: rest =>
      match word? ['a', 'l', 's', 'e'] rest with
      | some rest => (.bool false, some rest)
      | none => (.broken, none)
    | cs =>
      match number? cs with
      | some (n, rest) => (.number n, some rest)
      | none => (.broken, none)

/-- The items of an array from one on, after those already read (kept in reverse). -/
def items (depth : Nat) :
    (fuel : Nat) → (read : List Json) → List Char → Json × Option (List Char)
  | 0, read, _ => (.array (.broken :: read).reverse, none)
  | fuel + 1, read, cs =>
    match value depth fuel cs with
    | (v, none) => (.array (v :: read).reverse, none)
    | (v, some rest) =>
      match skipBlank rest with
      | ',' :: rest => items depth fuel (v :: read) rest
      | ']' :: rest => (.array (v :: read).reverse, some rest)
      | _ => (.array (.broken :: v :: read).reverse, none)

/-- The fields of an object from one on, after those already read (kept in reverse). -/
def members (depth : Nat) :
    (fuel : Nat) → (read : List (String × Json)) → List Char → Json × Option (List Char)
  | 0, read, _ => (.object read.reverse false, none)
  | fuel + 1, read, cs =>
    match skipBlank cs with
    | '"' :: rest =>
      match string? [] rest with
      | none => (.object read.reverse false, none)
      | some (key, rest) =>
        match skipBlank rest with
        | ':' :: rest =>
          match value depth fuel rest with
          | (v, none) => (.object ((key, v) :: read).reverse false, none)
          | (v, some rest) =>
            match skipBlank rest with
            | ',' :: rest => members depth fuel ((key, v) :: read) rest
            | '}' :: rest => (.object ((key, v) :: read).reverse true, some rest)
            | _ => (.object ((key, v) :: read).reverse false, none)
        | _ => (.object ((key, .broken) :: read).reverse false, none)
    | _ => (.object read.reverse false, none)

end

/-! Nothing is read without fuel. -/

@[simp]
theorem value_zero (depth : Nat) (cs : List Char) : value depth 0 cs = (.broken, none) := by
  simp only [value]

@[simp]
theorem items_zero (depth : Nat) (read : List Json) (cs : List Char) :
    items depth 0 read cs = (.array (.broken :: read).reverse, none) := by
  simp only [items]

@[simp]
theorem members_zero (depth : Nat) (read : List (String × Json)) (cs : List Char) :
    members depth 0 read cs = (.object read.reverse false, none) := by
  simp only [members]

end Reader

/-- A text read as one value, and whether anything but blanks follows it. -/
structure Document where
  root : Json
  ended : Bool

/-- Reads a whole text. -/
def Document.ofChars (cs : List Char) : Document :=
  match Reader.value maxDepth (2 * cs.length + 2) cs with
  | (root, none) => ⟨root, true⟩
  | (root, some rest) => ⟨root, (skipBlank rest).isEmpty⟩

/-- Blanks at the end say nothing, so they are dropped before the characters are laid out. -/
def Document.ofString (text : String) : Document :=
  .ofChars (text.dropEndWhile isBlank).toString.toList

end Json

end TensorParity
