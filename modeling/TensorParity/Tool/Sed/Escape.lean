import TensorParity.Text.Utf8
import TensorParity.Tool.Sed.Script

/-!
What a backslash means in programs of the stream editor: characters by their numbers or by letters,
and in replacements also groups and the case of letters.
-/
namespace TensorParity.Tool.Sed

/-- What an escape may come to. -/
inductive Escape where
  /-- A character that is named by a letter or a number. -/
  | char (c : Char)
  /-- The character after the backslash. -/
  | itself (c : Char)
  /-- A backslash of its own. -/
  | backslash
  /-- A control character of an escape. -/
  | recursive

/-- The digits of a number in some base, at most so many. Without any, the letter before them is
meant. -/
def numbered (base room : Nat) (letter : Char) (cs : List Char) : Char × List Char :=
  let digits := (cs.take room).takeWhile fun c => (Text.digitOf? base c).isSome
  let n := Text.natOf base digits
  (if digits.isEmpty then letter else Char.ofNat (n % 256), cs.drop digits.length)

/-- The escape after a backslash, and what follows it. -/
def Escape.read (cs : List Char) : Escape × List Char :=
  match cs with
  | [] => (.backslash, [])
  | 'a' :: rest => (.char '\x07', rest)
  | 'f' :: rest => (.char '\x0c', rest)
  | 'n' :: rest => (.char '\n', rest)
  | 'r' :: rest => (.char '\r', rest)
  | 't' :: rest => (.char '\t', rest)
  | 'v' :: rest => (.char '\x0b', rest)
  | ['c'] => (.backslash, [])
  | 'c' :: '\\' :: '\\' :: rest => (.char '\x1c', rest)
  | 'c' :: '\\' :: rest => (.recursive, rest)
  | 'c' :: c :: rest => (.char (Char.ofNat (c.toUpper.toNat ^^^ 64)), rest)
  | 'd' :: rest =>
    let (c, rest) := numbered 10 3 'd' rest
    (.char c, rest)
  | 'o' :: rest =>
    let (c, rest) := numbered 8 3 'o' rest
    (.char c, rest)
  | 'x' :: rest =>
    let (c, rest) := numbered 16 2 'x' rest
    (.char c, rest)
  | c :: rest => (.itself c, rest)

/-- Rewrites the escapes of a text; none if one of them is wrong. Every escape is a character at
least. -/
def rewrite (write : Escape → List Char) : (fuel : Nat) → List Char → Option (List Char)
  | 0, _ => some []
  | _ + 1, [] => some []
  | fuel + 1, '\\' :: cs =>
    match Escape.read cs with
    | (.recursive, _) => none
    | (e, rest) => (rewrite write fuel rest).map (write e ++ ·)
  | fuel + 1, c :: cs => (rewrite write fuel cs).map (c :: ·)

/-- The text that an insertion stands for. -/
def insertedText? (cs : List Char) : Option (List Char) :=
  rewrite (fun
    | .char c => [c]
    | .itself c => [c]
    | _ => ['\\']) (cs.length + 1) cs

/-- A regular expression with the characters that its escapes name. Other escapes are left to it. -/
def expressionText? (cs : List Char) : Option (List Char) :=
  rewrite (fun
    | .char c => [c]
    | .itself c => ['\\', c]
    | _ => ['\\']) (cs.length + 1) cs

/-- A replacement with the characters that its escapes name, which mean nothing else. -/
def replacementText? (cs : List Char) : Option (List Char) :=
  rewrite (fun
    | .char c => if c = '&' ∨ c = '\\' then ['\\', c] else [c]
    | .itself c => ['\\', c]
    | _ => ['\\']) (cs.length + 1) cs

/-! ### Replacements -/

/-- A replacement that is read from left to right. -/
structure Parts where
  /-- The parts that are done, latest first. -/
  done : List Part := []
  /-- The text since then, backwards. -/
  text : List Char := []
  /-- The style of the next part, and of those after it. -/
  style : Style := {}
  later : Style := {}

namespace Parts

def bytes (cs : List Char) : ByteArray := Octet.toBytes (String.ofList cs)

/-- Ends a part. -/
def close (p : Parts) (group : Option Nat) : Parts :=
  { p with
    done := ⟨bytes p.text.reverse, group, p.style⟩ :: p.done
    text := []
    style := p.later }

/-- Lets a character follow the part that ended last. -/
def lengthen (p : Parts) (c : Char) : Parts :=
  match p.done with
  | [] => { p with text := c :: p.text }
  | part :: rest =>
    { p with done := { part with literal := part.literal.push (Octet.toByte c) } :: rest }

def settle (p : Parts) (style : Style) : Parts := { p with style, later := style }

/-- What follows a backslash. -/
def escape (p : Parts) (c : Char) : Parts :=
  if c.isDigit then p.close (some (c.toNat - 48))
  else
    let p := p.close none
    match c with
    | 'L' => p.settle { others := .lower }
    | 'U' => p.settle { others := .upper }
    | 'E' => p.settle {}
    | 'l' => { p with later := p.style, style := { p.style with first := some .lower } }
    | 'u' => { p with later := p.style, style := { p.style with first := some .upper } }
    | c => p.lengthen c

def read : Parts → List Char → Parts
  | p, [] => p
  | p, ['\\'] => (p.close none).lengthen '\\'
  | p, '\\' :: c :: cs => read (p.escape c) cs
  | p, '&' :: cs => read (p.close (some 0)) cs
  | p, c :: cs => read { p with text := c :: p.text } cs

/-- The parts of a replacement. -/
def ofText (cs : List Char) : List Part :=
  let p := read {} cs
  ((if p.text.isEmpty then p else p.close none).done).reverse

end Parts

namespace Style

def apply (l : Letters) (b : UInt8) : UInt8 :=
  match l with
  | .same => b
  | .upper => if 97 ≤ b ∧ b ≤ 122 then b - 32 else b
  | .lower => if 65 ≤ b ∧ b ≤ 90 then b + 32 else b

/-- A text in a style. -/
def write (s : Style) (bytes : ByteArray) : ByteArray :=
  match bytes.toList with
  | [] => .empty
  | b :: rest =>
    ⟨(apply (s.first.getD s.others) b :: rest.map (apply s.others)).toArray⟩

end Style

/-- What replaces a match. A style of a first letter waits for a text that is not empty. -/
def Part.write (group : Nat → ByteArray) : List Part → (waiting : Option Letters) → ByteArray →
    ByteArray
  | [], _, out => out
  | p :: rest, waiting, out =>
    let style := { p.style with first := p.style.first.or waiting }
    let out := out ++ style.write p.literal
    let style := if p.literal.isEmpty then style else { style with first := none }
    match p.group with
    | none => write group rest none out
    | some i =>
      let matched := group i
      let waiting := if matched.isEmpty && p.style.first.isSome then style.first else none
      write group rest waiting (out ++ style.write matched)

end TensorParity.Tool.Sed
