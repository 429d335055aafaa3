import TensorParity.Text.Unprintable

/-!
Texts shown inside messages: between double quotes, with quotes, backslashes and whatever cannot be
seen spelled out. Texts that quote foreign input are cut to a fixed size; the cut falls between
characters.
-/
namespace TensorParity.Text

/-- Lower-case hexadecimal digits of a number. -/
def hexDigits (n : Nat) : List Char := Nat.toDigits 16 n

/-- What stands for one character inside the quotes. -/
def shownChar (c : Char) : List Char :=
  if c = '"' then ['\\', '"']
  else if c = '\\' then ['\\', '\\']
  else if c = '\n' then ['\\', 'n']
  else if c = '\r' then ['\\', 'r']
  else if c = '\t' then ['\\', 't']
  else if c = '\x00' then ['\\', '0']
  else if isUnprintable c then ['\\', 'u', '{'] ++ hexDigits c.toNat ++ ['}']
  else [c]

def quoted (s : String) : String :=
  String.ofList ('"' :: s.toList.flatMap shownChar ++ ['"'])

/-- The first byte position, from `position` back, at which a character begins or the text ends. -/
def boundaryFrom (s : String) : (position : Nat) → s.Pos
  | 0 => s.startPos
  | position + 1 =>
    if h : String.Pos.Raw.IsValid s ⟨position + 1⟩ then s.pos ⟨position + 1⟩ h
    else boundaryFrom s position

/-- The beginning of a text, up to the first boundary from `position` back. -/
def upTo (s : String) (position : Nat) : String := (s.sliceTo (boundaryFrom s position)).copy

/-- The text itself if it fits into `limit` bytes, or else its beginning and an ellipsis, cut at the
first boundary from `start` back. -/
def shorten (limit start : Nat) (s : String) : String :=
  if s.utf8ByteSize ≤ limit then s else upTo s start ++ "..."

/-- The text itself, or as much of it as fits and an ellipsis. -/
def bounded (limit : Nat) (s : String) : String := shorten limit limit s

/-- The same, with a search that never begins behind the end of the text. -/
def boundedInside (limit : Nat) (s : String) : String := shorten limit (min limit s.utf8ByteSize) s

end TensorParity.Text
