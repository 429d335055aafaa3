/-!
Reading bytes as text when they need not be text: every longest piece that begins no character is
shown as one replacement character. An octet text has one character for each byte, numbered like the
byte, so that bytes which spell no characters are kept as they are.
-/
namespace TensorParity.Text

/-- Bounds of the byte after a lead byte, and the number of bytes that follow the lead byte; none if
no character starts with it. -/
def leadByte? (b : UInt8) : Option (UInt8 × UInt8 × Nat) :=
  if 0xC2 ≤ b ∧ b ≤ 0xDF then some (0x80, 0xBF, 1)
  else if b = 0xE0 then some (0xA0, 0xBF, 2)
  else if b = 0xED then some (0x80, 0x9F, 2)
  else if 0xE1 ≤ b ∧ b ≤ 0xEF then some (0x80, 0xBF, 2)
  else if b = 0xF0 then some (0x90, 0xBF, 3)
  else if 0xF1 ≤ b ∧ b ≤ 0xF3 then some (0x80, 0xBF, 3)
  else if b = 0xF4 then some (0x80, 0x8F, 3)
  else none

/-- Adds `count` continuation bytes to the bits read so far, as long as they continue the character.
The first must lie between the bounds. -/
def continueCharacter (low high : UInt8) (bits : Nat) :
    (count : Nat) → List UInt8 → Option Nat × List UInt8
  | 0, rest => (some bits, rest)
  | _ + 1, [] => (none, [])
  | count + 1, b :: rest =>
    if low ≤ b ∧ b ≤ high then
      continueCharacter 0x80 0xBF (bits * 64 + (b.toNat - 0x80)) count rest
    else (none, b :: rest)

/-- The bits of a lead byte that belong to the character. -/
def leadBits (b : UInt8) (count : Nat) : Nat := b.toNat % Nat.pow 2 (6 - count)

/-- Reads characters, after those already read (kept in reverse). -/
def decodeLossy : (fuel : Nat) → (read : List Char) → List UInt8 → List Char
  | 0, read, _ => read.reverse
  | _ + 1, read, [] => read.reverse
  | fuel + 1, read, b :: rest =>
    if b < 0x80 then decodeLossy fuel (Char.ofNat b.toNat :: read) rest
    else
      match leadByte? b with
      | none => decodeLossy fuel ('\uFFFD' :: read) rest
      | some (low, high, count) =>
        match continueCharacter low high (leadBits b count) count rest with
        | (some code, rest) => decodeLossy fuel (Char.ofNat code :: read) rest
        | (none, rest) => decodeLossy fuel ('\uFFFD' :: read) rest

/-- The text of bytes, with replacement characters where they are no text. -/
def lossy (bytes : List UInt8) : String :=
  String.ofList (decodeLossy bytes.length [] bytes)

end TensorParity.Text

namespace TensorParity.Octet

def ofByte (b : UInt8) : Char := Char.ofNat b.toNat

def toByte (c : Char) : UInt8 := c.toNat.toUInt8

/-- The octet text of bytes. -/
def ofBytes (bytes : ByteArray) : String := bytes.foldl (fun s b => s.push (ofByte b)) ""

/-- The bytes of an octet text. -/
def toBytes (s : String) : ByteArray := s.toList.foldl (fun out c => out.push (toByte c)) .empty

/-- The octet text of the characters' encoding. -/
def ofText (s : String) : String := ofBytes s.toUTF8

/-- The characters that an octet text encodes, with replacements where it encodes none. -/
def toText (s : String) : String :=
  let bytes := toBytes s
  match String.fromUTF8? bytes with
  | some text => text
  | none => Text.lossy bytes.toList

end TensorParity.Octet
