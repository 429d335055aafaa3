/-!
The 64-bit FNV-1a digest of bytes and of little-endian words, and its printed label.
-/
namespace TensorParity

/-- The low `count` bytes of `n`, least significant first. -/
def littleEndian : (count : Nat) → (n : Nat) → List UInt8
  | 0, _ => []
  | count + 1, n => n.toUInt8 :: littleEndian count (n / 256)

/-- Two lower-case hexadecimal digits of a byte, most significant first. -/
def hexByte (b : UInt8) : List Char :=
  [Nat.digitChar (b.toNat / 16), Nat.digitChar (b.toNat % 16)]

/-- Lower-case hexadecimal text of bytes, in order. -/
def hexText (bytes : List UInt8) : String :=
  String.ofList (bytes.flatMap hexByte)

/-- Sixteen hexadecimal digits of a word, most significant first. -/
def hexWord (w : UInt64) : String :=
  hexText (littleEndian 8 w.toNat).reverse

namespace Fnv

def offsetBasis : UInt64 := 0xcbf29ce484222325

def prime : UInt64 := 0x00000100000001b3

/-- Absorbs one byte. -/
def step (state : UInt64) (byte : UInt8) : UInt64 :=
  (state ^^^ byte.toUInt64) * prime

def bytes (input : List UInt8) : UInt64 :=
  input.foldl step offsetBasis

/-- Absorbs the eight bytes of a word, least significant first. -/
def stepWord (state word : UInt64) : UInt64 :=
  (littleEndian 8 word.toNat).foldl step state

def words (input : List UInt64) : UInt64 :=
  input.foldl stepWord offsetBasis

/-- How a digest is written in reports. -/
def label (digest : UInt64) : String :=
  "det64:" ++ hexWord digest

end Fnv

end TensorParity
