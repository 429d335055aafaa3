import TensorParity.Text.CharClass

/-!
Regular expressions over bytes, with groups, places and references back to groups. Sets of bytes are
held as a flag for each of them.
-/
namespace TensorParity.Text

structure ByteSet where
  flags : Array Bool

namespace ByteSet

/-- The bytes whose characters pass a test. -/
def ofTest (test : Char → Bool) : ByteSet :=
  ⟨((List.range 256).map fun n => test (Char.ofNat n)).toArray⟩

def has (s : ByteSet) (b : UInt8) : Bool := s.flags[b.toNat]?.getD false

def ofChar (c : Char) : ByteSet := ofTest (· = c)

def empty : ByteSet := ofTest fun _ => false

def union (s t : ByteSet) : ByteSet := ⟨s.flags.zipWith (· || ·) t.flags⟩

def complement (s : ByteSet) : ByteSet := ⟨s.flags.map (!·)⟩

/-- With the other case of every letter. -/
def folded (s : ByteSet) : ByteSet :=
  ofTest fun c =>
    s.has c.toNat.toUInt8 || s.has c.toUpper.toNat.toUInt8 || s.has c.toLower.toNat.toUInt8

end ByteSet

/-- What is asked of a place between two bytes. -/
inductive Assertion where
  /-- The beginning of the text, or of a line if lines count. -/
  | lineStart
  | lineEnd
  | textStart
  | textEnd
  | wordStart
  | wordEnd
  | wordEdge
  | notWordEdge
  deriving DecidableEq

inductive Regex where
  | empty
  | one (set : ByteSet)
  | place (a : Assertion)
  | group (index : Nat) (body : Regex)
  /-- What a group matched, again. -/
  | again (index : Nat)
  | both (first second : Regex)
  | either (first second : Regex)
  /-- As often as possible, and at least and at most so often. -/
  | repeated (body : Regex) (least : Nat) (most : Option Nat)

namespace Regex

/-- The expressions one after the other. -/
def sequence : List Regex → Regex
  | [] => empty
  | [r] => r
  | r :: rest => both r (sequence rest)

/-- The greatest number of a group. -/
def groups : Regex → Nat
  | group index body => max index body.groups
  | both a b => max a.groups b.groups
  | either a b => max a.groups b.groups
  | repeated body _ _ => body.groups
  | _ => 0

/-- Whether it refers back. -/
def hasReferences : Regex → Bool
  | again _ => true
  | group _ body => body.hasReferences
  | both a b => a.hasReferences || b.hasReferences
  | either a b => a.hasReferences || b.hasReferences
  | repeated body _ _ => body.hasReferences
  | _ => false

/-- With letters of both cases where there is one of them. -/
def folded : Regex → Regex
  | one set => one set.folded
  | group index body => group index body.folded
  | both a b => both a.folded b.folded
  | either a b => either a.folded b.folded
  | repeated body least most => repeated body.folded least most
  | r => r

end Regex

/-- Letters, digits and the underscore. -/
def isWordChar (c : Char) : Bool := c.isAlphanum || c = '_'

end TensorParity.Text
