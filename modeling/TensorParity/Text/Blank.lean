/-!
White space, as the Unicode property of that name has it, and the lines and words it separates.
-/
namespace TensorParity.Text

/-- The code points with the property White_Space, in order. -/
def blankRanges : List (Nat × Nat) :=
  [(0x09, 0x0D), (0x20, 0x20), (0x85, 0x85), (0xA0, 0xA0), (0x1680, 0x1680), (0x2000, 0x200A),
    (0x2028, 0x2029), (0x202F, 0x202F), (0x205F, 0x205F), (0x3000, 0x3000)]

def isBlank (c : Char) : Bool :=
  blankRanges.any fun (first, last) => first ≤ c.toNat && c.toNat ≤ last

/-- Drops white space at both ends. -/
def trimList (cs : List Char) : List Char :=
  ((cs.dropWhile isBlank).reverse.dropWhile isBlank).reverse

def trim (s : String) : String := String.ofList (trimList s.toList)

/-- The words between stretches of white space, after the characters of a word already read (kept in
reverse). -/
def wordsFrom (word : List Char) : List Char → List (List Char)
  | [] => if word.isEmpty then [] else [word.reverse]
  | c :: cs =>
    if isBlank c then
      if word.isEmpty then wordsFrom [] cs else word.reverse :: wordsFrom [] cs
    else wordsFrom (c :: word) cs

def words (s : String) : List String := (wordsFrom [] s.toList).map String.ofList

/-- A finished line, given in reverse: one carriage return before its line feed is not part of
it. -/
def endLine : List Char → List Char
  | '\r' :: line => line.reverse
  | line => line.reverse

/-- The later of two lines, unless it is all white space. -/
def laterLine (found : Option (List Char)) (line : List Char) : Option (List Char) :=
  if line.all isBlank then found else some line

/-- The last line that is not all white space, after an earlier one and the characters of a line
already read (kept in reverse). A line ends in a line feed; the last need not end. -/
def lastLineFrom (found : Option (List Char)) (line : List Char) :
    List Char → Option (List Char)
  | [] => laterLine found line.reverse
  | c :: cs =>
    if c = '\n' then lastLineFrom (laterLine found (endLine line)) [] cs
    else lastLineFrom found (c :: line) cs

def lastLine? (s : String) : Option String :=
  (lastLineFrom none [] s.toList).map String.ofList

end TensorParity.Text
