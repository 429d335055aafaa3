import TensorParity.Decimal.BinaryNumber
import TensorParity.Text.Integer

/-!
What `echo` and `printf` print. A format is used again as long as there are arguments; a missing
argument is empty, or zero. Complaints about arguments do not stop printing, but a directive that is
none does.
-/
namespace TensorParity.Shell.Print

/-- The byte that a letter after a backslash stands for. -/
def escapeOf? (c : Char) : Option Char :=
  match c with
  | 'a' => some '\x07'
  | 'b' => some '\x08'
  | 'e' => some '\x1b'
  | 'f' => some '\x0c'
  | 'n' => some '\n'
  | 'r' => some '\r'
  | 't' => some '\t'
  | 'v' => some '\x0b'
  | '\\' => some '\\'
  | _ => none

def isOctal (c : Char) : Bool := '0' ≤ c && c ≤ '7'

/-- The byte of at most three octal digits, and what follows them. -/
def octal (cs : List Char) : Char × List Char :=
  let digits := (cs.take 3).takeWhile isOctal
  (Char.ofNat (Text.natOf 8 digits % 256), cs.drop digits.length)

/-- The byte that stands after a backslash, and what follows it. A backslash before anything else
stands for itself. -/
def escape (cs : List Char) : Char × List Char :=
  match cs with
  | c :: rest =>
    if isOctal c then octal cs
    else
      match escapeOf? c with
      | some d => (d, rest)
      | none => ('\\', cs)
  | [] => ('\\', [])

/-- A text with its escapes put in, and whether an escape ended all printing. Octal numbers may begin
with a zero that does not count. Each step takes a character, so `fuel` need not be more than the
length. -/
def escaped : (fuel : Nat) → (done : String) → List Char → String × Bool
  | 0, done, _ => (done, false)
  | _ + 1, done, [] => (done, false)
  | fuel + 1, done, '\\' :: rest =>
    match rest with
    | 'c' :: _ => (done, true)
    | '0' :: d :: more =>
      let (c, rest) := escape (if isOctal d then d :: more else rest)
      escaped fuel (done.push c) rest
    | rest =>
      let (c, rest) := escape rest
      escaped fuel (done.push c) rest
  | fuel + 1, done, c :: rest => escaped fuel (done.push c) rest

def escapedText (text : String) : String × Bool := escaped text.length "" text.toList

/-- What `echo` prints after its options. -/
def echoWords : (newline : Bool) → (done : String) → List String → String
  | newline, done, [] => if newline then done.push '\n' else done
  | newline, done, word :: rest =>
    match escapedText word with
    | (text, true) => done ++ text
    | (text, false) =>
      match rest with
      | [] => echoWords newline (done ++ text) []
      | rest => echoWords newline ((done ++ text).push ' ') rest

def echo (arguments : List String) : String :=
  match arguments with
  | "-n" :: rest => echoWords false "" rest
  | arguments => echoWords true "" arguments

/-- How far printing has come. -/
structure Progress where
  done : String := ""
  arguments : List String
  /-- Complaints, latest first. -/
  warnings : List String := []
  /-- Why printing cannot go on. -/
  fault : Option String := none
  ended : Bool := false

namespace Progress

def put (p : Progress) (c : Char) : Progress := { p with done := p.done.push c }

def putAll (p : Progress) (cs : List Char) : Progress :=
  { p with done := cs.foldl String.push p.done }

def warn (p : Progress) (warning : String) : Progress :=
  { p with warnings := warning :: p.warnings }

def stop (p : Progress) (fault : String) : Progress := { p with fault := some fault }

/-- Whether printing is over. -/
def isOver (p : Progress) : Bool := p.ended || p.fault.isSome

/-- The next argument, if there is one. -/
def next (p : Progress) : Option String × Progress :=
  match p.arguments with
  | a :: rest => (some a, { p with arguments := rest })
  | [] => (none, p)

/-- Complains about an argument that is no number as a whole. -/
def check (p : Progress) (argument : String) (found : Bool) (rest : List Char) (inRange : Bool) :
    Progress :=
  if !rest.isEmpty then
    if found then p.warn s!"{argument}: not completely converted"
    else p.warn s!"{argument}: expected numeric value"
  else if inRange then p
  else p.warn s!"{argument}: Numerical result out of range"

/-- The character that stands for a number after a quotation mark. -/
def characterOf? (argument : String) : Option Nat :=
  match argument.toList with
  | '"' :: rest => some ((rest.head?.map Char.toNat).getD 0)
  | '\x27' :: rest => some ((rest.head?.map Char.toNat).getD 0)
  | _ => none

/-- The next argument as an integer. -/
def integer (p : Progress) (signed : Bool) : Int × Progress :=
  match p.next with
  | (none, p) => (0, p)
  | (some argument, p) =>
    match characterOf? argument with
    | some n => (n, p)
    | none =>
      let r := Text.readInteger signed 0 argument.toList
      (r.value, p.check argument r.found r.rest r.inRange)

/-- The next argument as a number of double precision. -/
def real (p : Progress) : BinaryNumber × Progress :=
  match p.next with
  | (none, p) => (⟨false, .finite 0 0⟩, p)
  | (some argument, p) =>
    match characterOf? argument with
    | some n => (⟨false, .finite n 0⟩, p)
    | none =>
      let r := BinaryNumber.read .binary64 argument.toList
      (r.value, p.check argument r.found r.rest r.inRange)

/-- A number of 32 bits, as widths are. -/
def narrow (n : Int) : Int := Int.bmod n 4294967296

/-- A width, or a number of places: digits, or a star for the next argument. -/
def measure (p : Progress) (cs : List Char) : Option Int × List Char × List Char × Progress :=
  match cs with
  | '*' :: rest =>
    let (n, p) := p.integer true
    (some (narrow n), ['*'], rest, p)
  | cs =>
    let digits := cs.takeWhile Char.isDigit
    (if digits.isEmpty then none else some (Text.natOf 10 digits), digits, cs.drop digits.length, p)

/-- One directive after its percent sign, and what follows it. -/
def directive (p : Progress) (cs : List Char) : Progress × List Char :=
  let (l, afterFlags) := Text.Layout.flags {} cs
  let flags := cs.take (cs.length - afterFlags.length)
  let (width, widthText, rest, p) := p.measure afterFlags
  let l := match width with
    | some n => l.withWidth n
    | none => l
  let (l, placesText, rest, p) :=
    match rest with
    | '.' :: rest =>
      let (places, text, rest, p) := p.measure rest
      (l.withPlaces (places.getD 0), '.' :: text, rest, p)
    | rest => (l, [], rest, p)
  match rest with
  | [] => (p.stop "missing format character", [])
  | letter :: rest =>
    if letter = 's' then
      let (a, p) := p.next
      (p.putAll (l.text (a.getD "").toList), rest)
    else if letter = 'b' then
      let (a, p) := p.next
      let (text, ended) := escapedText (a.getD "")
      ({ p.putAll (l.text text.toList) with ended }, rest)
    else if letter = 'c' then
      let (a, p) := p.next
      (p.putAll (l.fill [((a.getD "").toList.head?).getD '\x00']), rest)
    else if letter = 'd' ∨ letter = 'i' then
      let (n, p) := p.integer true
      (p.putAll (l.signed n), rest)
    else if letter ∈ ['o', 'u', 'x', 'X'] then
      let (n, p) := p.integer false
      (p.putAll (l.unsigned letter n.toNat), rest)
    else if letter ∈ ['a', 'A', 'e', 'E', 'f', 'F', 'g', 'G'] then
      let (r, p) := p.real
      (p.putAll (r.layout ⟨53, 1⟩ l letter), rest)
    else
      let shown := '%' :: flags ++ widthText ++ placesText ++ [letter]
      (p.stop (String.ofList shown ++ ": invalid directive"), rest)

/-- Prints a format once. -/
def once : (fuel : Nat) → Progress → List Char → Progress
  | 0, p, _ => p
  | _ + 1, p, [] => p
  | fuel + 1, p, '\\' :: rest =>
    let (c, rest) := escape rest
    once fuel (p.put c) rest
  | fuel + 1, p, '%' :: '%' :: rest => once fuel (p.put '%') rest
  | fuel + 1, p, '%' :: rest =>
    let (p, rest) := p.directive rest
    if p.isOver then p else once fuel p rest
  | fuel + 1, p, c :: rest => once fuel (p.put c) rest

/-- Prints a format as long as there are arguments and it takes any. -/
def all (format : List Char) : (fuel : Nat) → Progress → Progress
  | 0, p => p
  | fuel + 1, p =>
    let after := once (format.length + 1) p format
    if after.isOver ∨ after.arguments.isEmpty ∨ after.arguments.length = p.arguments.length then
      after
    else all format fuel after

end Progress

/-- What `printf` prints, and what it complains about. -/
def printf (format : String) (arguments : List String) : Progress :=
  Progress.all format.toList (arguments.length + 1) { arguments }

end TensorParity.Shell.Print
