import TensorParity.Decimal.BinaryNumber
import TensorParity.Text.Integer
import TensorParity.Text.Utf8
import TensorParity.Tool.Options
import TensorParity.Tool.Quoting

/-!
Tools that print their arguments: `echo`, `printf` and `yes`.
-/
namespace TensorParity.Tool

open Machine

/-- The character that a letter after a backslash stands for. -/
def letterEscape? (c : Char) : Option Char :=
  match c with
  | 'a' => some '\x07'
  | 'b' => some '\x08'
  | 'e' => some '\x1b'
  | 'f' => some '\x0c'
  | 'n' => some '\n'
  | 'r' => some '\r'
  | 't' => some '\t'
  | 'v' => some '\x0b'
  | '\\' => some '\\'
  | _ => none

/-- The character of at most `most` digits, and what follows them. -/
def digitEscape (base most : Nat) (cs : List Char) : Char × List Char :=
  let digits := (cs.take most).takeWhile fun c => (Text.digitOf? base c).isSome
  (Char.ofNat (Text.natOf base digits % 256), cs.drop digits.length)

def isOctalDigit (c : Char) : Bool := (Text.digitOf? 8 c).isSome

namespace Echo

/-- A text with its escapes put in, and whether one of them ended all printing. Each step takes a
character, so `fuel` need not be more than the length. -/
def escaped : (fuel : Nat) → (done : String) → List Char → String × Bool
  | 0, done, _ => (done, false)
  | _ + 1, done, [] => (done, false)
  | fuel + 1, done, '\\' :: c :: rest =>
    if c = 'c' then (done, true)
    else if c = 'x' ∧ (rest.head?.any Text.isHexDigit) then
      let (d, rest) := digitEscape 16 2 rest
      escaped fuel (done.push d) rest
    else if c = '0' then
      let (d, rest) := digitEscape 8 3 rest
      escaped fuel (done.push d) rest
    else if isOctalDigit c then
      let (d, rest) := digitEscape 8 3 (c :: rest)
      escaped fuel (done.push d) rest
    else
      match letterEscape? c with
      | some d => escaped fuel (done.push d) rest
      | none => escaped fuel ((done.push '\\').push c) rest
  | fuel + 1, done, c :: rest => escaped fuel (done.push c) rest

/-- Whether a word is nothing but options. -/
def isOption (word : String) : Bool :=
  match word.toList with
  | '-' :: c :: cs => (c :: cs).all fun c => c = 'n' || c = 'e' || c = 'E'
  | _ => false

def words (escapes newline : Bool) : List String → String
  | [] => if newline then "\n" else ""
  | word :: rest =>
    let (text, ended) := if escapes then escaped word.length "" word.toList else (word, false)
    if ended then text
    else text ++ (if rest.isEmpty then "" else " ") ++ words escapes newline rest

def main : Act Unit := do
  let arguments := (← get).call.arguments
  let letters := (arguments.takeWhile isOption).flatMap String.toList
  let escapes := (letters.filter fun c => c = 'e' || c = 'E').getLast? = some 'e'
  Act.printText (words escapes (!letters.contains 'n') (arguments.dropWhile isOption))

end Echo

namespace Printf

/-- How far printing has come. -/
structure Progress where
  arguments : List String
  ended : Bool := false

abbrev Step (α : Type) := Progress → Act (α × Progress)

def put (cs : List Char) : Act Unit := Act.printText (String.ofList cs)

/-- The next argument, if there is one. -/
def next (p : Progress) : Option String × Progress :=
  match p.arguments with
  | a :: rest => (some a, { p with arguments := rest })
  | [] => (none, p)

/-- Complains about an argument that is no number as a whole. -/
def check (argument : String) (found : Bool) (rest : List Char) (inRange : Bool) : Act Unit := do
  let fault? : Option String :=
    if !inRange then some s!"{quoted argument}: Numerical result out of range"
    else if rest.isEmpty then none
    else if found then some s!"{quoted argument}: value not completely converted"
    else some s!"{quoted argument}: expected a numeric value"
  if let some fault := fault? then
    Act.warn fault
    Act.setStatus 1

/-- The character that stands for a number after a quotation mark. -/
def characterOf? (argument : String) : Option (Char × List Char) :=
  match argument.toList with
  | '"' :: c :: rest => some (c, rest)
  | '\x27' :: c :: rest => some (c, rest)
  | _ => none

/-- Complains about what follows such a character. -/
def checkCharacter (rest : List Char) : Act Unit := do
  if !rest.isEmpty then
    Act.warn (s!"warning: {String.ofList rest}: character(s) following character constant have been"
      ++ " ignored")

/-- An argument as an integer. -/
def integer (signed : Bool) (argument : String) : Act Int := do
  match characterOf? argument with
  | some (c, rest) => do
    checkCharacter rest
    return c.toNat
  | none => do
    let r := Text.readInteger signed 0 argument.toList
    check argument r.found r.rest r.inRange
    return r.value

/-- An argument as a number of extended precision. -/
def real (argument : String) : Act BinaryNumber := do
  match characterOf? argument with
  | some (c, rest) => do
    checkCharacter rest
    return ⟨false, .finite c.toNat 0⟩
  | none => do
    let r := BinaryNumber.read .extended argument.toList
    check argument r.found r.rest r.inRange
    return r.value

/-- How a character beyond ASCII is shown where it cannot be printed. -/
def universal (n : Nat) : List Char :=
  let digits := (Nat.toDigits 16 n).map Char.toUpper
  if n < 65536 then '\\' :: 'u' :: (List.replicate (4 - digits.length) '0' ++ digits)
  else '\\' :: 'U' :: (List.replicate (8 - digits.length) '0' ++ digits)

/-- One escape after its backslash, and what follows it; nothing follows the escape that ends all
printing. -/
def escape (inArgument : Bool) (cs : List Char) : Act (Option (List Char)) := do
  match cs with
  | 'x' :: rest =>
    if rest.head?.any Text.isHexDigit then
      let (c, rest) := digitEscape 16 2 rest
      put [c]
      return some rest
    else Act.fail 1 "missing hexadecimal number in escape"
  | 'c' :: _ => return none
  | '"' :: rest => do
    put ['"']
    return some rest
  | c :: rest =>
    if isOctalDigit c then
      let (d, rest) := digitEscape 8 3 (if inArgument ∧ c = '0' then rest else cs)
      put [d]
      return some rest
    else
      match letterEscape? c with
      | some d => do
        put [d]
        return some rest
      | none =>
        if c = 'u' ∨ c = 'U' then
          let most := if c = 'u' then 4 else 8
          let digits := (rest.take most).takeWhile Text.isHexDigit
          let n := Text.natOf 16 digits
          let plain : Bool := n = 36 || n = 64 || n = 96
          if digits.length < most then Act.fail 1 "missing hexadecimal number in escape"
          else if (n < 160 ∧ !plain) ∨ (0xd800 ≤ n ∧ n ≤ 0xdfff) then
            Act.fail 1 s!"invalid universal character name \\{c}{String.ofList digits}"
          else do
            put (if plain then [Char.ofNat n] else universal n)
            return some (rest.drop most)
        else do
          put ['\\', c]
          return some rest
  | [] => do
    put ['\\']
    return some []

/-- An argument with its escapes put in. Yields whether printing goes on. -/
def escapedArgument : (fuel : Nat) → List Char → Act Bool
  | 0, _ => return true
  | _ + 1, [] => return true
  | fuel + 1, '\\' :: rest => do
    match ← escape true rest with
    | some rest => escapedArgument fuel rest
    | none => return false
  | fuel + 1, c :: rest => do
    put [c]
    escapedArgument fuel rest

/-- The letters that a directive may end with after these flags. -/
def allowed (flags : List Char) (hasPlaces : Bool) : List Char :=
  let all := "aAcdeEfFgGiosuxX".toList
  let without (letters : String) (cs : List Char) : List Char :=
    cs.filter fun c => !letters.toList.contains c
  let cs := if flags.any fun c => c = '\x27' || c = 'I' then without "aAceEosxX" all else all
  let cs := if '#' ∈ flags then without "cdisu" cs else cs
  let cs := if '0' ∈ flags then without "cs" cs else cs
  if hasPlaces then without "c" cs else cs

/-- A width or a number of places. Yields the text and what follows it too. -/
def measure (what : String) (least : Int) (p : Progress) (cs : List Char) :
    Act (Option Int × List Char × List Char × Progress) := do
  match cs with
  | '*' :: rest => do
    let (a?, p) := next p
    match a? with
    | none => return (some 0, ['*'], rest, p)
    | some a => do
      let n ← integer true a
      if n < least then
        if what = "precision" then return (some (-1), ['*'], rest, p)
        else Act.fail 1 s!"invalid {what}: {quoted a}"
      else if 2147483647 < n then Act.fail 1 s!"invalid {what}: {quoted a}"
      else return (some n, ['*'], rest, p)
  | cs =>
    let digits := cs.takeWhile Char.isDigit
    let n? := if digits.isEmpty then none else some ((Text.natOf 10 digits : Nat) : Int)
    return (n?, digits, cs.drop digits.length, p)

def isFlag (c : Char) : Bool := "\x27I-+ #0".contains c

/-- One directive after its percent sign, and what follows it. -/
def directive (p : Progress) (cs : List Char) : Act (List Char × Progress) := do
  let flags := cs.takeWhile isFlag
  let l := (Text.Layout.flags {} (flags.filter fun c => c ≠ 'I' ∧ c ≠ '\x27')).1
  let (width?, widthText, rest, p) ←
    measure "field width" (-2147483648) p (cs.drop flags.length)
  let l := match width? with
    | some n => l.withWidth n
    | none => l
  let hasPlaces := rest.head? = some '.'
  let (places?, placesText, rest, p) ←
    if hasPlaces then do
      let (n?, text, rest, p) ← measure "precision" 0 p (rest.drop 1)
      pure (some (n?.getD 0), '.' :: text, rest, p)
    else pure (none, [], rest, p)
  let l := match places? with
    | some n => l.withPlaces n
    | none => l
  let sizes := rest.takeWhile fun c => "lLhjtz".contains c
  match rest.drop sizes.length with
  | letter :: rest =>
    if (allowed flags hasPlaces).contains letter then do
      let (a?, p) := next p
      let a := a?.getD ""
      if letter = 's' then put (l.text a.toList)
      else if letter = 'c' then put (l.fill [a.toList.head?.getD '\x00'])
      else if letter = 'd' ∨ letter = 'i' then put (l.signed (← integer true a))
      else if letter ∈ ['o', 'u', 'x', 'X'] then
        put (l.unsigned letter (← integer false a).toNat)
      else put ((← real a).layout ⟨64, 4⟩ l letter)
      return (rest, p)
    else wrong (flags ++ widthText ++ placesText ++ sizes ++ [letter])
  | [] => wrong (flags ++ widthText ++ placesText ++ sizes)
where
  wrong {α : Type} (shown : List Char) : Act α :=
    Act.fail 1 s!"%{String.ofList shown}: invalid conversion specification"

/-- Prints a format once. -/
def once : (fuel : Nat) → Progress → List Char → Act Progress
  | 0, p, _ => return p
  | _ + 1, p, [] => return p
  | fuel + 1, p, '%' :: '%' :: rest => do
    put ['%']
    once fuel p rest
  | fuel + 1, p, '%' :: 'b' :: rest => do
    let (a?, p) := next p
    let text := a?.getD ""
    if ← escapedArgument (text.length + 1) text.toList then once fuel p rest
    else return { p with ended := true }
  | fuel + 1, p, '%' :: 'q' :: rest => do
    let (a?, p) := next p
    if let some a := a? then Act.printText (shellText a)
    once fuel p rest
  | fuel + 1, p, '%' :: rest => do
    let (rest, p) ← directive p rest
    once fuel p rest
  | fuel + 1, p, '\\' :: rest => do
    match ← escape false rest with
    | some rest => once fuel p rest
    | none => return { p with ended := true }
  | fuel + 1, p, c :: rest => do
    put [c]
    once fuel p rest

/-- Prints a format as long as there are arguments and it takes any. -/
def all (format : List Char) : (fuel : Nat) → Progress → Act Unit
  | 0, _ => return ()
  | fuel + 1, p => do
    let after ← once (format.length + 1) p format
    if after.ended ∨ after.arguments.isEmpty then return ()
    else if after.arguments.length = p.arguments.length then
      let first := after.arguments.headD ""
      Act.warn s!"warning: ignoring excess arguments, starting with {quoted first}"
    else all format fuel after

def main : Act Unit := do
  let arguments := (← get).call.arguments
  match if arguments.head? = some "--" then arguments.drop 1 else arguments with
  | [] => Act.misuse 1 "missing operand"
  | format :: arguments => all format.toList (arguments.length + 1) { arguments }

end Printf

namespace Yes

/-- Writes until that fails. -/
def go (block : ByteArray) : (fuel : Nat) → Act Unit
  | 0 => return ()
  | fuel + 1 => do
    Routine.tick
    match ← Act.write 1 block with
    | .ok () => go block fuel
    | .error e => Act.fail 1 s!"standard output: {e.description}"

def main : Act Unit := do
  let words := (← get).call.arguments
  let words := if words.head? = some "--" then words.drop 1 else words
  let line := Octet.toBytes ((if words.isEmpty then "y" else " ".intercalate words) ++ "\n")
  let copies := max 1 (8192 / line.size)
  go ((List.replicate copies line).foldl (· ++ ·) .empty) Routine.endless

end Yes

end TensorParity.Tool
