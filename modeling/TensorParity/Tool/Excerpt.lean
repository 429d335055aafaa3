import TensorParity.Text.Integer
import TensorParity.Tool.Options
import TensorParity.Tool.Quoting

/-!
The beginnings and the ends of files: `head` and `tail`. Their counts are digits, and a letter that
multiplies them.
-/
namespace TensorParity.Tool.Size

/-- Why a text is no count. -/
inductive Fault where
  | malformed
  | tooGreat
  deriving DecidableEq

/-- The letters of the multiples of a thousand, or of 1024. -/
def letters : List Char := ['K', 'M', 'G', 'T', 'P', 'E', 'Z', 'Y', 'R', 'Q']

/-- What a unit multiplies with. -/
def unit? (cs : List Char) : Option Nat :=
  match cs with
  | [] => some 1
  | ['b'] => some 512
  | c :: rest =>
    let c := if c = 'k' then 'K' else if c = 'm' then 'M' else c
    match letters.idxOf? c, rest with
    | some i, [] => some (Nat.pow 1024 (i + 1))
    | some i, ['i', 'B'] => some (Nat.pow 1024 (i + 1))
    | some i, ['B'] => some (Nat.pow 1000 (i + 1))
    | _, _ => none

/-- Reads a count. A unit alone counts once. -/
def read (text : String) : Except Fault Nat :=
  let cs := text.toList
  if (cs.dropWhile Text.isSpace).head? = some '-' then .error .malformed
  else
    let r := Text.readInteger false 10 cs
    let n? : Option Nat :=
      if r.found then some r.value.toNat
      else if !cs.isEmpty && (unit? cs).isSome then some 1
      else none
    let rest := if r.found then r.rest else cs
    match n?, unit? rest with
    | some n, some u =>
      if !r.inRange ∨ Text.wordLimit ≤ n * u then .error .tooGreat else .ok (n * u)
    | _, _ => .error .malformed

/-- What is said of a text that is no count. -/
def complaint (what text : String) : Fault → String
  | .malformed => s!"{what}: {quoted text}"
  | .tooGreat => s!"{what}: {quoted text}: Value too large for defined data type"

end TensorParity.Tool.Size

namespace TensorParity.Tool

open Machine
open Machine.Routine (ask)

/-- How much of a file is meant. -/
structure Extent where
  lines : Bool := true
  count : Nat := 10
  /-- Whether the count is taken from the other side of the file. -/
  opposite : Bool := false
  /-- What ends a line. -/
  mark : UInt8 := 10

namespace Extent

/-- The place after so many marks; none if there are fewer. -/
def afterMarks (mark : UInt8) (bytes : ByteArray) : (count : Nat) → (start : Nat) → Option Nat
  | 0, start => some start
  | count + 1, start =>
    match bytes.findIdx? (· = mark) start with
    | some i => afterMarks mark bytes count (i + 1)
    | none => none

/-- How many lines there are, counting one that does not end. -/
def lineCount (mark : UInt8) (bytes : ByteArray) : Nat :=
  let marks := bytes.foldl (fun n b => if b = mark then n + 1 else n) 0
  if (bytes.data.back?.getD mark) = mark then marks else marks + 1

/-- The place at which the last `count` lines or bytes begin. -/
def lastPart (e : Extent) (bytes : ByteArray) : Nat :=
  if e.lines then
    (afterMarks e.mark bytes (lineCount e.mark bytes - e.count) 0).getD bytes.size
  else bytes.size - e.count

end Extent

/-- Which files are named before their parts. -/
inductive Titles where
  | several
  | always
  | never
  deriving DecidableEq

namespace Titles

def isOn (t : Titles) (names : List String) : Bool :=
  match t with
  | several => 1 < names.length
  | always => true
  | never => false

end Titles

/-- A title, after a blank line unless it is the first. -/
def printTitle (first : Bool) (name : String) : Act Unit :=
  let shown := if name = "-" then "standard input" else name
  Act.printText ((if first then "" else "\n") ++ s!"==> {shown} <==\n")

/-- The name of a file in complaints about reading. -/
def readingName (name : String) : String :=
  shellQuoted (if name = "-" then "standard input" else name)

/-- Complains that a file could not be read. -/
def failedReading (name : String) (e : FileError) : Act Unit := do
  Act.warn s!"error reading {readingName name}: {e.description}"
  Act.setStatus 1

namespace Head

/-- The first bytes. -/
def bytes (name : String) (descriptor : Nat) : (fuel : Nat) → (count : Nat) → Act Unit
  | 0, _ => return ()
  | fuel + 1, count => do
    Routine.tick
    if count = 0 then return ()
    match ← Act.read descriptor (min count 8192) with
    | .error e => failedReading name e
    | .ok block =>
      if block.isEmpty then return ()
      else do
        Act.print block
        bytes name descriptor fuel (count - block.size)

/-- The first lines. What was read and is not needed is left to others, if it came from a file. -/
def lines (mark : UInt8) (name : String) (descriptor : Nat) :
    (fuel : Nat) → (count : Nat) → Act Unit
  | 0, _ => return ()
  | fuel + 1, count => do
    Routine.tick
    if count = 0 then return ()
    match ← Act.read descriptor 8192 with
    | .error e => failedReading name e
    | .ok block =>
      if block.isEmpty then return ()
      else
        match Extent.afterMarks mark block count 0 with
        | some stop => do
          ask (.giveBack descriptor (block.size - stop))
          Act.print (block.extract 0 stop)
        | none => do
          Act.print block
          let marks := block.foldl (fun n b => if b = mark then n + 1 else n) 0
          lines mark name descriptor fuel (count - marks)

/-- Everything that is left to read. -/
def rest (descriptor : Nat) : (fuel : Nat) → ByteArray → Act (Except FileError ByteArray)
  | 0, done => return .ok done
  | fuel + 1, done => do
    Routine.tick
    match ← Act.read descriptor 8192 with
    | .error e => return .error e
    | .ok block => if block.isEmpty then return .ok done else rest descriptor fuel (done ++ block)

def part (e : Extent) (name : String) (descriptor : Nat) : Act Unit := do
  if e.opposite then
    match ← rest descriptor Routine.endless .empty with
    | .error x => failedReading name x
    | .ok all => do
      let stop := e.lastPart all
      if e.lines then ask (.giveBack descriptor (all.size - stop))
      Act.print (all.extract 0 stop)
  else if e.lines then lines e.mark name descriptor Routine.endless e.count
  else bytes name descriptor Routine.endless e.count

def each (e : Extent) (titled : Bool) : (first : Bool) → List String → Act Unit
  | _, [] => return ()
  | first, name :: rest => do
    match ← if name = "-" then pure (.ok 0) else Act.openFile name .read with
    | .error x => do
      Act.warn s!"cannot open {shellQuoted name} for reading: {x.description}"
      Act.setStatus 1
      each e titled first rest
    | .ok n => do
      if titled then printTitle first name
      part e name n
      if n ≠ 0 then Act.close n
      each e titled (first && !titled) rest

def options : List OptionName :=
  [{ name := "c", takes := .argument, others := ["bytes"] },
    { name := "n", takes := .argument, others := ["lines"] },
    { name := "q", others := ["quiet", "silent"] }, { name := "v", others := ["verbose"] },
    { name := "z", others := ["zero-terminated"] }]
  ++ (List.range 10).map fun d => { name := toString d }

/-- A count on the command line. -/
def countOf (lines : Bool) (text : String) : Act Nat := do
  match Size.read text with
  | .ok n => return n
  | .error fault => do
    Act.fail 1 (Size.complaint (if lines then "invalid number of lines" else
      "invalid number of bytes") text fault)

/-- What the options ask for, one after the other. -/
def settle : List (String × String) → Extent × Titles → Act (Extent × Titles)
  | [], settled => return settled
  | (name, argument) :: rest, (e, titles) => do
    match name with
    | "q" => settle rest (e, .never)
    | "v" => settle rest (e, .always)
    | "z" => settle rest ({ e with mark := 0 }, titles)
    | _ =>
      if name = "c" ∨ name = "n" then
        let opposite := argument.startsWith "-"
        let lines : Bool := name = "n"
        let count ← countOf lines (if opposite then (argument.drop 1).toString else argument)
        settle rest ({ e with lines, count, opposite }, titles)
      else Act.misuse 1 s!"invalid trailing option -- {name}"

/-- The letters after the digits of an old option. -/
def oldLetters (digits : String) : List Char → (lines : Bool) → (unit : String) →
    Extent × Titles → Act (Extent × Titles)
  | [], lines, unit, (e, titles) => do
    return ({ e with lines, count := ← countOf lines (digits ++ unit) }, titles)
  | c :: cs, lines, unit, (e, titles) =>
    match c with
    | 'c' => oldLetters digits cs false "" (e, titles)
    | 'b' => oldLetters digits cs false "b" (e, titles)
    | 'k' => oldLetters digits cs false "k" (e, titles)
    | 'm' => oldLetters digits cs false "m" (e, titles)
    | 'l' => oldLetters digits cs true unit (e, titles)
    | 'q' => oldLetters digits cs lines unit (e, .never)
    | 'v' => oldLetters digits cs lines unit (e, .always)
    | 'z' => oldLetters digits cs lines unit ({ e with mark := 0 }, titles)
    | c => Act.misuse 1 s!"invalid trailing option -- {c}"

/-- A first word of a dash and digits, and the words after it. -/
def oldWord (words : List String) : Act ((Extent × Titles) × List String) := do
  match words with
  | [] => return (({}, .several), [])
  | word :: rest =>
    match word.toList with
    | '-' :: c :: cs =>
      if c.isDigit then
        let digits := (c :: cs).takeWhile Char.isDigit
        let letters := (c :: cs).drop digits.length
        return (← oldLetters (String.ofList digits) letters true "" ({}, .several), rest)
      else return (({}, .several), words)
    | _ => return (({}, .several), words)

def main : Act Unit := do
  let (settled, words) ← oldWord (← get).call.arguments
  let g := Given.read options true words
  let (e, titles) ← settle g.options settled
  if let some fault := g.fault then Act.misuse 1 fault
  let names := if g.operands.isEmpty then ["-"] else g.operands
  each e (titles.isOn names) true names
  if names.contains "-" ∧ (← ask (.inspect 0)).isNone then
    Act.fail 1 "-: Bad file descriptor"

end Head

namespace Tail

/-- The end of what a descriptor yields. -/
def part (e : Extent) (name : String) (descriptor : Nat) : Act Unit := do
  match ← Head.rest descriptor Routine.endless .empty with
  | .error x => failedReading name x
  | .ok all =>
    let start :=
      if !e.opposite then e.lastPart all
      else if e.lines then (Extent.afterMarks e.mark all (e.count - 1) 0).getD all.size
      else e.count - 1
    Act.print (all.extract start all.size)

def each (e : Extent) (titled : Bool) : (first : Bool) → List String → Act Unit
  | _, [] => return ()
  | first, name :: rest => do
    match ← if name = "-" then pure (.ok 0) else Act.openFile name .read with
    | .error x => do
      Act.warn s!"cannot open {shellQuoted name} for reading: {x.description}"
      Act.setStatus 1
      each e titled first rest
    | .ok n => do
      if titled then printTitle first name
      part e name n
      if n ≠ 0 then Act.close n
      each e titled (first && !titled) rest

def options : List OptionName :=
  [{ name := "c", takes := .argument, others := ["bytes"] },
    { name := "n", takes := .argument, others := ["lines"] },
    { name := "q", others := ["quiet", "silent"] }, { name := "v", others := ["verbose"] },
    { name := "z", others := ["zero-terminated"] }, { name := "F" }, { name := "f" },
    { name := "s", takes := .argument, others := ["sleep-interval"] },
    { name := "pid", takes := .argument }, { name := "retry" },
    { name := "follow", takes := .perhaps },
    { name := "max-unchanged-stats", takes := .argument }]
  ++ (List.range 10).map fun d => { name := toString d }

def settle : List (String × String) → Extent × Titles → Act (Extent × Titles)
  | [], settled => return settled
  | (name, argument) :: rest, (e, titles) => do
    match name with
    | "q" => settle rest (e, .never)
    | "v" => settle rest (e, .always)
    | "z" => settle rest ({ e with mark := 0 }, titles)
    | _ =>
      if name = "c" ∨ name = "n" then
        let lines : Bool := name = "n"
        let text := if argument.startsWith "-" then (argument.drop 1).toString else argument
        let count ← Head.countOf lines text
        settle rest ({ e with lines, count, opposite := argument.startsWith "+" }, titles)
      else if name.all Char.isDigit then
        Act.fail 1 s!"option used in invalid context -- {name}"
      else settle rest (e, titles)

/-- The meaning of a first word in the old manner: a sign, digits, and perhaps a letter. -/
def oldWord? (words : List String) : Option Extent :=
  let fits :=
    match words with
    | [_] => true
    | [_, second] => second = "-" || !second.startsWith "-"
    | _ :: second :: rest => second = "--" && rest.length ≤ 1
    | [] => false
  match fits, (words.headD "").toList with
  | true, sign :: cs =>
    let digits := cs.takeWhile Char.isDigit
    let letters := cs.drop digits.length
    let count := if digits.isEmpty then 10 else Text.natOf 10 digits
    let alone := sign = '-' && (cs.isEmpty || cs = ['c'])
    if (sign ≠ '-' ∧ sign ≠ '+') ∨ alone then none
    else
      let opposite : Bool := sign = '+'
      match letters with
      | [] => some { count, opposite }
      | ['l'] => some { count, opposite }
      | ['c'] => some { lines := false, count, opposite }
      | ['b'] => some { lines := false, count := 512 * count, opposite }
      | _ => none
  | _, _ => none

def main : Act Unit := do
  let words := (← get).call.arguments
  let old := oldWord? words
  let g := Given.read options true (if old.isSome then words.drop 1 else words)
  let (e, titles) ← settle g.options (old.getD {}, .several)
  if let some fault := g.fault then Act.misuse 1 fault
  let names := if g.operands.isEmpty then ["-"] else g.operands
  if e.count = 0 ∧ !e.opposite then return ()
  each e (titles.isOn names) true names
  if names.contains "-" ∧ (← ask (.inspect 0)).isNone then
    Act.fail 1 "-: Bad file descriptor"

end Tail

end TensorParity.Tool
