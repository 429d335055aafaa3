import TensorParity.Tool.Excerpt
import TensorParity.Tool.Files

/-!
Tools that count, cut, order and turn round lines: `wc`, `cut`, `sort`, `uniq`, `tac`, `rev` and
`seq`.
-/
namespace TensorParity.Tool

open Machine
open Machine.Routine (ask)

namespace Lines

/-- Lines without their ends; one that does not end counts too. -/
def ofBytes (mark : UInt8) (bytes : ByteArray) : List ByteArray :=
  let (done, last) := bytes.foldl (fun (done, last) b =>
    if b = mark then (last :: done, ByteArray.empty) else (done, last.push b))
    (([] : List ByteArray), ByteArray.empty)
  (if last.isEmpty then done else last :: done).reverse

def joined (mark : UInt8) (lines : List ByteArray) : ByteArray :=
  lines.foldl (fun out line => (out ++ line).push mark) .empty

/-- Everything that an operand yields; complains if it cannot be read. -/
def content (complain : String → FileError → String) (status : Nat) (name : String) :
    Act (Option ByteArray) := do
  match ← if name = "-" then pure (.ok 0) else Act.openFile name .read with
  | .error e => do
    Act.warn (complain name e)
    Act.setStatus status
    return none
  | .ok n => do
    let result ← Head.rest n Routine.endless .empty
    if n ≠ 0 then Act.close n
    match result with
    | .ok bytes => return some bytes
    | .error e => do
      Act.warn s!"{shellText name}: {e.description}"
      Act.setStatus status
      return none

/-- Everything that the operands yield, one after the other. -/
def contents (complain : String → FileError → String) (status : Nat) :
    List String → Act (List ByteArray)
  | [] => return []
  | name :: rest => do
    let first ← content complain status name
    return first.toList ++ (← contents complain status rest)

def orInput (operands : List String) : List String :=
  if operands.isEmpty then ["-"] else operands

/-- The usual complaint. -/
def usual (name : String) (e : FileError) : String := s!"{shellText name}: {e.description}"

end Lines

namespace Count

/-- What is counted. -/
structure Tally where
  lines : Nat := 0
  words : Nat := 0
  bytes : Nat := 0
  longest : Nat := 0

/-- A blank ends a word. -/
def isBlank (b : UInt8) : Bool := Text.isSpace (Char.ofNat b.toNat)

/-- The columns after a byte. -/
def column (n : Nat) (b : UInt8) : Nat :=
  if b = 9 then n + 8 - n % 8
  else if b = 10 ∨ b = 13 ∨ b = 12 then 0
  else if 32 ≤ b ∧ b < 127 then n + 1
  else n

def Tally.of (content : ByteArray) : Tally :=
  let (t, _, _) := content.foldl (fun (t, inWord, n) b =>
    let blank := isBlank b
    let n' := column n b
    ({ lines := if b = 10 then t.lines + 1 else t.lines
       words := if !blank && !inWord then t.words + 1 else t.words
       bytes := t.bytes + 1
       longest := max t.longest n' }, !blank, n')) (({} : Tally), false, 0)
  t

def Tally.add (a b : Tally) : Tally :=
  { lines := a.lines + b.lines, words := a.words + b.words, bytes := a.bytes + b.bytes
    longest := max a.longest b.longest }

def options : List OptionName :=
  [{ name := "c", others := ["bytes"] }, { name := "m", others := ["chars"] },
    { name := "l", others := ["lines"] }, { name := "L", others := ["max-line-length"] },
    { name := "w", others := ["words"] }, { name := "total", takes := .argument },
    { name := "files0-from", takes := .argument }]

/-- The numbers that are shown of a tally. -/
def shownOf (g : Given) (t : Tally) : List Nat :=
  let usual := !g.options.any fun o => ["c", "m", "l", "L", "w"].contains o.1
  (if usual || g.has "l" then [t.lines] else []) ++ (if usual || g.has "w" then [t.words] else [])
    ++ (if g.has "m" then [t.bytes] else []) ++ (if usual || g.has "c" then [t.bytes] else [])
    ++ (if g.has "L" then [t.longest] else [])

def row (width : Nat) (numbers : List Nat) (name? : Option String) : String :=
  let padded (n : Nat) : String := "".pushn ' ' (width - (toString n).length) ++ toString n
  " ".intercalate (numbers.map padded)
    ++ (match name? with
      | some name => " " ++ name
      | none => "") ++ "\n"

/-- The size of a file that an operand names, if it is a file. -/
def sizeOf? (name : String) : Act (Option (Option Nat)) := do
  let fs ← Act.files
  if name = "-" then
    match ← ask (.inspect 0) with
    | some (.file location) =>
      match fs.find? location with
      | some (.file content) => return some (some content.size)
      | _ => return some none
    | some _ => return some none
    | none => return none
  else
    match fs.locate (pathOf name) with
    | .ok (_, .file content) => return some (some content.size)
    | .ok _ => return some none
    | .error _ => return none

/-- The width of the columns: that of the sum of all sizes, and a good one if a size is not
known. -/
def widthOf (sizes : List (Option (Option Nat))) : Nat :=
  let known := sizes.filterMap id
  let total := (known.filterMap id).foldl (· + ·) 0
  let least := if known.any Option.isNone then 7 else 1
  max least (toString total).length

def each (g : Given) (width : Nat) (named : Bool) : List String → Tally → Act Tally
  | [], total => return total
  | name :: rest, total => do
    match ← Lines.content Lines.usual 1 name with
    | none => do
      if (← Act.files).isDirectory (pathOf name) then
        Act.printText (row width (shownOf g {}) (if named then some name else none))
      each g width named rest total
    | some content => do
      let t := Tally.of content
      Act.printText (row width (shownOf g t) (if named then some (shellText name) else none))
      each g width named rest (total.add t)

def main : Act Unit := do
  let g ← Act.given options 1
  let names := Lines.orInput g.operands
  let sizes ← names.mapM sizeOf?
  let alone := names.length = 1 && (shownOf g {}).length = 1
  let firstMissing := (sizes.head?.getD none).isNone
  let width := if alone || firstMissing then 1 else widthOf sizes
  let total ← each g width (!g.operands.isEmpty) names {}
  if 1 < names.length then Act.printText (row width (shownOf g total) (some "total"))

end Count

namespace Cut

/-- Ranges of positions; the end of a range may be open. -/
abbrev Ranges := List (Nat × Option Nat)

def number? (text : String) : Option Nat :=
  if text ≠ "" ∧ text.all Char.isDigit then some (Text.natOf 10 text.toList) else none

def range? (text : String) : Option (Nat × Option Nat) :=
  match text.splitOn "-" with
  | [one] => (number? one).map fun n => (n, some n)
  | [a, b] =>
    if a = "" ∧ b = "" then none
    else if a = "" then (number? b).map fun n => (1, some n)
    else if b = "" then (number? a).map fun n => (n, none)
    else do
      let x ← number? a
      let y ← number? b
      return (x, some y)
  | _ => none

def inside (ranges : Ranges) (n : Nat) : Bool :=
  ranges.any fun (a, b?) => a ≤ n && b?.all (n ≤ ·)

def options : List OptionName :=
  [{ name := "b", takes := .argument, others := ["bytes"] },
    { name := "c", takes := .argument, others := ["characters"] },
    { name := "f", takes := .argument, others := ["fields"] },
    { name := "d", takes := .argument, others := ["delimiter"] }, { name := "n" },
    { name := "s", others := ["only-delimited"] }, { name := "complement" },
    { name := "output-delimiter", takes := .argument },
    { name := "z", others := ["zero-terminated"] }]

/-- The pieces of a line between separators. -/
def fields (separator : UInt8) (line : ByteArray) : List ByteArray :=
  let (done, last) := line.foldl (fun (done, last) b =>
    if b = separator then (last :: done, ByteArray.empty) else (done, last.push b))
    (([] : List ByteArray), ByteArray.empty)
  (last :: done).reverse

def chosen {α : Type} (wanted : Nat → Bool) (xs : List α) : List α :=
  (xs.zipIdx.filter fun (_, i) => wanted (i + 1)).map (·.1)

def line (g : Given) (byFields : Bool) (separator : UInt8) (between : ByteArray)
    (wanted : Nat → Bool) (text : ByteArray) : Option ByteArray :=
  if byFields then
    if !text.data.contains separator then if g.has "s" then none else some text
    else
      match chosen wanted (fields separator text) with
      | [] => some .empty
      | first :: rest => some (rest.foldl (fun out f => out ++ between ++ f) first)
  else some ⟨(chosen wanted text.toList).toArray⟩

def main : Act Unit := do
  let g ← Act.given options 1
  let lists := g.options.filter fun o => ["b", "c", "f"].contains o.1
  match lists with
  | [] => Act.misuse 1 "you must specify a list of bytes, characters, or fields"
  | [(kind, text)] => do
    let byFields := kind = "f"
    let what := if byFields then "field" else "byte or character position"
    let ranges := (text.split fun c => c = ',' || c = ' ' || c = '\t').toList.map fun p =>
      range? p.toString
    if !byFields ∧ g.has "d" then
      Act.misuse 1 "an input delimiter may be specified only when operating on fields"
    if !byFields ∧ g.has "s" then
      Act.misuse 1
        "suppressing non-delimited lines makes sense\n\tonly when operating on fields"
    match ranges.mapM id with
    | none => Act.misuse 1 s!"invalid {what} {quoted text}"
    | some rs => do
      if rs.any fun r => r.1 = 0 then
        Act.misuse 1
          (if byFields then "fields are numbered from 1"
            else "byte/character positions are numbered from 1")
      if rs.any fun r => r.2.any (· < r.1) then Act.misuse 1 "invalid decreasing range"
      let d := (g.last? "d").getD "\t"
      if 1 < d.length then Act.misuse 1 "the delimiter must be a single character"
      let separator := (d.toList.head?.map Octet.toByte).getD 0
      let between := ((g.last? "output-delimiter").map Octet.toBytes).getD ⟨#[separator]⟩
      let wanted (n : Nat) : Bool := inside rs n != g.has "complement"
      let mark : UInt8 := if g.has "z" then 0 else 10
      for name in Lines.orInput g.operands do
        if let some content ← Lines.content Lines.usual 1 name then
          let lines := Lines.ofBytes mark content
          Act.print (Lines.joined mark
            (lines.filterMap (line g byFields separator between wanted)))
  | _ => Act.misuse 1 "only one list may be specified"

end Cut

namespace Order

/-- Which of two lines comes first, byte by byte. -/
def before : List UInt8 → List UInt8 → Bool
  | _, [] => false
  | [], _ :: _ => true
  | a :: as, b :: bs => a < b || (a = b && before as bs)

/-- The number at the beginning of a line, in units so small that places after the point count. -/
def numberOf (line : List UInt8) : Int :=
  let cs := (line.map fun b => Char.ofNat b.toNat).dropWhile fun c => c = ' ' || c = '\t'
  let (negative, cs) :=
    match cs with
    | '-' :: rest => (true, rest)
    | cs => (false, cs)
  let whole := cs.takeWhile Char.isDigit
  let fraction :=
    match cs.drop whole.length with
    | '.' :: rest => rest.takeWhile Char.isDigit
    | _ => []
  let places := (fraction ++ List.replicate 20 '0').take 20
  let n : Int := Text.natOf 10 (whole ++ places)
  if negative then -n else n

def options : List OptionName :=
  [{ name := "b" }, { name := "d" }, { name := "f", others := ["ignore-case"] }, { name := "g" },
    { name := "i" }, { name := "n", others := ["numeric-sort"] },
    { name := "r", others := ["reverse"] }, { name := "u", others := ["unique"] },
    { name := "s", others := ["stable"] }, { name := "z" }, { name := "h" }, { name := "V" },
    { name := "k", takes := .argument, others := ["key"] },
    { name := "t", takes := .argument, others := ["field-separator"] },
    { name := "o", takes := .argument, others := ["output"] }, { name := "c" }, { name := "m" }]

/-- The part of a line that is compared: from one field to another. -/
def keyOf (separator : Option UInt8) (first : Nat) (last : Option Nat) (line : List UInt8) :
    List UInt8 :=
  match separator with
  | some sep =>
    let fields := Cut.fields sep ⟨line.toArray⟩
    let kept := (fields.drop (first - 1)).take ((last.getD fields.length) + 1 - first)
    (kept.map (·.toList)).intersperse [sep] |>.flatten
  | none =>
    let blank (b : UInt8) : Bool := b = 32 || b = 9
    let rec skip : Nat → List UInt8 → List UInt8
      | 0, l => l
      | n + 1, l => skip n ((l.dropWhile blank).dropWhile (!blank ·))
    let start := skip (first - 1) line
    match last with
    | none => start
    | some l =>
      let rest := skip (l + 1 - first) start
      start.take (start.length - rest.length)

def main : Act Unit := do
  let g ← Act.given options 2
  let failing (name : String) (e : FileError) : String :=
    s!"cannot read: {shellText name}: {e.description}"
  let mark : UInt8 := if g.has "z" then 0 else 10
  let contents ← Lines.contents failing 2 (Lines.orInput g.operands)
  if (← get).status ≠ 0 then throw ()
  let lines := (contents.flatMap (Lines.ofBytes mark)).map (·.toList)
  let key := (g.last? "k").getD ""
  let digits (cs : List Char) : Nat := Text.natOf 10 (cs.takeWhile Char.isDigit)
  let letters := key.toList.filter Char.isAlpha
  let numeric := g.has "n" || g.has "g" || letters.contains 'n'
  let reversed := g.has "r" || letters.contains 'r'
  let separator := (g.last? "t").bind fun t => t.toList.head?.map Octet.toByte
  let first := digits key.toList
  let last :=
    match key.splitOn "," with
    | [_, b] => some (digits b.toList)
    | _ => none
  let keyed (l : List UInt8) : List UInt8 := if first = 0 then l else keyOf separator first last l
  let folded (l : List UInt8) : List UInt8 :=
    if g.has "f" then l.map fun b => if 97 ≤ b ∧ b ≤ 122 then b - 32 else b else l
  let less (a b : List UInt8) : Bool :=
    if numeric then numberOf (keyed a) < numberOf (keyed b)
    else before (folded (keyed a)) (folded (keyed b))
  let same (a b : List UInt8) : Bool := !less a b && !less b a
  let follows (a b : List UInt8) : Bool :=
    if same a b then g.has "u" || g.has "s" || (if reversed then !before a b else !before b a)
    else if reversed then less b a else less a b
  let sorted := lines.mergeSort follows
  let kept :=
    if g.has "u" then
      (sorted.foldl (fun (done : List (List UInt8)) l =>
        match done with
        | p :: _ => if same p l then done else l :: done
        | [] => [l]) []).reverse
    else sorted
  let bytes := Lines.joined mark (kept.map fun l => ⟨l.toArray⟩)
  match g.last? "o" with
  | none => Act.print bytes
  | some name =>
    match ← Act.openFile name .write with
    | .ok n => do
      let _ ← Act.write n bytes
      Act.close n
    | .error e => Act.fail 2 s!"open failed: {shellText name}: {e.description}"

end Order

namespace Uniq

def options : List OptionName :=
  [{ name := "c", others := ["count"] }, { name := "d", others := ["repeated"] },
    { name := "u", others := ["unique"] }, { name := "i", others := ["ignore-case"] },
    { name := "D" }, { name := "z" }, { name := "f", takes := .argument },
    { name := "s", takes := .argument }, { name := "w", takes := .argument }]

/-- Runs of equal lines, with how often each line stands. -/
def runs (same : ByteArray → ByteArray → Bool) (lines : List ByteArray) :
    List (ByteArray × Nat) :=
  (lines.foldl (fun (done : List (ByteArray × Nat)) l =>
    match done with
    | (p, n) :: rest => if same p l then (p, n + 1) :: rest else (l, 1) :: done
    | [] => [(l, 1)]) []).reverse

def main : Act Unit := do
  let g ← Act.given options 1
  let name := g.operands.headD "-"
  let some content ← Lines.content Lines.usual 1 name | return ()
  let lower (b : UInt8) : UInt8 := if 65 ≤ b ∧ b ≤ 90 then b + 32 else b
  let same (a b : ByteArray) : Bool :=
    if g.has "i" then a.toList.map lower = b.toList.map lower else a.data = b.data
  let found := (runs same (Lines.ofBytes 10 content)).filter fun (_, n) =>
    (!g.has "d" || 1 < n) && (!g.has "u" || n = 1)
  for (line, n) in found do
    if g.has "c" then
      Act.printText ("".pushn ' ' (7 - (toString n).length) ++ toString n ++ " ")
    Act.print (line.push 10)

end Uniq

namespace Turned

/-- The lines of each file from the last to the first. -/
def tac : Act Unit := do
  let g ← Act.given [{ name := "b" }, { name := "r" }, { name := "s", takes := .argument }] 1
  let failing (name : String) (e : FileError) : String :=
    s!"failed to open {shellQuoted name} for reading: {e.description}"
  for name in Lines.orInput g.operands do
    if let some content ← Lines.content failing 1 name then
      let lines := Lines.ofBytes 10 content
      let ends := content.data.back?.getD 10 = 10
      match lines.reverse with
      | [] => pure ()
      | last :: rest =>
        Act.print (if ends then last.push 10 else last)
        Act.print (Lines.joined 10 rest)

/-- The characters of each line from the last to the first. -/
def rev : Act Unit := do
  let g ← Act.given [] 1
  let failing (name : String) (e : FileError) : String :=
    s!"cannot open {name}: {e.description}"
  for name in Lines.orInput g.operands do
    if let some content ← Lines.content failing 1 name then
      let turned := (Lines.ofBytes 10 content).map fun l => ByteArray.mk l.data.reverse
      let all := Lines.joined 10 turned
      let ends := content.data.back?.getD 10 = 10
      Act.print (if ends then all else all.extract 0 (all.size - 1))

end Turned

namespace Sequence

/-- A decimal number with a number of places. -/
structure Number where
  value : Int
  places : Nat

def number? (text : String) : Option Number :=
  let cs := (text.toList.dropWhile (· = ' '))
  let (negative, cs) :=
    match cs with
    | '-' :: rest => (true, rest)
    | '+' :: rest => (false, rest)
    | cs => (false, cs)
  let whole := cs.takeWhile Char.isDigit
  let fraction :=
    match cs.drop whole.length with
    | '.' :: rest => some rest
    | [] => some []
    | _ => none
  match fraction with
  | none => none
  | some f =>
    if !f.all Char.isDigit ∨ (whole.isEmpty ∧ f.isEmpty) then none
    else
      let n : Int := Text.natOf 10 (whole ++ f)
      some ⟨if negative then -n else n, f.length⟩

/-- The value in units of so many places. -/
def Number.scaled (n : Number) (places : Nat) : Int := n.value * (Nat.pow 10 (places - n.places) : Nat)

def textOf (places : Nat) (n : Int) : String :=
  let digits := toString n.natAbs
  let digits := "".pushn '0' (places + 1 - digits.length) ++ digits
  let sign := if n < 0 then "-" else ""
  if places = 0 then sign ++ digits
  else
    let whole := String.ofList (digits.toList.take (digits.length - places))
    let fraction := String.ofList (digits.toList.drop (digits.length - places))
    s!"{sign}{whole}.{fraction}"

/-- Zeros after the sign, up to a width. -/
def widened (width : Nat) (text : String) : String :=
  let missing := "".pushn '0' (width - text.length)
  if text.startsWith "-" then "-" ++ missing ++ (text.drop 1).toString else missing ++ text

def go (places width : Nat) (between : String) (step last : Int) :
    (fuel : Nat) → (first : Bool) → Int → Act Unit
  | 0, _, _ => return ()
  | fuel + 1, first, n => do
    if (if 0 ≤ step then last < n else n < last) then
      if !first then Act.printText "\n"
    else
      Routine.tick
      Act.printText ((if first then "" else between) ++ widened width (textOf places n))
      go places width between step last fuel false (n + step)

def options : List OptionName :=
  [{ name := "s", takes := .argument, others := ["separator"] },
    { name := "w", others := ["equal-width"] },
    { name := "f", takes := .argument, others := ["format"] }]
  ++ (List.range 10).map fun d => { name := toString d }

/-- Words that are numbers with a sign are no options. -/
def split : List String → List String × List String
  | [] => ([], [])
  | word :: rest =>
    if word.startsWith "-" ∧ (number? word).isNone ∧ word ≠ "--" then
      let (options, operands) := split rest
      (word :: options, operands)
    else ([], word :: rest)

def main : Act Unit := do
  let words := (← get).call.arguments
  let (before, after) := split words
  let takesNext := before.getLast?.any fun w => w = "-s" || w = "-f"
  let before := if takesNext then before ++ after.take 1 else before
  let g := Given.read options false before
  let after := if takesNext then after.drop 1 else after
  if let some fault := g.fault then Act.misuse 1 fault
  let operands := if after.head? = some "--" then after.drop 1 else after
  if operands.isEmpty then Act.misuse 1 "missing operand"
  if let some extra := operands[3]? then Act.misuse 1 s!"extra operand {quoted extra}"
  let mut numbers : List Number := []
  for text in operands do
    match number? text with
    | some n => numbers := numbers ++ [n]
    | none => Act.misuse 1 s!"invalid floating point argument: {quoted text}"
  let one : Number := ⟨1, 0⟩
  let (first, step, last) : Number × Number × Number :=
    match numbers with
    | [l] => (one, one, l)
    | [f, l] => (f, one, l)
    | [f, s, l] => (f, s, l)
    | _ => (one, one, one)
  if step.value = 0 then
    Act.misuse 1 ("invalid Zero increment value: " ++ quoted (operands[1]?.getD ""))
  let places := max first.places step.places
  let all := max places last.places
  let shift : Int := (Nat.pow 10 (all - places) : Nat)
  let limit := Int.fdiv (last.scaled all) shift
  let limit := if step.value < 0 then -Int.fdiv (-(last.scaled all)) shift else limit
  let lengths := [first.scaled places, limit].map fun n => (textOf places n).length
  let width := if g.has "w" then lengths.foldl max 0 else 0
  go places width ((g.last? "s").getD "\n") (step.scaled places) limit Routine.endless true
    (first.scaled places)

end Sequence

end TensorParity.Tool
