import TensorParity.Tool.Options
import TensorParity.Tool.Quoting

/-!
Files one after the other: `cat`, which can also number lines and show what is not visible, and
`tee`, which writes what it reads to several places.
-/
namespace TensorParity.Tool

open Machine
open Machine.Routine (ask)

/-- What is shown besides the bytes themselves. -/
structure Showing where
  numbers : Bool := false
  /-- Whether blank lines get no numbers. -/
  onlyFull : Bool := false
  /-- Whether only the first of several blank lines is shown. -/
  squeezed : Bool := false
  ends : Bool := false
  tabs : Bool := false
  hidden : Bool := false
  deriving DecidableEq

namespace Showing

/-- Where a stream of lines stands. -/
structure Place where
  number : Nat := 0
  atStart : Bool := true
  /-- How many blank lines came one after the other. -/
  blanks : Nat := 0
  /-- Whether the last byte was a carriage return that is not shown yet. -/
  held : Bool := false

def ascii (text : String) (out : ByteArray) : ByteArray := out ++ text.toUTF8

/-- A number in its column. -/
def numberText (n : Nat) : String :=
  let digits := toString n
  "".pushn ' ' (6 - digits.length) ++ digits ++ "\t"

/-- A byte below 128, shown. -/
def lowByte (s : Showing) (b : UInt8) (out : ByteArray) : ByteArray :=
  if b = 9 ∧ !s.tabs then out.push b
  else if b < 32 then (out.push 94).push (b + 64)
  else if b = 127 then (out.push 94).push 63
  else out.push b

/-- A byte of a line, shown. -/
def inLine (s : Showing) (b : UInt8) (out : ByteArray) : ByteArray :=
  if s.hidden then
    if b < 128 then s.lowByte b out
    else lowByte { s with tabs := true } (b - 128) (ascii "M-" out)
  else if b = 9 ∧ s.tabs then ascii "^I" out
  else out.push b

/-- What comes before a line. -/
def before (s : Showing) (p : Place) (blank : Bool) (out : ByteArray) : Place × ByteArray :=
  if s.numbers && p.atStart && !(blank && s.onlyFull) then
    ({ p with number := p.number + 1 }, ascii (numberText (p.number + 1)) out)
  else (p, out)

/-- Shows one byte. -/
def step (s : Showing) : Place × ByteArray → UInt8 → Place × ByteArray
  | (p, out), b =>
    let out := if p.held then (if b = 10 then ascii "^M" out else out.push 13) else out
    let p := { p with held := false }
    if b = 10 then
      let blanks := if p.atStart then p.blanks + 1 else 0
      if s.squeezed && 2 ≤ blanks then ({ p with blanks }, out)
      else
        let (p, out) := s.before p true out
        let out := if s.ends then out.push 36 else out
        ({ p with blanks, atStart := true }, out.push 10)
    else
      let (p, out) := s.before p false out
      let p := { p with atStart := false, blanks := 0 }
      if b = 13 && s.ends && !s.hidden then ({ p with held := true }, out)
      else (p, s.inLine b out)

/-- Shows some bytes. -/
def bytes (s : Showing) (p : Place) (input : ByteArray) : Place × ByteArray :=
  input.foldl s.step (p, .empty)

/-- What the options ask for. -/
def ofOptions (options : List (String × String)) : Showing :=
  options.foldl (fun s (name, _) =>
    match name with
    | "A" => { s with hidden := true, ends := true, tabs := true }
    | "b" => { s with numbers := true, onlyFull := true }
    | "e" => { s with hidden := true, ends := true }
    | "E" => { s with ends := true }
    | "n" => { s with numbers := true }
    | "s" => { s with squeezed := true }
    | "t" => { s with hidden := true, tabs := true }
    | "T" => { s with tabs := true }
    | "v" => { s with hidden := true }
    | _ => s) {}

end Showing

namespace Cat

def options : List OptionName :=
  [{ name := "A", others := ["show-all"] }, { name := "b", others := ["number-nonblank"] },
    { name := "e" }, { name := "E", others := ["show-ends"] },
    { name := "n", others := ["number"] }, { name := "s", others := ["squeeze-blank"] },
    { name := "t" }, { name := "T", others := ["show-tabs"] }, { name := "u" },
    { name := "v", others := ["show-nonprinting"] }]

/-- Writes at once, and ends if that fails. -/
def put (bytes : ByteArray) : Act Unit := do
  if let .error e ← Act.write 1 bytes then Act.fail 1 s!"write error: {e.description}"

/-- Whether a descriptor is the file that is written, and there is something in it. -/
def isOutput (descriptor : Nat) : Act Bool := do
  match ← ask (.inspect descriptor), ← ask (.inspect 1) with
  | some (.file location), some (.file place) =>
    match (← Act.files).find? location with
    | some (.file content) => return location = place && !content.isEmpty
    | _ => return false
  | _, _ => return false

/-- Shows what a descriptor yields. -/
def copy (s : Showing) (p : Showing.Place) (name : String) (descriptor : Nat) :
    Act Showing.Place := do
  if ← isOutput descriptor then
    Act.warn s!"{shellText name}: input file is output file"
    Act.setStatus 1
    return p
  else go Routine.endless p
where
  go : (fuel : Nat) → Showing.Place → Act Showing.Place
    | 0, p => return p
    | fuel + 1, p => do
      Routine.tick
      match ← Act.read descriptor 131072 with
      | .error e => do
        Act.warn s!"{shellText name}: {e.description}"
        Act.setStatus 1
        return p
      | .ok bytes =>
        if bytes.isEmpty then return p
        else if s = {} then do
          put bytes
          go fuel p
        else do
          let (p, shown) := s.bytes p bytes
          put shown
          go fuel p

def each (s : Showing) : Showing.Place → List String → Act Showing.Place
  | p, [] => return p
  | p, "-" :: rest => do each s (← copy s p "-" 0) rest
  | p, name :: rest => do
    match ← Act.openFile name .read with
    | .error e => do
      Act.warn s!"{shellText name}: {e.description}"
      Act.setStatus 1
      each s p rest
    | .ok n => do
      let p ← copy s p name n
      Act.close n
      each s p rest

def main : Act Unit := do
  let g ← Act.given options 1
  let names := if g.operands.isEmpty then ["-"] else g.operands
  let p ← each (Showing.ofOptions g.options) {} names
  if p.held then put ⟨#[13]⟩
  if names.contains "-" ∧ (← ask (.inspect 0)).isNone then
    Act.fail 1 "closing standard input: Bad file descriptor"

end Cat

namespace Tee

def options : List OptionName :=
  [{ name := "a", others := ["append"] }, { name := "i", others := ["ignore-interrupts"] },
    { name := "p", takes := .nothing, others := [] },
    { name := "output-error", takes := .perhaps }]

/-- Opens the files that are written. -/
def places (access : Access) : List String → Act (List (String × Nat))
  | [] => return []
  | name :: rest => do
    match ← Act.openFile name access with
    | .error e => do
      Act.warn s!"{shellText name}: {e.description}"
      Act.setStatus 1
      places access rest
    | .ok n => return (name, n) :: (← places access rest)

/-- Writes to every place; yields those that took it. -/
def spread (bytes : ByteArray) : List (String × Nat) → Act (List (String × Nat))
  | [] => return []
  | (name, n) :: rest => do
    match ← Act.write n bytes with
    | .ok () => return (name, n) :: (← spread bytes rest)
    | .error e => do
      Act.warn s!"{shellText name}: {e.description}"
      Act.setStatus 1
      spread bytes rest

def pass : (fuel : Nat) → List (String × Nat) → Act Unit
  | 0, _ => return ()
  | fuel + 1, targets => do
    Routine.tick
    match ← Act.read 0 8192 with
    | .error e => do
      Act.warn s!"read error: {e.description}"
      Act.setStatus 1
    | .ok bytes =>
      if bytes.isEmpty ∨ targets.isEmpty then return ()
      else do pass fuel (← spread bytes targets)

def main : Act Unit := do
  let g ← Act.given options 1
  if g.has "i" then
    let _ ← ask (.react 2 .ignore)
  let targets ← places (if g.has "a" then .append else .write) g.operands
  pass Routine.endless (("standard output", 1) :: targets)

end Tee

end TensorParity.Tool
