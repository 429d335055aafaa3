import TensorParity.Decimal.BinaryNumber
import TensorParity.Machine.Signal
import TensorParity.Tool.Options
import TensorParity.Tool.Quoting

/-!
Tools that have to do with time and with other programs: `sleep`, `timeout`, `env`, `nohup` and
`kill`.
-/
namespace TensorParity.Tool

open Machine
open Machine.Routine (ask)

/-- A span of time in microseconds. No text that spells an endless one has a finite value. -/
inductive Span where
  | micros (n : Nat)
  | endless

namespace Span

/-- Reads a number of seconds, or of what a letter says. -/
def read? (text : String) : Option Span :=
  let r := BinaryNumber.read .binary64 text.toList
  let unit? : Option Nat :=
    match r.rest with
    | [] => some 1
    | ['s'] => some 1
    | ['m'] => some 60
    | ['h'] => some 3600
    | ['d'] => some 86400
    | _ => none
  if !r.found then none
  else
    match unit?, r.value with
    | some unit, ⟨negative, .finite m e⟩ =>
      if negative ∧ m ≠ 0 then none
      else
        let scaled := m * unit * 1000000
        let n := if 0 ≤ e then scaled * Nat.pow 2 e.toNat else scaled / Nat.pow 2 (-e).toNat
        some (micros n)
    | some _, ⟨false, .infinite⟩ => some endless
    | _, _ => none

def add : Span → Span → Span
  | micros a, micros b => micros (a + b)
  | _, _ => endless

/-- Longer than anything else that happens. -/
def asMicros : Span → Nat
  | micros n => n
  | endless => 1000000000000000

end Span

namespace Sleep

def main : Act Unit := do
  let g ← Act.given [] 1
  if g.operands.isEmpty then Act.misuse 1 "missing operand"
  for text in g.operands do
    if (Span.read? text).isNone then
      Act.warn s!"invalid time interval {quoted text}"
      Act.setStatus 1
  if (← get).status ≠ 0 then Act.misuse.advise 1
  let spans := g.operands.filterMap Span.read?
  ask (.pause ((spans.foldl Span.add (.micros 0)).asMicros))

end Sleep

/-- The program that a name stands for, or why there is none. -/
def programOf (name : String) (call : Call) : Act (Except FileError Process) := do
  let s ← get
  let fs ← Act.files
  let directories := ((call.environment.lookup "PATH").getD "/bin:/usr/bin").splitOn ":"
  let places := if name.any (· = '/') then [name] else directories.map (· ++ "/" ++ name)
  let launch (place : String) : Except FileError Process :=
    match Launch.ofPath s.programs fs place with
    | .program run => .ok (run call)
    | .script interpreter argument =>
      match Launch.ofPath s.programs fs interpreter with
      | .program run =>
        .ok (run
          { call with name := interpreter, arguments := argument.toList ++ place :: call.arguments })
      | _ => .error .notFound
    | .plain =>
      match s.programs "sh" with
      | some run => .ok (run { call with name := "/bin/sh", arguments := place :: call.arguments })
      | none => .error .denied
    | .refused e => .error e
  return places.foldl (fun found place =>
    match found with
    | .ok p => .ok p
    | .error e =>
      match launch place with
      | .ok p => .ok p
      | .error x => .error (if x = .notFound ∨ x = .notDirectory then e else x)) (.error .notFound)

/-- Becomes another program, or complains and ends. -/
def become (what : String) (name : String) (call : Call) : Act Unit := do
  match ← programOf name call with
  | .ok p => do
    Act.flush
    ask .become
    Routine.goOn p
  | .error e => Act.fail (if e = .notFound then 127 else 126) (what ++ s!"{e.description}")

namespace Env

def options : List OptionName :=
  [{ name := "i", others := ["ignore-environment"] }, { name := "0", others := ["null"] },
    { name := "u", takes := .argument, others := ["unset"] },
    { name := "C", takes := .argument, others := ["chdir"] }, { name := "v", others := ["debug"] }]

/-- Words that assign, and the words after them. -/
def assignments : List String → List (String × String) × List String
  | [] => ([], [])
  | word :: rest =>
    if word.any (· = '=') then
      let name := String.ofList (word.toList.takeWhile (· ≠ '='))
      let (more, rest) := assignments rest
      ((name, (word.drop (name.length + 1)).toString) :: more, rest)
    else ([], word :: rest)

/-- Gives a variable a value, in its place if it has one. -/
def assign (assigned : List (String × String)) (name value : String) : List (String × String) :=
  if assigned.any (·.1 = name) then
    assigned.map fun v => if v.1 = name then (name, value) else v
  else assigned ++ [(name, value)]

def main : Act Unit := do
  let call := (← get).call
  let g := Given.read options false call.arguments
  if let some fault := g.fault then Act.misuse 125 fault
  let words := if g.operands.head? = some "-" then g.operands.drop 1 else g.operands
  let bare := g.has "i" || g.operands.head? = some "-"
  let unset := (g.options.filter (·.1 = "u")).map (·.2)
  let before :=
    (if bare then [] else call.environment).filter fun v => !unset.contains v.1
  let (changes, command) := assignments words
  let environment := changes.foldl (fun vs v => assign vs v.1 v.2) before
  if let some directory := g.last? "C" then
    match (← Act.files).locate ⟨Octet.toText directory⟩ with
    | .ok (location, .directory) => ask (.change fun fs => { fs with current := location })
    | .ok _ => Act.fail 125 s!"cannot change directory to {shellQuoted directory}: Not a directory"
    | .error e =>
      Act.fail 125 s!"cannot change directory to {shellQuoted directory}: {e.description}"
  match command with
  | [] =>
    let finish := if g.has "0" then "\x00" else "\n"
    Act.printText (String.join (environment.map fun (name, value) => s!"{name}={value}{finish}"))
  | name :: arguments =>
    become s!"{shellQuoted name}: " name { name, arguments, environment }

end Env

namespace PrintEnv

def main : Act Unit := do
  let call := (← get).call
  let g := Given.read [{ name := "0", others := ["null"] }] false call.arguments
  if let some fault := g.fault then Act.misuse 2 fault
  let finish := if g.has "0" then "\x00" else "\n"
  if g.operands.isEmpty then
    for (name, value) in call.environment do
      Act.printText s!"{name}={value}{finish}"
  for name in g.operands do
    match call.environment.lookup name with
    | some value => Act.printText (value ++ finish)
    | none => Act.setStatus 1

end PrintEnv

namespace Timeout

def options : List OptionName :=
  [{ name := "k", takes := .argument, others := ["kill-after"] },
    { name := "s", takes := .argument, others := ["signal"] },
    { name := "foreground" }, { name := "f" }, { name := "p", others := ["preserve-status"] },
    { name := "v", others := ["verbose"] }]

/-- How a command that was waited for ended, and what the limit had to do with it. -/
structure Watch where
  child : Nat
  signal : Nat
  /-- When the command gets the signal, and when it is killed. -/
  limit : Nat
  grace : Option Nat
  keeps : Bool

/-- How often the command is looked at, in microseconds. -/
def interval : Nat := 500

/-- Waits for the command, which was sent a signal if `sent`. -/
def watch (w : Watch) : (fuel elapsed : Nat) → (sent : Bool) → Act Unit
  | 0, _, _ => Act.setStatus 125
  | fuel + 1, elapsed, sent => do
    match ← ask (.await false) with
    | .ended _ (.status code) => Act.setStatus (if sent && !w.keeps then 124 else code)
    | .ended _ (.signal n) =>
      if sent && !w.keeps && n ≠ killSignal then Act.setStatus 124
      else if sent && !w.keeps then Act.setStatus 137
      else Act.setStatus (128 + n)
    | .nobody => return ()
    | _ => do
      if !sent ∧ w.limit ≠ 0 ∧ w.limit ≤ elapsed then
        let _ ← ask (.kill w.child w.signal)
        let _ ← ask (.kill w.child continueSignal)
        watch w fuel elapsed true
      else
        if sent then
          if let some grace := w.grace then
            if w.limit + grace ≤ elapsed then
              let _ ← ask (.kill w.child killSignal)
        ask (.pause interval)
        watch w fuel (elapsed + interval) sent

/-- A span on the command line. -/
def spanOf (text : String) : Act Nat := do
  match Span.read? text with
  | some span => return span.asMicros
  | none => Act.misuse 125 s!"invalid time interval {quoted text}"

def main : Act Unit := do
  let call := (← get).call
  let g := Given.read options false call.arguments
  if let some fault := g.fault then Act.misuse 125 fault
  let signal ←
    match g.last? "s" with
    | none => pure 15
    | some text =>
      let bare := if text.startsWith "SIG" then (text.drop 3).toString else text
      match Signal.ofText? 1 bare with
      | some n => pure n
      | none => Act.misuse 125 s!"{quoted text}: invalid signal"
  let grace ←
    match g.last? "k" with
    | none => pure none
    | some text => do pure (some (← spanOf text))
  match g.operands with
  | duration :: name :: arguments => do
    let limit ← spanOf duration
    let inner : Call := { name, arguments, environment := call.environment }
    match ← programOf name inner with
    | .error e =>
      Act.fail (if e = .notFound then 127 else 126)
        s!"failed to run command {quoted name}: {e.description}"
    | .ok p => do
      let child ← Routine.fork fun _ => .ask .become fun _ => p
      watch { child, signal, limit, grace, keeps := g.has "p" } Routine.endless 0 false
  | _ => Act.misuse 125 "missing operand"

end Timeout

namespace Nohup

def main : Act Unit := do
  let call := (← get).call
  match call.arguments with
  | [] => Act.misuse 125 "missing operand"
  | name :: arguments => do
    let _ ← ask (.react 1 .ignore)
    become s!"failed to run command {quoted name}: " name { call with name, arguments }

end Nohup

namespace Kill

/-- A process number. -/
def processOf? (text : String) : Option Nat :=
  if text ≠ "" ∧ text.all Char.isDigit then some (Text.natOf 10 text.toList) else none

def each (signal : Nat) : List String → Act Unit
  | [] => return ()
  | word :: rest => do
    match processOf? word with
    | none => do
      Act.warn s!"failed to parse argument: {quoted word}"
      Act.setStatus 1
    | some n =>
      if !(← ask (.kill n signal)) then
        Act.warn s!"({word}): No such process"
        Act.setStatus 1
    each signal rest

def signalOf (text : String) : Act Nat := do
  let bare := if text.startsWith "SIG" then (text.drop 3).toString else text
  match Signal.ofText? 0 bare with
  | some n => return n
  | none => Act.misuse 1 s!"{quoted text}: invalid signal"

def main : Act Unit := do
  match (← get).call.arguments with
  | [] => Act.misuse 1 "no process ID specified"
  | "-s" :: name :: rest => do each (← signalOf name) rest
  | "--" :: rest => each 15 rest
  | word :: rest =>
    if word.startsWith "-" then do each (← signalOf (word.drop 1).toString) rest
    else each 15 (word :: rest)

end Kill

end TensorParity.Tool
