import TensorParity.Shell.Builtin.Jobs
import TensorParity.Shell.Builtin.Places
import TensorParity.Shell.Builtin.Settings
import TensorParity.Shell.Condition
import TensorParity.Shell.Lookup
import TensorParity.Shell.Redirection

/-!
Runs commands. Fuel bounds how deep commands may stand inside one another and how often loops go
round.
-/
namespace TensorParity.Shell

open Machine
open Machine.Routine (ask attempt ofResult)

/-- How a command is run. -/
structure Occasion where
  /-- Whether something depends on its outcome, so that a failure does not end the shell. -/
  tested : Bool := false
  /-- Whether the shell has nothing to do after it. -/
  final : Bool := false

namespace Occasion

/-- A command after which the shell goes on. -/
def inside (m : Occasion) : Occasion := { m with final := false }

/-- A command whose outcome is looked at. -/
def test : Occasion := { tested := true }

end Occasion

/-- Sets the line that complaints and variables tell. -/
def setLine (line : Nat) : Act Unit :=
  modify fun s =>
    { s with
      faultLine := line
      line := if s.functionLine = 0 then line else line + 1 - s.functionLine }

/-- Runs `x` and afterwards `after`, however it ends. -/
def ensuring {α : Type} (x : Act α) (after : Act Unit) : Act α := do
  let r ← attempt x
  after
  ofResult r

/-- A new shell forgets the jobs and the traps of the one that it came from. -/
def becomeChild : Act Unit := do
  let s ← get
  let caught := s.traps.filter (·.2 ≠ "")
  set { s with traps := s.traps.filter (·.2 = ""), jobs := [], nested := true, loops := 0 }
  for (signal, _) in caught do
    Builtin.react signal

/-- Reads all that a descriptor yields. -/
def readAll (descriptor : Nat) : (fuel : Nat) → ByteArray → Act ByteArray
  | 0, read => return read
  | fuel + 1, read => do
    match ← ask (.read descriptor 65536 none) with
    | .ok bytes => if bytes.isEmpty then return read else readAll descriptor fuel (read ++ bytes)
    | .error _ => return read

/-- The text of what a command printed, without the line feeds at its end. -/
def capturedText (bytes : ByteArray) : String :=
  let cs := (Octet.ofBytes bytes).toList.filter (· ≠ '\x00')
  String.ofList (cs.reverse.dropWhile (· = '\n')).reverse

/-- The descriptor on which complaints came before redirections. -/
def traceDescriptor (kept : List Kept) : Nat := ((kept.lookup 2).bind id).getD 2

namespace Run

variable (programs : Programs)

/-- Another program takes the place of the shell. -/
def launch (place : String) (words : List String) (fs : FileSystem) (s : State) :
    Except FileError Process :=
  let call (name : String) (arguments : List String) : Call :=
    ⟨name, arguments, s.environment⟩
  let name := words.headD ""
  let arguments := words.drop 1
  let shell (arguments : List String) : Except FileError Process :=
    match programs "sh" with
    | some run => .ok (run (call "/bin/sh" arguments))
    | none => .error .notFound
  match Launch.ofPath programs fs place with
  | .program run => .ok (run (call name arguments))
  | .plain => shell (place :: arguments)
  | .script interpreter argument =>
    match Launch.ofPath programs fs interpreter with
    | .program run => .ok (run (call interpreter (argument.toList ++ place :: arguments)))
    | .refused e => .error e
    | _ => .error .denied
  | .refused e => .error e

/-- The places at which a command may be, in order. -/
def placesOf (s : State) (path? : Option String) (name : String) : List String :=
  if name.any (· = '/') then [name]
  else Lookup.candidates (path?.getD (Lookup.pathOf s)) name

/-- Gives the process over to a program. If none can be run, the shell ends. -/
def execute {α : Type} (path? : Option String) (words : List String) : Act α := do
  let s ← get
  let fs ← Act.files
  match first fs s .notFound (placesOf s path? (words.headD "")) with
  | .ok p => do
    ask .become
    Routine.goOn p
  | .error e => do
    Act.warn (words.headD "" ++ s!": {Lookup.reason e}")
    let isMissing := e = .notFound ∨ e = .notDirectory ∨ e = .nameTooLong
    Act.setStatus (if isMissing then 127 else 126)
    throw .finish
where
  /-- The first program of some places. -/
  first (fs : FileSystem) (s : State) (e : FileError) : List String → Except FileError Process
    | [] => .error e
    | place :: rest =>
      match launch programs place words fs s with
      | .ok p => .ok p
      | .error found =>
        first fs s (if found = .notFound ∨ found = .notDirectory then e else found) rest

/-- The end of a function gives variables and settings back. -/
def restoreLocals (frame : List (String × Option Variable)) : Act Unit :=
  modify fun s =>
    frame.foldl (fun s (name, before) =>
      match before with
      | some v => s.put v
      | none => s.drop name) s

/-- The words of a simple command while they are expanded: those that are done, and those that are
not. -/
structure Arguments where
  done : List String
  rest : List Word

/-- Expands words until there is a field after those that there are. -/
def more (capture : Capture) : List String → List Word → Act Arguments
  | done, [] => return ⟨done, []⟩
  | done, w :: rest => do
    let found ← Expansion.fields capture w
    if found.isEmpty then more capture done rest else return ⟨done ++ found, rest⟩

/-- Looks behind the options of `command` at place `i`: the place of the command that it runs, and
the search path. -/
def behindCommand (capture : Capture) : (fuel : Nat) → (i : Nat) → Option String → Arguments →
    Act (Option (Nat × Option String) × Arguments)
  | 0, _, _, a => return (none, a)
  | fuel + 1, i, path?, a => do
    let a ← if a.done[i]?.isSome then pure a else more capture a.done a.rest
    match a.done[i]? with
    | none => return (none, a)
    | some word =>
      match word.toList with
      | ['-', '-'] => do
        let a ← if a.done[i + 1]?.isSome then pure a else more capture a.done a.rest
        return (if a.done[i + 1]?.isSome then some (i + 1, path?) else none, a)
      | '-' :: c :: cs =>
        if (c :: cs).all (· = 'p') then behindCommand capture fuel (i + 1) (some defaultPath) a
        else return (none, a)
      | _ => return (some (i, path?), a)

/-- What is known of a simple command before its redirections. -/
structure Plan where
  /-- All words, and how many of them come before the name. -/
  words : List String
  skipped : Nat := 0
  /-- Whether the name may be that of a function. -/
  functions : Bool := true
  path? : Option String := none
  /-- Whether it is a special built-in command. -/
  special : Bool := false

/-- Expands the words of a simple command that assign like an assignment. -/
def assigningFields (capture : Capture) : List Word → Act (List String)
  | [] => pure []
  | w :: rest => do
    let first ←
      match assignment? w with
      | some (name, value) => do pure [← Expansion.assignmentText capture name value]
      | none => Expansion.fields capture w
    return first ++ (← assigningFields capture rest)

/-- Finds the name of a simple command while its words are expanded. -/
def planFrom (capture : Capture) : (fuel : Nat) → Plan → Arguments → Act (Option Plan)
  | 0, _, _ => return none
  | fuel + 1, p, a => do
    match a.done[p.skipped]? with
    | none => return none
    | some name => do
      let s ← get
      let isFunction := p.functions && (s.function? name).isSome
      let builtin := !isFunction && Lookup.isBuiltin name
      let p := { p with special := if p.skipped = 0 then builtin && Lookup.isSpecial name else false }
      let finish (a : Arguments) : Act (Option Plan) := do
        let assigns := builtin && name ∈ Lookup.assigning
        let rest ←
          if assigns then assigningFields capture a.rest else Expansion.allFields capture a.rest
        return some { p with words := a.done ++ rest }
      if builtin ∧ name = "command" then
        let (found, a) ← behindCommand capture Routine.endless (p.skipped + 1) p.path? a
        match found with
        | some (i, path?) => planFrom capture fuel { p with skipped := i, path?, functions := false } a
        | none => finish a
      else finish a

def plan (capture : Capture) (words : List Word) : Act (Option Plan) := do
  planFrom capture Routine.endless { words := [] } (← more capture [] words)

mutual

/-- Runs a command. Its status is in the state. -/
def evaluate : (fuel : Nat) → Occasion → Command → Act Unit
  | 0, _, _ => Routine.goOn (.die 11)
  | fuel + 1, m, c => do
    if (← get).isOn 'n' then return ()
    takeSignals fuel
    let checked ←
      match c with
      | .negated body => do
        evaluate fuel .test body
        modify fun s => { s with status := if s.status = 0 then 1 else 0 }
        pure false
      | .redirected line body redirects => do
        setLine line
        let prepared ← Redirection.prepareAll (capture fuel) redirects
        let (kept, done) ← Redirection.apply [] prepared
        if done then ensuring (evaluate fuel m.inside body) (Redirection.restore kept)
        else
          Redirection.restore kept
          Act.setStatus 2
        pure false
      | .simple line assignments words redirects => do
        simple fuel m line assignments words redirects
        pure true
      | .subshell line body redirects => do
        subshell fuel m line body redirects
        pure true
      | .background line body redirects => do
        background fuel line body redirects
        pure true
      | .pipe stages beside => do
        pipeline fuel m stages beside
        pure true
      | .sequence first second => do
        evaluate fuel m.inside first
        evaluate fuel m second
        pure false
      | .both first second => do
        evaluate fuel .test first
        if (← get).status = 0 then evaluate fuel m second
        pure false
      | .either first second => do
        evaluate fuel .test first
        if (← get).status ≠ 0 then evaluate fuel m second
        pure false
      | .branch test yes no => do
        evaluate fuel .test test
        if (← get).status = 0 then evaluate fuel m yes
        else
          match no with
          | some no => evaluate fuel m no
          | none => Act.setStatus 0
        pure false
      | .loop wanted test body => do
        modify fun s => { s with loops := s.loops + 1 }
        loop fuel m.inside wanted test body 0
        modify fun s => { s with loops := s.loops - 1 }
        pure false
      | .each line name words body => do
        setLine line
        let values ← Expansion.allFields (capture fuel) words
        modify fun s => { s with loops := s.loops + 1 }
        Act.setStatus 0
        each fuel m.inside name body values
        modify fun s => { s with loops := s.loops - 1 }
        pure false
      | .choose line subject arms => do
        setLine line
        let text ← Expansion.text (capture fuel) { tilde := true } subject
        choose fuel m text.toList arms
        pure false
      | .define line name body => do
        modify fun s =>
          { s with
            functions := ⟨name, line, body⟩ :: s.functions.filter (·.name ≠ name)
            status := 0 }
        pure false
    takeSignals fuel
    let s ← get
    if checked ∧ s.isOn 'e' ∧ !m.tested ∧ s.status ≠ 0 then throw .finish

/-- Does what is to be done for signals that came. -/
def takeSignals : (fuel : Nat) → Act Unit
  | 0 => pure ()
  | fuel + 1 => do
    let s ← get
    if s.traps.any fun (signal, action) => signal ≠ 0 && action ≠ "" then lookForSignals
    let s ← get
    match s.arrived.mergeSort with
    | [] => pure ()
    | signal :: rest => do
      set { s with arrived := rest }
      match s.trap? signal with
      | none => takeSignals fuel
      | some action => do
        let before := s.saved.getD s.status
        modify fun now => { now with saved := some before }
        let r ← attempt (runText fuel {} action)
        let restored : Act Unit :=
          modify fun now => { now with status := before, saved := s.saved }
        match r with
        | .ok _ => do
          restored
          takeSignals fuel
        | .error (.back true) => do
          modify fun now => { now with saved := s.saved }
          throw (.back true)
        | .error (.back false) => do
          restored
          throw (.back false)
        | .error (.leave n) => do
          restored
          throw (.leave n)
        | .error (.next n) => do
          restored
          throw (.next n)
        | .error stop => throw stop

/-- Runs the commands of a text; yields whether there were any. -/
def runText : (fuel : Nat) → Occasion → String → Act Bool
  | 0, _, _ => Routine.goOn (.die 11)
  | fuel + 1, m, text => runReading fuel m false false { rest := text.toList }

/-- Runs the commands that a reading yields. `input` tells that what follows comes from the standard
input. -/
def runReading : (fuel : Nat) → Occasion → (input ran : Bool) → Reading → Act Bool
  | 0, _, _, _, _ => Routine.goOn (.die 11)
  | fuel + 1, m, input, ran, r => do
    Routine.tick
    let s ← get
    let before := { r with aliases := s.aliases, named := s.named, documents := [], atEnd := false }
    let result := (Parser.list Parse.endless 1).run before
    let atEnd : Bool :=
      match result with
      | .ok (_, after) => after.atEnd
      | .error fault => fault.atEnd
    let refilled ← if input ∧ atEnd then readAhead else pure []
    if !refilled.isEmpty then
      runReading fuel m input ran { r with rest := r.rest ++ refilled }
    else
      match result with
      | .error fault => do
        echoRead s r.rest []
        modify fun s => { s with faultLine := fault.line }
        Act.fail fault.text
      | .ok (c?, after) => do
        echoRead s r.rest after.rest
        modify fun s =>
          { s with documents := after.documents ++ s.documents, named := after.named }
        match c? with
        | none =>
          if after.last = .finish then return ran else runReading fuel m input ran after
        | some c => do
          let isLast := after.again && after.last = .finish
          evaluate fuel (if isLast then m else m.inside) c
          runReading fuel m input true after
where
  /-- The next piece of the standard input. -/
  readAhead : Act (List Char) := do
    match ← ask (.read 0 8192 none) with
    | .ok bytes => return (Octet.ofBytes bytes).toList
    | .error _ => return []
  /-- Shows what was read, if the shell says so. -/
  echoRead (s : State) (before after : List Char) : Act Unit := do
    if s.isOn 'v' then
      let _ ← Act.write 2 (String.ofList (before.take (before.length - after.length)))

/-- Goes round as long as a test ends as wanted. The status is that of the last round. -/
def loop : (fuel : Nat) → Occasion → (wanted : Bool) → Command → Command → (status : Nat) → Act Unit
  | 0, _, _, _, _, _ => Routine.goOn (.die 11)
  | fuel + 1, m, wanted, test, body, status => do
    Routine.tick
    match ← attempt (evaluate fuel .test test) with
    | .ok _ =>
      if ((← get).status = 0) ≠ wanted then Act.setStatus status
      else
        match ← attempt (evaluate fuel m body) with
        | .ok _ => do loop fuel m wanted test body (← get).status
        | .error (.leave n) => if 1 < n then throw (.leave (n - 1)) else pure ()
        | .error (.next n) =>
          if 1 < n then throw (.next (n - 1))
          else do loop fuel m wanted test body (← get).status
        | .error stop => throw stop
    | .error (.leave n) => if 1 < n then throw (.leave (n - 1)) else Act.setStatus status
    | .error (.next n) =>
      if 1 < n then throw (.next (n - 1)) else loop fuel m wanted test body status
    | .error stop => throw stop

/-- Runs a command for each value of a variable. -/
def each : (fuel : Nat) → Occasion → String → Command → List String → Act Unit
  | 0, _, _, _, _ => Routine.goOn (.die 11)
  | _ + 1, _, _, _, [] => pure ()
  | fuel + 1, m, name, body, value :: rest => do
    Routine.tick
    Act.assign name value
    match ← attempt (evaluate fuel m body) with
    | .ok _ => each fuel m name body rest
    | .error (.leave n) => if 1 < n then throw (.leave (n - 1)) else pure ()
    | .error (.next n) =>
      if 1 < n then throw (.next (n - 1)) else each fuel m name body rest
    | .error stop => throw stop

/-- Runs the first arm with a pattern that the subject matches. -/
def choose : (fuel : Nat) → Occasion → List Char → List (List Word × Option Command) → Act Unit
  | 0, _, _, _ => Routine.goOn (.die 11)
  | _ + 1, _, _, [] => Act.setStatus 0
  | fuel + 1, m, subject, (patterns, body) :: rest => do
    if ← matchesAny fuel subject patterns then
      match body with
      | some c => evaluate fuel m c
      | none => Act.setStatus 0
    else choose fuel m subject rest

def matchesAny : (fuel : Nat) → List Char → List Word → Act Bool
  | 0, _, _ => return false
  | _ + 1, _, [] => return false
  | fuel + 1, subject, w :: rest => do
    let e ← Expansion.expand (capture fuel) Expansion.endless { tilde := true } w
    if Pattern.isMatch (Glyph.pattern e.glyphs) subject then return true
    else matchesAny fuel subject rest

/-- A shell that runs a part of the script. -/
def child : (fuel : Nat) → State → Act Unit → Process
  | 0, _, _ => .die 11
  | fuel + 1, s, body =>
    let whole : Act Unit := do
      becomeChild
      body
    whole s fun r s => endShell fuel r s fun _ s => .exit s.status

/-- What the shell does before it ends; its status is in the state afterwards. -/
def endShell : (fuel : Nat) → Except Stop Unit → Act Unit
  | 0, _ => pure ()
  | fuel + 1, r => do
    let s ← get
    let status :=
      match r with
      | .error .exit => s.saved.getD s.status
      | _ => s.status
    set { s with
      status, saved := some status, loops := 0, tracing := false, locals := []
      traps := s.traps.filter (·.1 ≠ 0) }
    match s.trap? 0 with
    | none => pure ()
    | some action => do
      match ← attempt (runText fuel {} action) with
      | .error .fault => pure ()
      | .error .finish => pure ()
      | _ => modify fun now => { now with status := now.saved.getD status }

/-- Runs a command and yields what it prints. -/
def capture : (fuel : Nat) → Capture
  | 0, _ => Routine.goOn (.die 11)
  | fuel + 1, c =>
    match c with
    | none => return ""
    | some c => do
      let (reading, writing) ← ask .makePipe
      let number ← Routine.fork fun s => child fuel s do
        let _ ← ask (.close reading)
        if writing ≠ 1 then
          let _ ← ask (.duplicate writing 1)
          let _ ← ask (.close writing)
        evaluate fuel { final := true } c
      let _ ← ask (.close writing)
      let bytes ← readAll reading Routine.endless .empty
      let _ ← ask (.close reading)
      let status ← awaitProcesses [number]
      modify fun s => { s with inner := status }
      return capturedText bytes

def subshell : (fuel : Nat) → Occasion → (line : Nat) → Command → List Redirect → Act Unit
  | 0, _, _, _, _ => Routine.goOn (.die 11)
  | fuel + 1, m, line, body, redirects => do
    setLine line
    let prepared ← Redirection.prepareAll (capture fuel) redirects
    let inside : Act Unit := do
      let (_, done) ← Redirection.apply [] prepared
      if done then evaluate fuel { m with final := true } body
      else
        Act.setStatus 2
        throw .fault
    if m.final ∧ !(← get).hasTraps then
      becomeChild
      inside
      throw .finish
    else
      let number ← Routine.fork fun s => child fuel s inside
      Act.setStatus (← awaitProcesses [number])

/-- Starts a command that runs beside the shell. -/
def background : (fuel : Nat) → (line : Nat) → Command → List Redirect → Act Unit
  | 0, _, _, _ => Routine.goOn (.die 11)
  | fuel + 1, line, body, redirects => do
    setLine line
    let prepared ← Redirection.prepareAll (capture fuel) redirects
    let number ← Routine.fork fun s => child fuel s do
      detach true
      let (_, done) ← Redirection.apply [] prepared
      if done then evaluate fuel { final := true } body
      else
        Act.setStatus 2
        throw .fault
    modify fun s => { s.addJob [number] with status := 0 }

/-- A process beside the shell does not listen to the keyboard. -/
def detach (first : Bool) : Act Unit := do
  let _ ← ask (.react 2 .ignore)
  let _ ← ask (.react 3 .ignore)
  if first then
    let _ ← ask (.close 0)
    let _ ← ask (.openFile ⟨"/dev/null"⟩ .read)

/-- Commands of which each reads what the one before it prints. -/
def pipeline : (fuel : Nat) → Occasion → List Command → (beside : Bool) → Act Unit
  | 0, _, _, _ => Routine.goOn (.die 11)
  | fuel + 1, m, stages, beside => do
    let numbers ← startStages fuel { m with final := true } beside true none stages
    if beside then modify fun s => { s.addJob numbers with status := 0 }
    else Act.setStatus (← awaitProcesses numbers)

/-- Starts the stages of a pipeline; `before` is what the first of them reads. -/
def startStages : (fuel : Nat) → Occasion → (beside first : Bool) → Option Nat → List Command →
    Act (List Nat)
  | 0, _, _, _, _, _ => return []
  | _ + 1, _, _, _, _, [] => return []
  | fuel + 1, m, beside, first, before, c :: rest => do
    let pipe? ← if rest.isEmpty then pure none else some <$> (ask .makePipe : Act (Nat × Nat))
    let number ← Routine.fork fun s => child fuel s do
      if beside then detach first
      match pipe? with
      | some (reading, _) => do
        let _ ← ask (.close reading)
      | none => pure ()
      match before with
      | some n =>
        if n ≠ 0 then
          let _ ← ask (.duplicate n 0)
          let _ ← ask (.close n)
      | none => pure ()
      match pipe? with
      | some (_, writing) =>
        if writing ≠ 1 then
          let _ ← ask (.duplicate writing 1)
          let _ ← ask (.close writing)
      | none => pure ()
      evaluate fuel m c
    match before with
    | some n => do
      let _ ← ask (.close n)
    | none => pure ()
    match pipe? with
    | some (_, writing) => do
      let _ ← ask (.close writing)
    | none => pure ()
    let numbers ← startStages fuel m beside false (pipe?.map (·.1)) rest
    return number :: numbers

/-- Assignments before a command hold for it alone, or stay if it is special or there is none. -/
def assignAll : (fuel : Nat) → (here : Bool) → (exported : Bool) → List Word → Act (List String)
  | 0, _, _, _ => return []
  | _ + 1, _, _, [] => return []
  | fuel + 1, here, exported, w :: rest => do
    match assignment? w with
    | none => assignAll fuel here exported rest
    | some (name, value) => do
      let text ← Expansion.text (capture fuel) { tilde := true, colons := true } value
      if here then Builtin.localize name (some text) true
      else Act.assign name text exported
      return s!"{name}={text}" :: (← assignAll fuel here exported rest)

/-- Shows a command before it is run. -/
def trace : (fuel : Nat) → (descriptor : Nat) → List String → Act Unit
  | 0, _, _ => pure ()
  | fuel + 1, descriptor, words => do
    let s ← get
    if s.isOn 'x' ∧ !s.tracing then
      let sign := (s.value? "PS4").getD ""
      let shown ←
        if sign.any fun c => c = '$' || c = '`' || c = '\\' then do
          set { s with tracing := true }
          let shown ←
            match Parser.ofQuoted sign with
            | some w => Expansion.text (capture fuel) { quoted := true } w
            | none => pure sign
          modify fun now => { now with tracing := false }
          pure shown
        else pure sign
      let _ ← Act.write descriptor (shown ++ " ".intercalate words ++ "\n")

def simple : (fuel : Nat) → Occasion → (line : Nat) → List Word → List Word → List Redirect → Act Unit
  | 0, _, _, _, _, _ => Routine.goOn (.die 11)
  | fuel + 1, m, line, assignments, words, redirects => do
    setLine line
    modify fun s => { s with inner := 0 }
    let plan? ← plan (capture fuel) words
    let special := plan?.all (·.special)
    let prepared ← Redirection.prepareAll (capture fuel) redirects
    let (kept, done) ← Redirection.apply [] prepared
    if !done then
      Redirection.restore kept
      Act.setStatus 2
      if plan?.any (·.special) then throw .fault
    else
      modify fun s =>
        if special then s
        else
          { s with locals := [] :: s.locals, settingsBefore := s.settings :: s.settingsBefore }
      let stays := plan?.any fun p => p.words[p.skipped]? = some "exec"
      let exports := stays && plan?.any fun p => p.skipped + 1 < p.words.length
      let body : Act Unit := do
        let given ← assignAll fuel (!special) exports assignments
        trace fuel (traceDescriptor kept) (given ++ (plan?.map (·.words)).getD [])
        match plan? with
        | none => modify fun s => { s with status := s.inner }
        | some p => call fuel m p
      ensuring body do
        if stays then Redirection.settle kept else Redirection.restore kept
        if !special then
          let s ← get
          match s.locals, s.settingsBefore with
          | frame :: outer, settings :: settingsOuter => do
            set { s with locals := outer, settingsBefore := settingsOuter }
            restoreLocals frame
            if frame.any (·.1 = "-") then modify fun s => { s with settings }
          | _, _ => pure ()

/-- Runs what the name of a simple command stands for. -/
def call : (fuel : Nat) → Occasion → Plan → Act Unit
  | 0, _, _ => Routine.goOn (.die 11)
  | fuel + 1, m, p => do
    let words := p.words.drop p.skipped
    let name := words.headD ""
    match ← Lookup.find programs p.functions p.path? name with
    | .missing e => do
      Act.warn s!"{name}: {Lookup.reason e}"
      Act.setStatus 127
    | .program _ => do
      if m.final ∧ !(← get).hasTraps then execute programs p.path? words
      else
        let number ← Routine.fork fun s => child fuel s (execute programs p.path? words)
        Act.setStatus (← awaitProcesses [number])
    | .function f => callFunction fuel m f (words.drop 1)
    | .builtin name => do
      let before := (← get).command
      modify fun s => { s with command := some name }
      let r ← attempt (builtin fuel m name (words.drop 1))
      modify fun s => { s with command := before }
      match r with
      | .ok status => Act.setStatus status
      | .error .fault => if p.special then throw .fault
      | .error stop => throw stop

def callFunction : (fuel : Nat) → Occasion → Function → List String → Act Unit
  | 0, _, _, _ => Routine.goOn (.die 11)
  | fuel + 1, m, f, arguments => do
    let before ← get
    set { before with
      parameters := arguments, place := {}, functionLine := f.line, loops := 0 }
    let r ← attempt (evaluate fuel m.inside f.body)
    modify fun s =>
      { s with
        parameters := before.parameters, place := before.place
        functionLine := before.functionLine, loops := before.loops }
    match r with
    | .error (.back _) => pure ()
    | r => ofResult r

/-- Runs a built-in command; yields its status. -/
def builtin : (fuel : Nat) → Occasion → String → List String → Act Nat
  | 0, _, _, _ => Routine.goOn (.die 11)
  | fuel + 1, m, name, words => do
    match name with
    | ":" => return 0
    | "true" => return 0
    | "false" => return 1
    | "." => do
      match ← noOptions words with
      | [] => return 0
      | file :: _ => runFile fuel file
    | "eval" => do
      let text := " ".intercalate words
      if ← runText fuel m.inside text then return (← get).status else return 0
    | "exec" => do
      match ← noOptions words with
      | [] => return 0
      | words => execute programs none words
    | "exit" => do
      match words with
      | [] => throw .exit
      | word :: _ => do
        let n ← Act.number word
        modify fun s => { s with saved := some n }
        throw .exit
    | "return" => do
      match words with
      | [] => throw (.back false)
      | word :: _ => do
        Act.setStatus (← Act.number word)
        throw (.back true)
    | "break" => leaveLoops words Stop.leave
    | "continue" => leaveLoops words Stop.next
    | "[" =>
      if words.getLast? = some "]" then condition words.dropLast
      else Act.fail Condition.Fault.missingBracket.message
    | "test" => condition words
    | "alias" => Builtin.runAlias words
    | "bg" => Builtin.runMove words
    | "cd" => Builtin.runCd programs words
    | "chdir" => Builtin.runCd programs words
    | "command" => Builtin.runCommand programs words
    | "echo" => Builtin.runEcho words
    | "export" => Builtin.runExport words
    | "fg" => Builtin.runMove words
    | "getopts" => Builtin.runGetopts words
    | "hash" => Builtin.runHash programs words
    | "jobs" => Builtin.runJobs words
    | "kill" => Builtin.runKill words
    | "local" => Builtin.runLocal words
    | "printf" => Builtin.runPrintf words
    | "pwd" => Builtin.runPwd words
    | "read" => Builtin.runRead words
    | "readonly" => Builtin.runReadonly words
    | "set" => Builtin.runSet words
    | "shift" => Builtin.runShift words
    | "times" => Builtin.runTimes
    | "trap" => Builtin.runTrap words
    | "type" => Builtin.runType programs words
    | "ulimit" => Builtin.runUlimit words
    | "umask" => Builtin.runUmask words
    | "unalias" => Builtin.runUnalias words
    | "unset" => Builtin.runUnset words
    | "wait" => Builtin.runWait words
    | _ => return 127

/-- Leaves loops, but not more than there are. -/
def leaveLoops (words : List String) (stop : Nat → Stop) : Act Nat := do
  let n ← match words with
    | word :: _ => Act.number word
    | [] => pure 1
  if n = 0 then Act.fail ("Illegal number: " ++ words.headD "")
  let n := min n (← get).loops
  if n = 0 then return 0
  Act.setStatus 0
  throw (stop n)

def condition (words : List String) : Act Nat := do
  let fs ← Act.files
  match Condition.value ⟨programs, fs⟩ words with
  | .ok found => return if found then 0 else 1
  | .error fault => Act.fail fault.message

/-- Runs the commands of a file. -/
def runFile : (fuel : Nat) → String → Act Nat
  | 0, _ => Routine.goOn (.die 11)
  | fuel + 1, file => do
    let fs ← Act.files
    let s ← get
    let place? :=
      if file.any (· = '/') then some file
      else
        (Lookup.candidates (Lookup.pathOf s) file).find? fun place =>
          Kind.ofPath programs fs place matches .file _ _
    match place? with
    | none => Act.fail s!"{file}: not found"
    | some place => do
      match ← ask (.openFile ⟨Octet.toText place⟩ .read) with
      | .error e => Act.fail (Redirection.refusal .read place e)
      | .ok n => do
        let text := Octet.ofBytes (← readAll n Routine.endless .empty)
        let _ ← ask (.close n)
        modify fun s => { s with command := some place }
        match ← attempt (runReading fuel {} false false { rest := text.toList }) with
        | .ok ran => do
          let s ← get
          return if ran then s.status else 0
        | .error (.back _) => do return (← get).status
        | .error stop => throw stop

end

end Run

end TensorParity.Shell
