import TensorParity.Machine.Signal
import TensorParity.Shell.Builtin.Options

/-!
Built-in commands for the settings, the parameters and the variables of the shell.
-/
namespace TensorParity.Shell

open Machine
open Machine.Routine (ask)

namespace Builtin

/-- The settings by their names, in the order in which they are told. -/
def settingNames : List (String × Char) :=
  [("errexit", 'e'), ("noglob", 'f'), ("ignoreeof", 'I'), ("interactive", 'i'), ("monitor", 'm'),
    ("noexec", 'n'), ("stdin", 's'), ("xtrace", 'x'), ("verbose", 'v'), ("vi", 'V'),
    ("emacs", 'E'), ("noclobber", 'C'), ("allexport", 'a'), ("notify", 'b'), ("nounset", 'u'),
    ("privileged", 'p'), ("nolog", '1'), ("debug", '2')]

def isSetting (letter : Char) : Bool :=
  !letter.isDigit && settingNames.any (·.2 = letter)

def changeSetting (letter : Char) (on : Bool) : Act Unit := do
  if !isSetting letter then Act.fail s!"Illegal option -{letter}"
  modify fun s => s.setting letter on

/-- Changes a setting by its name. -/
def changeNamed (name : String) (on : Bool) : Act Unit := do
  match settingNames.lookup name with
  | some letter => modify fun s => s.setting letter on
  | none => Act.fail s!"Illegal option -o {name}"

/-- The settings and whether they are on. -/
def settingsText (s : State) : String :=
  "Current option settings\n" ++
    String.join (settingNames.map fun (name, letter) =>
      let padded := name ++ String.ofList (List.replicate (16 - name.length) ' ')
      padded ++ (if s.isOn letter then "on\n" else "off\n"))

/-- The settings as commands. -/
def settingsCommands (s : State) : String :=
  String.join (settingNames.map fun (name, letter) =>
    "set " ++ (if s.isOn letter then "-" else "+") ++ s!"o {name}\n")

/-- A variable as a line that a shell can read. -/
def variableLine (before : String) (v : Variable) : String :=
  let start := if before = "" then "" else before ++ " "
  match v.value with
  | some value => s!"{start}{v.name}={inQuotes value}\n"
  | none => s!"{start}{v.name}\n"

/-- Variables as lines, by their names. -/
def variableLines (before : String) (vs : List Variable) : String :=
  String.join ((vs.mergeSort fun a b => a.name ≤ b.name).map (variableLine before))

/-- Reads the settings that words begin with. -/
def settingWords : (fuel : Nat) → List String → Act (List String × Bool)
  | 0, words => return (words, false)
  | fuel + 1, words =>
    match words with
    | [] => return ([], false)
    | word :: rest =>
      match word.toList with
      | ['-'] => do
        modify fun s => (s.setting 'x' false).setting 'v' false
        return (rest, !rest.isEmpty)
      | ['-', '-'] => return (rest, true)
      | '-' :: letters => do
        let rest ← each true letters rest
        settingWords fuel rest
      | '+' :: letters => do
        let rest ← each false letters rest
        settingWords fuel rest
      | _ => return (words, true)
where
  /-- The letters of one word. -/
  each (on : Bool) : List Char → List String → Act (List String)
    | [], rest => return rest
    | 'o' :: letters, name :: rest => do
      changeNamed name on
      each on letters rest
    | 'o' :: letters, [] => do
      let s ← get
      let _ ← Act.print (if on then settingsText s else settingsCommands s)
      each on letters []
    | letter :: letters, rest => do
      changeSetting letter on
      each on letters rest

def runSet (words : List String) : Act Nat := do
  if words.isEmpty then
    Act.print (variableLines "" ((← get).table.filter (·.value.isSome)))
  else
    let (rest, replaces) ← settingWords (words.length + 1) words
    if replaces then modify fun s => { s with parameters := rest, place := {} }
    return 0

def runShift (words : List String) : Act Nat := do
  let n ← match words with
    | word :: _ => Act.number word
    | [] => pure 1
  let s ← get
  if s.parameters.length < n then Act.fail "can\x27t shift that many"
  MonadStateOf.set { s with parameters := s.parameters.drop n, place := {} }
  return 0

/-- A word that gives a value to a name, or only names it. -/
def splitAssignment (word : String) : String × Option String :=
  let cs := word.toList
  let name := cs.takeWhile (· ≠ '=')
  if name.length = cs.length then (word, none)
  else (String.ofList name, some (String.ofList (cs.drop (name.length + 1))))

/-- Marks variables, which may get values too. -/
def mark (change : Variable → Variable) : List String → Act Unit
  | [] => pure ()
  | word :: rest => do
    let (name, value) := splitAssignment word
    match value with
    | some value => do
      Act.assign name value
      modify fun s =>
        match s.entry? name with
        | some v => s.put (change v)
        | none => s
    | none => do
      let s ← get
      match s.entry? name with
      | some v => MonadStateOf.set (s.put (change v))
      | none =>
        if !isName name then Act.fail s!"{name}: bad variable name"
        MonadStateOf.set (s.put (change { name, value := none }))
    mark change rest

def runExport (words : List String) : Act Nat := do
  let (found, rest) ← options "p" words
  if found.isEmpty ∧ !rest.isEmpty then
    mark (fun v => { v with exported := true }) rest
    return 0
  else Act.print (variableLines "export" ((← get).table.filter (·.exported)))

def runReadonly (words : List String) : Act Nat := do
  let (found, rest) ← options "p" words
  if found.isEmpty ∧ !rest.isEmpty then
    mark (fun v => { v with fixed := true }) rest
    return 0
  else Act.print (variableLines "readonly" ((← get).table.filter (·.fixed)))

/-- Makes a variable local to the innermost function. -/
def localize (name : String) (value : Option String) (exported : Bool) : Act Unit := do
  let s ← get
  match s.locals with
  | [] => pure ()
  | frame :: outer => do
    if name = "-" then
      match s.settingsBefore with
      | _ :: rest =>
        MonadStateOf.set { s with settingsBefore := s.settings :: rest }
      | [] => pure ()
    else
      if !isName name then Act.fail s!"{name}: bad variable name"
      let before := s.entry? name
      MonadStateOf.set { s with locals := ((name, before) :: frame) :: outer }
      match value, before with
      | some value, _ => Act.assign name value exported
      | none, some _ => pure ()
      | none, none => modify fun s => s.put { name, value := none, exported }

def runLocal (words : List String) : Act Nat := do
  if (← get).locals.isEmpty then Act.fail "not in a function"
  let rec each : List String → Act Unit
    | [] => pure ()
    | word :: rest => do
      let (name, value) := splitAssignment word
      localize name value false
      each rest
  each words
  return 0

def runUnset (words : List String) : Act Nat := do
  let (found, rest) ← options "vf" words
  let functions := (found.getLast?.map (·.1)) = some 'f'
  let rec each : List String → Act Unit
    | [] => pure ()
    | name :: rest => do
      if functions then
        modify fun s => { s with functions := s.functions.filter (·.name ≠ name) }
      else
        if !isName name then Act.fail s!"{name}: bad variable name"
        Act.unset name
      each rest
  each rest
  return 0

/-- The place of a name in a table of so many rows. -/
def hashOf (rows : Nat) (name : String) : Nat :=
  let cs := name.toList
  (cs.foldl (fun n c => n + c.toNat) ((cs.head?.map Char.toNat).getD 0 * 16)) % rows

def aliasLine (name value : String) : String := s!"{name}={inQuotes value}\n"

/-- Tells or sets aliases, one after the other. -/
def aliasWords (status : Nat) : List String → Act Nat
  | [] => return status
  | word :: rest => do
    match splitAssignment word with
    | (name, some value) => do
      modify fun s =>
        { s with
          aliases :=
            if s.aliases.any (·.1 = name) then
              s.aliases.map fun (n, v) => (n, if n = name then value else v)
            else s.aliases ++ [(name, value)] }
      aliasWords status rest
    | (name, none) =>
      match (← get).aliases.lookup name with
      | some value => do
        let _ ← Act.print (aliasLine name value)
        aliasWords status rest
      | none => do
        let _ ← Act.write 2 s!"alias: {name} not found\n"
        aliasWords 1 rest

def runAlias (words : List String) : Act Nat := do
  if words.isEmpty then
    let sorted := (← get).aliases.mergeSort fun a b => hashOf 39 a.1 ≤ hashOf 39 b.1
    Act.print (String.join (sorted.map fun (name, value) => aliasLine name value))
  else aliasWords 0 words

def runUnalias (words : List String) : Act Nat := do
  let (found, rest) ← options "a" words
  if !found.isEmpty then
    modify fun s => { s with aliases := [] }
    return 0
  else
    let rec each (status : Nat) : List String → Act Nat
      | [] => return status
      | name :: rest => do
        let s ← get
        if s.aliases.any (·.1 = name) then
          MonadStateOf.set { s with aliases := s.aliases.filter (·.1 ≠ name) }
          each status rest
        else
          let _ ← Act.write 2 s!"unalias: {name} not found\n"
          each 1 rest
    each 0 rest

/-- Tells the machine how the shell takes a signal. -/
def react (signal : Nat) : Act Unit := do
  let s ← get
  if signal = 0 ∨ signal ∈ s.deaf then pure ()
  else
    let reaction : Reaction :=
      match s.trap? signal with
      | none => .usual
      | some "" => .ignore
      | some _ => .note
    let before : Reaction ← ask (.react signal reaction)
    if before = .ignore ∧ !s.wasHeard signal then
      let _ ← ask (.react signal .ignore)
      modify fun s => { s with deaf := signal :: s.deaf }
    else modify fun s => { s with heard := signal :: s.heard }

def runTrap (words : List String) : Act Nat := do
  let words ← noOptions words
  let s ← get
  match words with
  | [] =>
    Act.print (String.join ((List.range Signal.count).filterMap fun signal =>
      (s.trap? signal).map fun action => s!"trap -- {inQuotes action} {Signal.name signal}\n"))
  | first :: rest =>
    let resets := rest.isEmpty || (first ≠ "" && first.toList.all Char.isDigit
      && (Signal.ofText? 0 first).isSome)
    let action := if resets ∨ first = "-" then none else some first
    let rec each : List String → Act Nat
      | [] => return 0
      | name :: rest => do
        match Signal.ofText? 0 name with
        | none => do
          let _ ← Act.write 2 s!"trap: {name}: bad trap\n"
          return 1
        | some signal => do
          modify fun s =>
            let others := s.traps.filter (·.1 ≠ signal)
            { s with
              traps := match action with
                | some action => (signal, action) :: others
                | none => others }
          react signal
          each rest
    each (if resets then words else rest)

/-- The next option among words, for a script: its letter and its argument. -/
inductive NextOption where
  | finish
  | found (letter : Char) (argument : Option String)
  | unknown (letter : Char)
  | noArgument (letter : Char)

/-- Reads one option. -/
def nextOption (spec : List Char) (words : List String) (place : OptionPlace) :
    NextOption × OptionPlace :=
  let i := place.index
  let start : Option (List Char × Nat) :=
    match place.rest with
    | some text => if text = "" ∨ i ≤ 1 then none else some (text.toList, i)
    | none => none
  let start : Except Nat (List Char × Nat) :=
    match start with
    | some s => .ok s
    | none =>
      match words[i - 1]? with
      | some word =>
        match word.toList with
        | ['-', '-'] => .error (i + 1)
        | '-' :: c :: cs => .ok (c :: cs, i + 1)
        | _ => .error i
      | none => .error i
  match start with
  | .error i => (.finish, { index := i, rest := none })
  | .ok ([], i) => (.finish, { index := i, rest := none })
  | .ok (c :: cs, i) =>
    let here : OptionPlace := { index := i, rest := some (String.ofList cs) }
    match Options.find? (if spec.head? = some ':' then spec.drop 1 else spec) c with
    | none => (.unknown c, here)
    | some false => (.found c none, here)
    | some true =>
      if !cs.isEmpty then (.found c (some (String.ofList cs)), { index := i, rest := none })
      else
        match words[i - 1]? with
        | some word => (.found c (some word), { index := i + 1, rest := none })
        | none => (.noArgument c, { index := i, rest := none })

def runGetopts (words : List String) : Act Nat := do
  let words ← noOptions words
  match words with
  | spec :: name :: rest => do
    let s ← get
    let subject := if rest.isEmpty then s.parameters else rest
    let place : OptionPlace :=
      if subject.length + 1 < s.place.index then {} else s.place
    let quiet := spec.startsWith ":"
    let (next, place) := nextOption spec.toList subject place
    let letter ←
      match next with
      | .finish => pure '?'
      | .found letter argument => do
        Act.assign "OPTARG" (argument.getD "")
        pure letter
      | .unknown letter => do
        if quiet then Act.assign "OPTARG" (String.singleton letter)
        else
          let _ ← Act.write 2 s!"Illegal option -{letter}\n"
          Act.unset "OPTARG"
        pure '?'
      | .noArgument letter =>
        if quiet then do
          Act.assign "OPTARG" (String.singleton letter)
          pure ':'
        else do
          let _ ← Act.write 2 s!"No arg for -{letter} option\n"
          Act.unset "OPTARG"
          pure '?'
    Act.assign "OPTIND" (toString place.index)
    Act.assign name (String.singleton letter)
    modify fun s => { s with place }
    return match next with
      | .finish => 1
      | _ => 0
  | _ => Act.fail "Usage: getopts optstring var [arg...]"

end Builtin

end TensorParity.Shell
