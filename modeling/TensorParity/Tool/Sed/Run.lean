import TensorParity.Text.Regex.Search
import TensorParity.Tool.Sed.Editor
import TensorParity.Tool.Sed.Reading

/-!
Running programs of the stream editor, and `sed`, which reads one from its command line or from
files.
-/
namespace TensorParity.Tool.Sed

open Machine
open Machine.Routine (ask attempt)
open Text (Regex)

/-- What follows a command. -/
inductive Next where
  | on
  | go (command : Nat)
  /-- The program is done with the line, which is printed. -/
  | finished
  | deleted
  /-- The program begins anew without another line. -/
  | again
  | quit (status : Nat)

namespace Work

/-! ### Which lines are meant -/

/-- The expression that is meant, which is from now on the one that was used last. -/
def used (e : Option Expression) : Work Expression := do
  let s ← get
  match e.or s.lastUsed with
  | some e => do
    set { s with lastUsed := some e }
    return e
  | none => do
    let text := s!"{s.script.place.text}: {Fault.noExpression.message}"
    fail 1 text

/-- Looks for a match in the line. -/
def find (e : Expression) (start : Nat) : Work (Option Regex.Notes) := do
  let s ← get
  return Regex.search e.program e.folds
    { bytes := s.space.text, byLines := e.byLines, mark := s.settings.mark } start

/-- Whether a line is one of those that come after some steps from a first one. -/
def isStep (first step number : Nat) : Bool := first ≤ number && (number - first) % step = 0

def isAt (a : Address) : Work Bool := do
  let number := (← get).number
  match a with
  | .line n => return number = n
  | .step first step => return isStep first step number
  | .last => isLast
  | .matching e => return (← find (← used e) 0).isSome

def setPhase (index : Nat) (phase : Phase) : Work Unit :=
  modify fun s => { s with phases := s.phases.setIfInBounds index phase }

/-- The line at which a range ends that begins now, if that is known. -/
def lastLine? (number : Nat) : Limit → Work (Option Nat)
  | .at (.line n) => return some n
  | .at (.step first step) => return if isStep first step number then some number else none
  | .at .last => do return if ← isLast then some number else none
  | .at (.matching _) => return none
  | .after n => return some (number + n)
  | .multiple n => return some (if n = 0 then number else (number / n + 1) * n)

/-- Whether the line is in a range that was begun before. -/
def isInside (index : Nat) (limit : Limit) (last : Option Nat) : Work Bool := do
  let number := (← get).number
  match last, limit with
  | some last, limit => do
    if last ≤ number then setPhase index .closed
    return number ≤ last || !(limit matches .at _)
  | none, .at a => do
    if ← isAt a then setPhase index .closed
    return true
  | none, _ => return true

/-- Whether a range begins at the line. -/
def begins (index : Nat) (a : Address) (limit : Limit) (phase : Phase) : Work Bool := do
  let number := (← get).number
  match a with
  | .line n =>
    if phase = .closed ∨ number < n then return false
    let last ← lastLine? number limit
    if last.any (· ≤ number) then
      setPhase index .closed
      return number = n || last = some number
    setPhase index (.active last)
    return true
  | a => do
    if !(← isAt a) then return false
    let last ← lastLine? number limit
    if last.all (number < ·) then setPhase index (.active last)
    return true

/-- Whether a command is for the line. -/
def isMeant (c : Command) : Work Bool := do
  let meant ←
    match c.scope with
    | .all => pure true
    | .one a => isAt a
    | .range index a limit => do
      let phase := (← get).phases[index]?.getD .idle
      match phase with
      | .active last => isInside index limit last
      | phase => begins index a limit phase
  return meant != c.negated

/-! ### Commands run by a shell -/

/-- What a command prints that a shell runs. -/
def outputOf (command : ByteArray) : Act ByteArray := do
  let s ← get
  let (source, target) ← ask .makePipe
  let shell : Call :=
    { name := "sh", arguments := ["-c", Octet.ofBytes command]
      environment := s.call.environment }
  let program := ((s.programs "sh").map fun run => run shell).getD (.exit 127)
  let child ← Routine.fork fun _ =>
    .ask (.duplicate target 1) fun _ => .ask (.close source) fun _ => .ask (.close target) fun _ =>
      .ask .become fun _ => program
  Act.close target
  let out ← rest source Routine.endless .empty
  Act.close source
  waitFor child Routine.endless
  return out
where
  rest (descriptor : Nat) : (fuel : Nat) → ByteArray → Act ByteArray
    | 0, done => return done
    | fuel + 1, done => do
      Act.tick
      match ← Act.read descriptor 4096 with
      | .ok block => if block.isEmpty then return done else rest descriptor fuel (done ++ block)
      | .error _ => return done
  waitFor (child : Nat) : (fuel : Nat) → Act Unit
    | 0 => return ()
    | fuel + 1 => do
      match ← ask (.await true) with
      | .ended n _ => if n = child then return () else waitFor child fuel
      | .nobody => return ()
      | _ => waitFor child fuel

/-- Text without the line end at its end. -/
def chomped (mark : UInt8) (bytes : ByteArray) : ByteArray :=
  if bytes.data.back? = some mark then bytes.extract 0 (bytes.size - 1) else bytes

/-! ### Substitution -/

/-- Replaces matches from a place on. `count` matches were found so far, and the last of them ended
at `last` if it was not empty. Every round goes on by a byte at least. Yields the new text and
whether anything was replaced. -/
def replaceFrom (s : Substitution) (e : Expression) (text : ByteArray) :
    (fuel start count : Nat) → (last : Option Nat) → (out : ByteArray) → (found : Bool) →
    Work (ByteArray × Bool)
  | 0, start, _, _, out, found => return (out ++ text.extract start text.size, found)
  | fuel + 1, start, count, last, out, found => do
    match (← find e start).bind fun notes => (notes.group? 0).map (notes, ·) with
    | none => return (out ++ text.extract start text.size, found)
    | some (notes, span) =>
      let out := out ++ text.extract start span.start
      let after (out : ByteArray) : ByteArray := out ++ text.extract span.stop (span.stop + 1)
      if span.start = span.stop ∧ last = some span.start then
        replaceFrom s e text fuel (span.stop + 1) count none (after out) found
      else
        let group (i : Nat) : ByteArray :=
          ((notes.group? i).map fun g => text.extract g.start g.stop).getD .empty
        let replaces : Bool := s.number ≤ count + 1
        let out := if replaces then Part.write group s.parts none out else out ++ group 0
        if replaces ∧ !s.all then return (out ++ text.extract span.stop text.size, true)
        else if span.start = span.stop then
          replaceFrom s e text fuel (span.stop + 1) (count + 1) none (after out) (found || replaces)
        else
          replaceFrom s e text fuel span.stop (count + 1) (some span.stop) out (found || replaces)

def substitute (s : Substitution) : Work Unit := do
  let e ← used s.pattern
  let space := (← get).space
  let (text, found) ← replaceFrom s e space.text (space.text.size + 2) 0 0 none .empty false
  if found then
    modify fun w => { w with space := { space with text }, replaced := true }
    if s.shown = .beforeRunning then putSpace 0 (← get).space
    if s.runs then
      let out ← outputOf text
      let mark := (← get).settings.mark
      modify fun w => { w with space := { space with text := chomped mark out } }
    if s.shown = .finally then putSpace 0 (← get).space
    if let some index := s.output then putSpace (index + 1) (← get).space

/-! ### The commands -/

/-- A byte as it is listed. -/
def listed (b : UInt8) : String :=
  match Char.ofNat b.toNat with
  | '\\' => "\\\\"
  | '\x07' => "\\a"
  | '\x08' => "\\b"
  | '\x0c' => "\\f"
  | '\n' => "\\n"
  | '\x0d' => "\\r"
  | '\t' => "\\t"
  | '\x0b' => "\\v"
  | c => if Text.isPrint c then String.singleton c else String.ofList (octal c.toNat)
where
  octal (n : Nat) : List Char :=
    '\\' :: [n / 64, n / 8 % 8, n % 8].map fun d => Char.ofNat (48 + d)

/-- A line as it is listed, in parts that have some width; none are too wide if it is zero. -/
def listing (mark : UInt8) (width : Nat) (bytes : ByteArray) : ByteArray :=
  let (text, _) := bytes.foldl (fun ((text : ByteArray), column) b =>
    let shown := (listed b).toUTF8
    if 0 < width && width - 1 < column + shown.size then
      ((text.push 92).push mark ++ shown, shown.size)
    else (text ++ shown, column + shown.size)) (ByteArray.empty, 0)
  (text.push 36).push mark

def add (a : Addition) : Work Unit :=
  modify fun s => { s with additions := s.additions ++ [a] }

/-- A line of a stream of lines, which is written when the next line is read. -/
def addLine (index : Nat) : Work Unit := do
  let s ← get
  if let some stream := s.readers[index]? then
    let (stream, found) ← hasMore stream
    if found then
      let (stream, line) ← takeLine s.settings.mark Routine.endless stream
      add (.text (if line.ended then line.text.push s.settings.mark else line.text))
      modify fun s => { s with readers := s.readers.setIfInBounds index stream }

/-- Makes the space that is worked on a command's output, or writes that output. -/
def runCommand (command : Option ByteArray) : Work Unit := do
  match command with
  | none => do
    let s ← get
    let out ← outputOf s.space.text
    modify fun s => { s with space := ⟨chomped s.settings.mark out, true⟩ }
  | some command => do
    let out ← outputOf (chomped 10 command)
    putAfter 0 out

/-- Writes a text that stands in a program; what ends its last line is what ends lines here. -/
def putText (text : ByteArray) : Work Unit := do
  if text.isEmpty then settle 0
  else putAfter 0 ((text.extract 0 (text.size - 1)).push (← get).settings.mark)

/-- Does what a command says. -/
def perform (c : Command) : Work Next := do
  let s ← get
  let mark := s.settings.mark
  match c.action with
  | .block _ => return .on
  | .append text => do
    add (.text text)
    return .on
  | .insert text => do
    putText text
    return .on
  | .change text => do
    let inside :=
      match c.scope with
      | .range i _ _ => (s.phases[i]?.any fun p => p matches .active _)
      | _ => false
    if !inside then putText text
    return .deleted
  | .jump target => return .go target
  | .jumpIfReplaced target => do
    set { s with replaced := false }
    return if s.replaced then .go target else .on
  | .jumpUnlessReplaced target => do
    set { s with replaced := false }
    return if s.replaced then .on else .go target
  | .delete => return .deleted
  | .deleteLine =>
    match s.space.text.findIdx? (· = mark) with
    | none => return .deleted
    | some i => do
      let text := s.space.text.extract (i + 1) s.space.text.size
      set { s with space := { s.space with text } }
      return .again
  | .run command => do
    runCommand command
    return .on
  | .showName => do
    putAfter 0 ((Octet.toBytes s.input.name).push mark)
    return .on
  | .showNumber => do
    putAfter 0 ((toString s.number).toUTF8.push mark)
    return .on
  | .takeHeld => do
    set { s with space := s.held }
    return .on
  | .appendHeld => do
    set { s with space := s.space.followedBy mark s.held }
    return .on
  | .hold => do
    set { s with held := s.space }
    return .on
  | .holdMore => do
    set { s with held := s.held.followedBy mark s.space }
    return .on
  | .exchange => do
    set { s with space := s.held, held := s.space }
    return .on
  | .list width => do
    putAfter 0 (listing mark (width.getD s.settings.width) s.space.text)
    return .on
  | .listOld => fail 4 "INTERNAL ERROR: Bad cmd L"
  | .next => do
    if ← isLast then return .finished
    if !s.settings.quiet then putSpace 0 s.space
    return if ← readLine false then .on else .finished
  | .appendNext => do
    if ← isLast then return .finished
    modify fun s => { s with space := { s.space with text := s.space.text.push mark } }
    return if ← readLine true then .on else .finished
  | .print => do
    putSpace 0 s.space
    return .on
  | .printLine => do
    putFirst 0 s.space
    return .on
  | .quit status silently => do
    if !silently then
      if !s.settings.quiet then putSpace 0 s.space
      settle 0
      dropAdditions
    return .quit status
  | .readFile name => do
    add (.file name)
    return .on
  | .readLine input => do
    addLine input
    return .on
  | .substitute x => do
    substitute x
    return .on
  | .write output => do
    putSpace (output + 1) s.space
    return .on
  | .writeLine output => do
    putFirst (output + 1) s.space
    return .on
  | .translate table => do
    let text := s.space.text.foldl (fun out b => out.push (table[b.toNat]?.getD b)) .empty
    set { s with space := { s.space with text } }
    return .on
  | .clear => do
    set { s with space := { s.space with text := .empty } }
    return .on

/-- Runs the program from a command on. -/
def runFrom : (fuel index : Nat) → Work Next
  | 0, _ => return .quit 4
  | fuel + 1, index => do
    match (← get).script.commands[index]? with
    | none => return .finished
    | some c => do
      Act.tick
      if ← isMeant c then
        match ← perform c with
        | .on => runFrom fuel (index + 1)
        | .go target => runFrom fuel target
        | next => return next
      else
        match c.action with
        | .block behind => runFrom fuel behind
        | _ => runFrom fuel (index + 1)

/-- Runs the program for one line after the other. Yields the status. -/
def runAll : (fuel : Nat) → (reads : Bool) → Work Nat
  | 0, _ => return 4
  | fuel + 1, reads => do
    let found ← if reads then readLine false else pure true
    if !found then return 0
    match ← runFrom Routine.endless 0 with
    | .quit status => return status
    | .again => runAll fuel false
    | .deleted => do
      dropAdditions
      runAll fuel true
    | _ => do
      let s ← get
      if !s.settings.quiet then putSpace 0 s.space
      dropAdditions
      runAll fuel true

/-- Runs the program for all lines and closes what it opened. Yields the status. -/
def runWhole : Work Nat := do
  let status ← runAll Routine.endless true
  closeInput
  if let .error e ← flushAll then fail 4 s!"couldn't flush <unknown>: {e.description}"
  return if (← get).failed then 2 else status % 256

end Work

/-! ### The command line -/

def options : List OptionName :=
  [{ name := "n", others := ["quiet", "silent"] }, { name := "sandbox" },
    { name := "s", others := ["separate"] }, { name := "debug" },
    { name := "e", takes := .argument, others := ["expression"] },
    { name := "f", takes := .argument, others := ["file"] }, { name := "follow-symlinks" },
    { name := "i", takes := .perhaps, others := ["in-place"] },
    { name := "l", takes := .argument, others := ["line-length"] }, { name := "posix" },
    { name := "E", others := ["r", "regexp-extended"] }, { name := "b", others := ["binary"] },
    { name := "u", others := ["unbuffered"] },
    { name := "z", others := ["null-data", "zero-terminated"] }]

/-- How `sed` is called. -/
def usage : String :=
  "Usage: sed [OPTION]... \x7bscript-only-if-no-other-script\x7d [input-file]...\n\n" ++
  "  -n, --quiet, --silent\n                 suppress automatic printing of pattern space\n" ++
  "      --debug\n                 annotate program execution\n" ++
  "  -e script, --expression=script\n" ++
  "                 add the script to the commands to be executed\n" ++
  "  -f script-file, --file=script-file\n" ++
  "                 add the contents of script-file to the commands to be executed\n" ++
  "  --follow-symlinks\n                 follow symlinks when processing in place\n" ++
  "  -i[SUFFIX], --in-place[=SUFFIX]\n" ++
  "                 edit files in place (makes backup if SUFFIX supplied)\n" ++
  "  -l N, --line-length=N\n" ++
  "                 specify the desired line-wrap length for the `l\x27 command\n" ++
  "  --posix\n                 disable all GNU extensions.\n" ++
  "  -E, -r, --regexp-extended\n" ++
  "                 use extended regular expressions in the script\n" ++
  "                 (for portability use POSIX -E).\n" ++
  "  -s, --separate\n                 consider files as separate rather than as a single,\n" ++
  "                 continuous long stream.\n" ++
  "      --sandbox\n                 operate in sandbox mode (disable e/r/w commands).\n" ++
  "  -u, --unbuffered\n" ++
  "                 load minimal amounts of data from the input files and flush\n" ++
  "                 the output buffers more often\n" ++
  "  -z, --null-data\n                 separate lines by NUL characters\n" ++
  "      --help     display this help and exit\n" ++
  "      --version  output version information and exit\n\n" ++
  "If no -e, --expression, -f, or --file option is given, then the first\n" ++
  "non-option argument is taken as the sed script to interpret.  All\n" ++
  "remaining arguments are names of input files; if no input files are\n" ++
  "specified, then the standard input is read.\n\n"

/-- What the options ask for. -/
def settingsOf (g : Given) : Settings :=
  { quiet := g.has "n"
    separate := g.has "s" || g.has "i"
    inPlace := g.last? "i"
    mark := if g.has "z" then 0 else 10
    width := ((g.last? "l").map fun text =>
      Text.natOf 10 (text.toList.takeWhile Char.isDigit)).getD 70
    extended := g.has "E"
    sandboxed := g.has "sandbox"
    unbuffered := g.has "u" }

/-- A piece of a program that is still to be found. -/
inductive Piece where
  | word (text : String)
  | file (name : String)

/-- The pieces that the command line names, and the files to be read. -/
def piecesOf (g : Given) : Option (List Piece × List String) :=
  let pieces := g.options.filterMap fun (name, argument) =>
    if name = "e" then some (Piece.word argument)
    else if name = "f" then some (Piece.file argument)
    else none
  if !pieces.isEmpty then some (pieces, g.operands)
  else
    match g.operands with
    | [] => none
    | word :: rest => some ([.word word], rest)

/-- The text of a program in a file. -/
def programText (name : String) : Act String := do
  let n ←
    if name = "-" then pure 0
    else
      match ← Act.openFile name .read with
      | .ok n => pure n
      | .error e => panic s!"couldn't open file {name}: {e.description}"
  let bytes ← Work.outputOf.rest n Routine.endless .empty
  if n ≠ 0 then Act.close n
  return Octet.ofBytes bytes

/-- Opens a file that a program writes. -/
def openOutput (name : String) : Act Output := do
  if name = "/dev/stdout" then return { sink := .printed }
  if name = "/dev/stderr" then return { sink := .descriptor 2 }
  match ← Act.openFile name .write with
  | .ok n => return { sink := .descriptor n }
  | .error e => panic s!"couldn't open file {name}: {e.description}"

/-- Opens a file of which a program reads lines. -/
def openReader (name : String) : Act Stream := do
  if name = "/dev/stdin" then return { descriptor := some 0, name := "-" }
  match ← Act.openFile name .read with
  | .ok n => return { descriptor := some n, name }
  | .error _ => return { name }

/-- Opens the files that were met since some were opened. -/
def openAll (open? : String → Act Output) (names : List String) (outputs : Array Output) :
    Act (Array Output) :=
  (names.drop outputs.size).foldlM (fun outputs name => return outputs.push (← open? name)) outputs

/-- Ends with what is wrong with a program. -/
def refuse {α : Type} (fault : Fault) (d : Draft) : Act α := do
  let name := (← get).call.name
  if fault.hasPlace then
    Act.tell s!"{name}: {d.place.text}: {fault.message}\n"
    Act.quit 1
  else panic fault.message

/-- Goes on with reading a program, and opens the files that it names. -/
def readOn (step : Parse Unit) (d : Draft) (outputs : Array Output) :
    Act (Draft × Array Output) := do
  let (result, d) := step.run.run d
  let outputs ← openAll openOutput d.outputs outputs
  match result with
  | .ok _ => return (d, outputs)
  | .error fault => refuse fault d

/-- Reads the pieces of a program. -/
def readPieces : List Piece → (words : Nat) → Draft → Array Output → Act (Draft × Array Output)
  | [], _, d, outputs => return (d, outputs)
  | .word text :: rest, words, d, outputs => do
    let (d, outputs) ← readOn (Parse.piece (.word (words + 1)) text) d outputs
    readPieces rest (words + 1) d outputs
  | .file name :: rest, words, d, outputs => do
    let text ← programText name
    let (d, outputs) ← readOn (Parse.piece (.file name) text) d outputs
    readPieces rest words d outputs

/-- Ends a run, and complains if what was printed could not be written. -/
def close : Act Unit := do
  Act.flush
  let s ← get
  match s.failure with
  | some e => do
    set { s with failure := none }
    panic (if e = .badDescriptor then "couldn't close stdout: Bad file descriptor"
      else s!"couldn't flush stdout: {e.description}")
  | none =>
    if (← ask (.inspect 1)).isNone then panic "couldn't close stdout: Bad file descriptor"

def body : Act Unit := do
  let g := Given.read options true (← get).call.arguments
  let misuse (fault : Option String) : Act Unit := do
    if let some fault := fault then Act.tell s!"{(← get).call.name}: {fault}\n"
    Act.tell usage
    Act.quit 1
  if g.fault.isSome then misuse g.fault
  let settings := settingsOf g
  match piecesOf g with
  | none => misuse none
  | some (pieces, names) => do
    let draft : Draft :=
      { extended := settings.extended, sandboxed := settings.sandboxed
        place := { source := .word 1 } }
    let (draft, outputs) ← readPieces pieces 0 draft #[]
    match Parse.script.run.run draft with
    | (.error fault, d) => refuse fault d
    | (.ok script, _) => do
      if names.isEmpty ∧ settings.inPlace.isSome then panic "no input files"
      let readers ← script.inputs.mapM openReader
      let editor : Editor :=
        { settings := { settings with quiet := settings.quiet || script.quiet }
          script
          names := if names.isEmpty then ["-"] else names
          phases := Work.firstPhases script
          outputs := #[{ sink := if settings.inPlace.isSome then .kept else .printed }] ++ outputs
          readers := readers.toArray }
      let (status, _) ← Work.runWhole.run editor
      Act.setStatus status
      close

def main : Act Unit := do
  let _ ← attempt body
  Act.flush
  modify fun s => { s with failure := none }

end TensorParity.Tool.Sed
