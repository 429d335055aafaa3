import TensorParity.Shell.Builtin.Options
import TensorParity.Shell.Field
import TensorParity.Shell.Print

/-!
Built-in commands for input and output, the current directory and the permissions of new files.
-/
namespace TensorParity.Shell

open Machine
open Machine.Routine (ask)

namespace Builtin

/-- Whether a text ends inside an escape that began in it or, if `escaped`, before it. -/
def endsEscaped (escaped : Bool) (text : List Char) : Bool :=
  text.foldl (fun escaped c => !escaped && c = '\\') escaped

/-- Reads a line piece by piece; yields its characters, and whether its end was found. A line goes on
behind a line feed that a backslash takes away, unless `raw` says that it has no meaning. -/
def readLine (raw : Bool) : (fuel : Nat) → (escaped : Bool) → List Char → Act (List Char × Bool)
  | 0, _, read => return (read, true)
  | fuel + 1, escaped, read => do
    match ← ask (.read 0 512 (some 10)) with
    | .error _ => return (read, false)
    | .ok bytes =>
      if bytes.isEmpty then return (read, false)
      else
        let text := (Octet.ofBytes bytes).toList.filter (· ≠ '\x00')
        let before := text.dropLast
        let escapedThere := !raw && endsEscaped escaped before
        if text.getLast? = some '\n' ∧ !escapedThere then return (read ++ before, true)
        else readLine raw fuel (!raw && endsEscaped escaped text) (read ++ text)

/-- The stretches of a line. What a backslash stands before is no separator. -/
def lineStretches (raw : Bool) : (run : List Glyph) → List Char → Expanded
  | run, [] => [⟨.split, run.reverse⟩]
  | run, '\\' :: rest =>
    if raw then lineStretches raw (.char '\\' false :: run) rest
    else
      match rest with
      | [] => [⟨.split, run.reverse⟩]
      | '\n' :: rest => ⟨.split, run.reverse⟩ :: lineStretches raw [] rest
      | c :: rest =>
        ⟨.split, run.reverse⟩ :: ⟨.whole, [.char c false]⟩ :: lineStretches raw [] rest
  | run, c :: rest => lineStretches raw (.char c false :: run) rest

/-- Gives values to names; names without a value become empty. -/
def assignFields : List String → List String → Act Unit
  | [], _ => pure ()
  | name :: names, values => do
    Act.assign name (values.headD "")
    assignFields names (values.drop 1)

def runRead (words : List String) : Act Nat := do
  let (found, names) ← options "p:r" words
  if names.isEmpty then Act.fail "arg count"
  let raw := found.any (·.1 = 'r')
  let (line, ended) ← readLine raw Routine.endless false []
  let stretches := lineStretches raw [] line
  let fields := Cutter.fields (← get).separators (some names.length) stretches
  assignFields names (fields.map Glyph.text)
  return if ended then 0 else 1

def runEcho (words : List String) : Act Nat := Act.print (Print.echo words)

def runPrintf (words : List String) : Act Nat := do
  match ← noOptions words with
  | [] => Act.fail "usage: printf format [arg ...]"
  | format :: arguments => do
    let p := Print.printf format arguments
    for warning in p.warnings.reverse do
      Act.warn warning
    match p.fault with
    | some fault => do
      Act.warn fault
      let _ ← Act.write 1 p.done
      Act.setStatus 2
      throw .fault
    | none => do
      let status ← Act.print p.done
      return if p.warnings.isEmpty then status else 1

/-- A path with its dots worked out, without looking at files. -/
def normalPath (current path : String) : String :=
  let names (p : String) : List (List Char) := (Pathname.components (p.toList.flatMap fun c =>
    if c = '\\' then ['\\', '\\'] else [c])).map Pathname.plain
  let start := if path.startsWith "/" then [] else names current
  let found := (start ++ names path).foldl (fun (done : List (List Char)) name =>
    if name = [] ∨ name = ['.'] then done
    else if name = ['.', '.'] then done.drop 1
    else name :: done) []
  "/" ++ "/".intercalate (found.reverse.map String.ofList)

/-- Goes to a directory; yields whether it is there. -/
def goTo (programs : Programs) (path : String) : Act Bool := do
  let s ← get
  let target := normalPath s.directory path
  let fs ← Act.files
  let isThere := (fs.locate ⟨Octet.toText path⟩).isOk || Kind.ofPath programs fs target = .directory
  if !isThere ∨ Kind.ofPath programs fs target ≠ .directory then return false
  else
    let location := ((Octet.toText target).splitOn "/").filter (· ≠ "")
    ask (.change fun fs => { fs with current := location })
    modify fun s => { s with directory := target }
    Act.assign "OLDPWD" s.directory true
    Act.assign "PWD" target true
    return true

/-- The directories in which a relative path is looked for. -/
def searched (s : State) (path : String) : List String :=
  let isPlaced := path.startsWith "/" ∨ path = "." ∨ path = ".." ∨ path.startsWith "./" ∨
    path.startsWith "../"
  if isPlaced then [""] else ((s.value? "CDPATH").getD "").splitOn ":"

def runCd (programs : Programs) (words : List String) : Act Nat := do
  let (_, rest) ← options "LP" words
  let s ← get
  let (path, told) :=
    match rest with
    | [] => ((s.value? "HOME").getD "", false)
    | "-" :: _ => ((s.value? "OLDPWD").getD "", true)
    | path :: _ => (path, false)
  let rec each : List String → Act (Option Bool)
    | [] => return none
    | "" :: more => do
      if ← goTo programs (if path = "" then "." else path) then return some told else each more
    | directory :: more => do
      if ← goTo programs (directory ++ "/" ++ path) then return some true else each more
  match ← each (searched s path) with
  | none => Act.fail s!"can\x27t cd to {path}"
  | some told => if told then Act.print ((← get).directory ++ "\n") else return 0

def runPwd (words : List String) : Act Nat := do
  let _ ← options "LP" words
  Act.print ((← get).directory ++ "\n")

/-- The permission bits of one class of users, as letters. -/
def permissionLetters (bits : Nat) : String :=
  (if bits / 4 % 2 = 1 then "r" else "") ++ (if bits / 2 % 2 = 1 then "w" else "") ++
    (if bits % 2 = 1 then "x" else "")

/-- Permissions as clauses for the three classes of users. -/
def symbolicMode (mode : Nat) : String :=
  s!"u={permissionLetters (mode / 64 % 8)},g={permissionLetters (mode / 8 % 8)},"
    ++ s!"o={permissionLetters (mode % 8)}"

def octalText (width n : Nat) : String :=
  let digits := Nat.toDigits 8 n
  String.ofList (List.replicate (width - digits.length) '0' ++ digits)

/-- The bits of one class of users, spread over the classes that letters name. -/
def spread (who : List Char) (bits : Nat) : Nat :=
  (if 'u' ∈ who then 64 * bits else 0) + (if 'g' ∈ who then 8 * bits else 0) +
    (if 'o' ∈ who then bits else 0)

/-- The bits that letters of permissions stand for, given the permissions before. -/
def permissionBits (mode : Nat) (who letters : List Char) : Option Nat :=
  letters.foldlM (fun bits c =>
    let one : Option Nat :=
      match c with
      | 'r' => some (spread who 4)
      | 'w' => some (spread who 2)
      | 'x' => some (spread who 1)
      | 'X' => some (if mode &&& 73 ≠ 0 then spread who 1 else 0)
      | 'u' => some (spread who (mode / 64 % 8))
      | 'g' => some (spread who (mode / 8 % 8))
      | 'o' => some (spread who (mode % 8))
      | 's' => some 0
      | 't' => some 0
      | _ => none
    one.map (bits ||| ·)) 0

/-- Applies the operations of one clause. -/
def applyOperations (who : List Char) : (fuel : Nat) → (mode : Nat) → List Char → Option Nat
  | 0, mode, _ => some mode
  | fuel + 1, mode, cs =>
    match cs with
    | [] => some mode
    | sign :: rest =>
      let letters := rest.takeWhile fun c => c ≠ '+' && c ≠ '-' && c ≠ '='
      let after := rest.drop letters.length
      match permissionBits mode who letters with
      | none => none
      | some bits =>
        let all := spread who 7
        if sign = '+' then applyOperations who fuel (mode ||| bits) after
        else if sign = '-' then applyOperations who fuel (mode - (mode &&& bits)) after
        else if sign = '=' then applyOperations who fuel (mode - (mode &&& all) + bits) after
        else none

/-- Permissions changed as clauses say. -/
def changedMode (mode : Nat) (text : String) : Option Nat :=
  (text.splitOn ",").foldlM (fun mode clause =>
    let cs := clause.toList
    let who := cs.takeWhile fun c => c = 'u' || c = 'g' || c = 'o' || c = 'a'
    let rest := cs.drop who.length
    let who := if who.isEmpty ∨ 'a' ∈ who then ['u', 'g', 'o'] else who
    if rest.isEmpty then none else applyOperations who (rest.length + 1) mode rest) mode

def runUmask (words : List String) : Act Nat := do
  let (found, rest) ← options "S" words
  let s ← get
  match rest with
  | [] =>
    if found.isEmpty then Act.print (octalText 4 s.mask ++ "\n")
    else Act.print (symbolicMode (511 - s.mask) ++ "\n")
  | word :: _ =>
    if (word.toList.head?).any Char.isDigit then
      if word.toList.all Print.isOctal then
        set { s with mask := Text.natOf 8 word.toList % 512 }
        return 0
      else Act.fail s!"Illegal number: {word}"
    else
      match changedMode (511 - s.mask) word with
      | some mode => do
        set { s with mask := 511 - mode }
        return 0
      | none => Act.fail s!"Illegal mode: {word}"

/-- The limits that a shell tells of: a letter, a name, and a number if there is a limit. -/
def limitTable : List (Char × String × Option Nat) :=
  [('t', "time(seconds)", none), ('f', "file(blocks)", none), ('d', "data(kbytes)", none),
    ('s', "stack(kbytes)", some 8192), ('c', "coredump(blocks)", some 0),
    ('m', "memory(kbytes)", none), ('l', "locked memory(kbytes)", some 8192),
    ('p', "process", none), ('n', "nofiles", some 1048576), ('v', "vmemory(kbytes)", none),
    ('w', "locks", none), ('r', "rtprio", some 0)]

def limitText (s : State) (letter : Char) : String :=
  match (s.limits.lookup letter).or ((limitTable.lookup letter).bind (·.2)) with
  | some n => toString n
  | none => "unlimited"

def runUlimit (words : List String) : Act Nat := do
  let (found, rest) ← options "HSatfdscmlpnvwr" words
  let s ← get
  if found.any (·.1 = 'a') then
    Act.print (String.join (limitTable.map fun (letter, name, _) =>
      let padded := name ++ String.ofList (List.replicate (20 - name.length) ' ')
      s!"{padded} {limitText s letter}\n"))
  else
    let letter := ((found.map (·.1)).filter fun c => c ≠ 'H' && c ≠ 'S').getLast?.getD 'f'
    match rest with
    | [] => Act.print (limitText s letter ++ "\n")
    | [word] =>
      if word = "unlimited" then
        set { s with limits := s.limits.filter (·.1 ≠ letter) }
        return 0
      else if word.toList.all Char.isDigit then
        let n := Text.natOf 10 word.toList
        set { s with limits := (letter, n) :: s.limits.filter (·.1 ≠ letter) }
        return 0
      else Act.fail "bad number"
    | _ => Act.fail "too many arguments"

def runTimes : Act Nat := Act.print "0m0.000000s 0m0.000000s\n0m0.000000s 0m0.000000s\n"

end Builtin

end TensorParity.Shell
