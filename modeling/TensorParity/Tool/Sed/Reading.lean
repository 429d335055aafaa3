import TensorParity.Text.Regex.Parser
import TensorParity.Tool.Sed.Escape

/-!
Reading programs of the stream editor. A program comes in pieces; blocks, labels and inserted texts
may go on from one piece to the next.
-/
namespace TensorParity.Tool.Sed

open Text (Regex)

/-- Why a text is no program. -/
inductive Fault where
  | unknownCommand (c : Char)
  | extraCharacters
  | closingBrace
  | openBrace
  | comma
  | missingCommand
  | severalNegations
  | severalPrints
  | severalAll
  | severalNumbers
  | zeroNumber
  | unknownFlag
  | openSubstitution
  | openTranslation
  | openAddress
  | differentLengths
  | missingText
  | missingLabel
  | addressOfLabel
  | addressOfBrace
  | addressOfComment
  | secondAddress
  | lineZero
  | distanceFirst
  | missingName
  | newerVersion
  | modifiedEmpty
  | noExpression
  | badReference (group : Nat)
  | forbidden
  | recursiveEscape
  | expression (fault : Regex.Fault)
  | misspelledClass
  | undefinedLabel (name : String)

def Fault.message : Fault → String
  | unknownCommand c => s!"unknown command: `{c}\x27"
  | extraCharacters => "extra characters after command"
  | closingBrace => "unexpected `\x7d\x27"
  | openBrace => "unmatched `\x7b\x27"
  | comma => "unexpected `,\x27"
  | missingCommand => "missing command"
  | severalNegations => "multiple `!\x27s"
  | severalPrints => "multiple `p\x27 options to `s\x27 command"
  | severalAll => "multiple `g\x27 options to `s\x27 command"
  | severalNumbers => "multiple number options to `s\x27 command"
  | zeroNumber => "number option to `s\x27 command may not be zero"
  | unknownFlag => "unknown option to `s\x27"
  | openSubstitution => "unterminated `s\x27 command"
  | openTranslation => "unterminated `y\x27 command"
  | openAddress => "unterminated address regex"
  | differentLengths => "strings for `y\x27 command are different lengths"
  | missingText => "expected \\ after `a\x27, `c\x27 or `i\x27"
  | missingLabel => "\":\" lacks a label"
  | addressOfLabel => ": doesn\x27t want any addresses"
  | addressOfBrace => "`\x7d\x27 doesn\x27t want any addresses"
  | addressOfComment => "comments don\x27t accept any addresses"
  | secondAddress => "command only uses one address"
  | lineZero => "invalid usage of line address 0"
  | distanceFirst => "invalid usage of +N or ~N as first address"
  | missingName => "missing filename in r/R/w/W commands"
  | newerVersion => "expected newer version of sed"
  | modifiedEmpty => "cannot specify modifiers on empty regexp"
  | noExpression => "no previous regular expression"
  | badReference group => s!"invalid reference \\{group} on `s\x27 command\x27s RHS"
  | forbidden => "e/r/w commands disabled in sandbox mode"
  | recursiveEscape => "recursive escaping after \\c not allowed"
  | expression fault => fault.message
  | misspelledClass => "character class syntax is [[:space:]], not [:space:]"
  | undefinedLabel name => s!"can\x27t find label for jump to `{name}\x27"

/-- Whether complaints about it name a place. -/
def Fault.hasPlace : Fault → Bool
  | misspelledClass => false
  | undefinedLabel _ => false
  | _ => true

/-- A program that is read, up to some place. -/
structure Draft where
  extended : Bool
  sandboxed : Bool
  place : Place
  rest : List Char := []
  commands : Array Command := #[]
  /-- The blocks that are open, innermost first, and where they begin. -/
  blocks : List (Nat × Place) := []
  labels : List (String × Nat) := []
  /-- The jumps that have labels, latest first. -/
  jumps : List (Nat × String) := []
  ranges : Nat := 0
  outputs : List String := []
  inputs : List String := []
  /-- A command of which the text goes on in the next piece, and the text so far. -/
  unfinished : Option (Nat × List Char) := none
  quiet : Bool := false
  /-- Whether nothing was read before this piece. -/
  isFirst : Bool := true

abbrev Parse := ExceptT Fault (StateM Draft)

namespace Parse

def advance : Parse (Option Char) := do
  let d ← get
  match d.rest with
  | [] => return none
  | c :: rest => do
    let line := if c = '\n' then d.place.line + 1 else d.place.line
    set { d with rest, place := { d.place with taken := d.place.taken + 1, line } }
    return some c

/-- Makes a character unread. -/
def back (c : Option Char) : Parse Unit := do
  if let some c := c then
    modify fun d =>
      let line := if c = '\n' then d.place.line - 1 else d.place.line
      { d with rest := c :: d.rest, place := { d.place with taken := d.place.taken - 1, line } }

/-- More than the characters that are left. -/
def fuel : Parse Nat := return (← get).rest.length + 1

/-- Passes over characters and yields the first other one. -/
def skip (test : Char → Bool) : (fuel : Nat) → Parse (Option Char)
  | 0 => return none
  | fuel + 1 => do
    match ← advance with
    | none => return none
    | some c => if test c then skip test fuel else return some c

def isBlank (c : Char) : Bool := c = ' ' || c = '\t'

def afterBlanks : Parse (Option Char) := do skip isBlank (← fuel)

/-- The characters up to one that ends them, which is left unread. -/
def upTo (stops : Char → Bool) (c : Option Char) : (fuel : Nat) → List Char → Parse (List Char)
  | 0, done => return done.reverse
  | fuel + 1, done => do
    match c with
    | none => return done.reverse
    | some x =>
      if stops x then do
        back c
        return done.reverse
      else upTo stops (← advance) fuel (x :: done)

/-- The number that begins with a character; nothing counts as zero. -/
def number (c : Option Char) : Parse Nat := do
  return Text.natOf 10 (← upTo (!·.isDigit) c ((← fuel) + 1) [])

/-- A label, which ends at a blank, a semicolon or a brace. -/
def label : Parse String := do
  let c ← afterBlanks
  let cs ← upTo (fun c => Text.isSpace c || c = ';' || c = '\x7d') c ((← fuel) + 1) []
  return String.ofList cs

/-- The name of a file, which is the rest of a line. -/
def fileName : Parse String := do
  let c ← afterBlanks
  let cs ← upTo (· = '\n') c ((← fuel) + 1) []
  let _ ← advance
  if cs.isEmpty then throw .missingName
  return String.ofList cs

/-- The end of a command. -/
def finish : Parse Unit := do
  let c ← afterBlanks
  match c with
  | none => return ()
  | some '\x7d' => back c
  | some '#' => back c
  | some '\n' => return ()
  | some ';' => return ()
  | some _ => throw .extraCharacters

/-- What stands in brackets, up to the one that closes them. A colon, a period or an equals sign after
an opening bracket hides what stands before the same sign and a closing bracket. `state` is 0
outside of these, 1 after the opening bracket, 2 inside and 3 after the second sign. -/
def bracket : (fuel state : Nat) → (sign : Char) → (c : Option Char) → (done : List Char) →
    Parse (Option Char × List Char)
  | 0, _, _, c, done => return (c, done)
  | fuel + 1, state, sign, c, done => do
    match c with
    | none => return (c, done)
    | some '\n' => return (c, done)
    | some x =>
      let go (state : Nat) (sign : Char) : Parse (Option Char × List Char) := do
        bracket fuel state sign (← advance) (x :: done)
      let other := if state = 1 then 0 else if state = 3 then 2 else state
      if x = '.' ∨ x = ':' ∨ x = '=' then
        if state = 1 then go 2 x
        else if state = 2 ∧ x = sign then go 3 sign
        else go other sign
      else if x = '[' then go (if state = 0 then 1 else state) sign
      else if x = ']' then
        if state ≤ 1 then return (c, done)
        else if state = 3 then go 0 sign
        else go other sign
      else go other sign

/-- The first characters in brackets, which may be a closing bracket. -/
def bracketStart (done : List Char) : Parse (Option Char × List Char) := do
  let c ← advance
  let (c, done) ← if c = some '^' then do pure (← advance, '^' :: done) else pure (c, done)
  let (c, done) ← if c = some ']' then do pure (← advance, ']' :: done) else pure (c, done)
  bracket ((← fuel) + 1) 0 ' ' c done

/-- The text up to a sign, or none if a line ends before. -/
def upToSign (sign : Char) (isExpression : Bool) : (fuel : Nat) → (done : List Char) →
    Parse (Option (List Char))
  | 0, _ => return none
  | fuel + 1, done => do
    match ← advance with
    | none => return none
    | some c =>
      if c = sign then return some done.reverse
      else if c = '\n' then do
        back (some c)
        return none
      else if c = '\\' then
        match ← advance with
        | none => return none
        | some d =>
          if d = 'n' ∧ isExpression then upToSign sign isExpression fuel ('\n' :: done)
          else if d = '\n' || (d = sign && (isExpression || d ≠ '&')) then
            upToSign sign isExpression fuel (d :: done)
          else upToSign sign isExpression fuel (d :: '\\' :: done)
      else if c = '[' ∧ isExpression then do
        match ← bracketStart ('[' :: done) with
        | (some ']', done) => upToSign sign isExpression fuel (']' :: done)
        | (c, _) => do
          if c = some '\n' then back c
          return none
      else upToSign sign isExpression fuel (c :: done)

/-- The text up to a sign, which stands before it. -/
def signed (sign : Option Char) (isExpression : Bool) (fault : Fault) : Parse (List Char) := do
  match sign with
  | none => throw fault
  | some sign =>
    match ← upToSign sign isExpression (← fuel) [] with
    | some cs => return cs
    | none => throw fault

/-! ### Regular expressions -/

/-- Whether brackets hold the name of a class alone, as it should stand in inner brackets. The
characters are those after the opening bracket. -/
def isMisspelled (cs : List Char) : Bool :=
  let cs := if cs.head? = some '^' then cs.drop 1 else cs
  let inside := cs.takeWhile (· ≠ ']')
  cs.length ≠ inside.length && inside.head? = some ':' && inside.getLast? = some ':' &&
    inside.any (· ≠ ':') && !inside.contains '[' && !(inside.drop 1).contains '-'

/-- What follows brackets, from their first character on. Every round takes a character at least. -/
def afterBrackets : (fuel : Nat) → List Char → List Char
  | 0, cs => cs
  | _ + 1, [] => []
  | _ + 1, ']' :: rest => rest
  | fuel + 1, '[' :: ':' :: rest => afterBrackets fuel (rest.drop ((rest.idxOf ']') + 1))
  | fuel + 1, '[' :: '.' :: rest => afterBrackets fuel (rest.drop ((rest.idxOf ']') + 1))
  | fuel + 1, '[' :: '=' :: rest => afterBrackets fuel (rest.drop ((rest.idxOf ']') + 1))
  | fuel + 1, _ :: rest => afterBrackets fuel rest

/-- Whether any brackets do. -/
def hasMisspelled : (fuel : Nat) → List Char → Bool
  | 0, _ => false
  | _ + 1, [] => false
  | fuel + 1, '\\' :: rest => hasMisspelled fuel (rest.drop 1)
  | fuel + 1, '[' :: rest =>
    let inside := if rest.head? = some '^' then rest.drop 1 else rest
    let later := if inside.head? = some ']' then inside.drop 1 else inside
    isMisspelled rest || hasMisspelled fuel (afterBrackets later.length later)
  | fuel + 1, _ :: rest => hasMisspelled fuel rest

/-- Reads a regular expression; an empty one stands for the one that was used last. `groups` is how
many groups are referred to. -/
def expression (cs : List Char) (folds byLines : Bool) (groups : Nat) :
    Parse (Option Expression) := do
  if cs.isEmpty then
    if folds || byLines then throw .modifiedEmpty
    return none
  match expressionText? cs with
  | none => throw .recursiveEscape
  | some text =>
    let form : Regex.Form := { extended := (← get).extended, byLines, folds }
    match Regex.parse form (String.ofList text) with
    | .error fault => throw (.expression fault)
    | .ok (r, count) => do
      if count < groups then throw (.badReference groups)
      if hasMisspelled text.length text then throw .misspelledClass
      return some ⟨Regex.program (if folds then r.folded else r), folds, byLines⟩

/-- The flags after an expression that is an address. -/
def addressFlags : (fuel : Nat) → (folds byLines : Bool) → Parse (Bool × Bool)
  | 0, folds, byLines => return (folds, byLines)
  | fuel + 1, folds, byLines => do
    match ← afterBlanks with
    | some 'I' => addressFlags fuel true byLines
    | some 'M' => addressFlags fuel folds true
    | c => do
      back c
      return (folds, byLines)

/-! ### Addresses -/

/-- An address that begins with a character, if one does. -/
def address? (c : Option Char) : Parse (Option Limit) := do
  match c with
  | some '$' => return some (.at .last)
  | some '+' => return some (.after (← number (← afterBlanks)))
  | some '~' => return some (.multiple (← number (← afterBlanks)))
  | some c =>
    if c = '/' ∨ c = '\\' then do
      let sign ← if c = '/' then pure (some c) else advance
      let cs ← signed sign true .openAddress
      let (folds, byLines) ← addressFlags (← fuel) false false
      return some (.at (.matching (← expression cs folds byLines 0)))
    else if c.isDigit then do
      let n ← number (some c)
      let d ← afterBlanks
      if d ≠ some '~' then
        back d
        return some (.at (.line n))
      let step ← number (← afterBlanks)
      return some (.at (if step = 0 then .line n else .step n step))
    else return none
  | none => return none

/-- Whether a range may begin before the first line. -/
def mayFollowZero : Limit → Bool
  | .at (.matching _) => true
  | _ => false

/-- The lines of a command, and the first character after them. -/
def scope (c : Option Char) : Parse (Scope × Option Char) := do
  match ← address? c with
  | none => return (.all, c)
  | some (.at a) => do
    let isZero := a matches .line 0
    let c ← afterBlanks
    if c ≠ some ',' then
      if isZero then throw .lineZero
      return (.one a, c)
    match ← address? (← afterBlanks) with
    | none => throw .comma
    | some limit => do
      let c ← afterBlanks
      if isZero && !mayFollowZero limit then throw .lineZero
      let index := (← get).ranges
      modify fun d => { d with ranges := index + 1 }
      return (.range index a limit, c)
  | some _ => throw .distanceFirst

/-! ### Commands -/

/-- The place of a name in a list, which it joins. -/
def placeOf (names : List String) (name : String) : Nat × List String :=
  match names.idxOf? name with
  | some i => (i, names)
  | none => (names.length, names ++ [name])

def output (name : String) : Parse Nat := do
  let (i, outputs) := placeOf (← get).outputs name
  modify fun d => { d with outputs }
  return i

def input (name : String) : Parse Nat := do
  let (i, inputs) := placeOf (← get).inputs name
  modify fun d => { d with inputs }
  return i

/-- The lines of a text, backwards, and whether the next piece goes on with it. -/
def rawText : (fuel : Nat) → (done : List Char) → Parse (List Char × Bool)
  | 0, done => return (done, false)
  | fuel + 1, done => do
    match ← advance with
    | none => return ('\n' :: done, false)
    | some '\n' => return ('\n' :: done, false)
    | some '\\' => do
      match ← advance with
      | none => return ('\n' :: done, true)
      | some c => rawText fuel (c :: '\\' :: done)
    | some c => rawText fuel (c :: done)

/-- The bytes of a text. One that is not finished is taken as it is for now. -/
def textBytes (command : Nat) (done : List Char) (goesOn : Bool) : Parse ByteArray := do
  if goesOn then
    modify fun d => { d with unfinished := some (command, done) }
    return Parts.bytes done.reverse
  modify fun d => { d with unfinished := none }
  match insertedText? done.reverse with
  | some cs => return Parts.bytes cs
  | none => throw .recursiveEscape

/-- The text of an insertion that begins with a character. -/
def textFrom (c : Option Char) : Parse ByteArray := do
  let command := (← get).commands.size
  if c = some '\\' then
    match ← advance with
    | none => do
      modify fun d => { d with unfinished := some (command, []) }
      return .empty
    | some '\n' => pure ()
    | d => back d
  else back c
  let (done, goesOn) ← rawText (← fuel) []
  textBytes command done goesOn

def insertedText : Parse ByteArray := do
  match ← afterBlanks with
  | none => throw .missingText
  | c => textFrom c

/-- A number that may stand after a command. -/
def option : Parse (Option Nat) := do
  let c ← afterBlanks
  if c.any Char.isDigit then return some (← number c)
  back c
  return none

def allow : Parse Unit := do
  if (← get).sandboxed then throw .forbidden

/-- The flags of a substitution. -/
structure Flags where
  folds : Bool := false
  byLines : Bool := false
  runs : Bool := false
  shown : Option Shown := none
  all : Bool := false
  number : Option Nat := none
  output : Option Nat := none

def flags : (fuel : Nat) → Flags → Parse Flags
  | 0, f => return f
  | fuel + 1, f => do
    let c ← advance
    match c with
    | none => return f
    | some '\n' => return f
    | some ';' => return f
    | some '\x7d' => do
      back c
      return f
    | some '#' => do
      back c
      return f
    | some 'i' => flags fuel { f with folds := true }
    | some 'I' => flags fuel { f with folds := true }
    | some 'm' => flags fuel { f with byLines := true }
    | some 'M' => flags fuel { f with byLines := true }
    | some 'e' => do
      allow
      flags fuel { f with runs := true }
    | some 'p' => do
      if f.shown.isSome then throw .severalPrints
      flags fuel { f with shown := some (if f.runs then .finally else .beforeRunning) }
    | some 'g' => do
      if f.all then throw .severalAll
      flags fuel { f with all := true }
    | some 'w' => do
      allow
      return { f with output := some (← output (← fileName)) }
    | some '\x0d' => do
      if (← advance) = some '\n' then return f
      throw .unknownFlag
    | some c =>
      if isBlank c then flags fuel f
      else if c.isDigit then do
        if f.number.isSome then throw .severalNumbers
        let n ← number (some c)
        if n = 0 then throw .zeroNumber
        flags fuel { f with number := some n }
      else throw .unknownFlag

def substitution : Parse Substitution := do
  let sign ← advance
  let pattern ← signed sign true .openSubstitution
  let replacement ← signed sign false .openSubstitution
  match replacementText? replacement with
  | none => throw .recursiveEscape
  | some text => do
    let parts := Parts.ofText text
    let f ← flags ((← fuel) + 1) {}
    let groups := (parts.filterMap (·.group)).foldl max 0
    return {
      pattern := ← expression pattern f.folds f.byLines groups
      parts
      number := f.number.getD 1
      all := f.all
      shown := if f.shown.isSome && !f.runs then .finally else f.shown.getD .never
      runs := f.runs
      output := f.output }

/-- The characters of one side of a translation. -/
def translated (cs : List Char) : Parse (List Char) := do
  match insertedText? cs with
  | some cs => return cs
  | none => throw .recursiveEscape

def translation : Parse (Array UInt8) := do
  let sign ← advance
  let source ← translated (← signed sign false .openTranslation)
  let target ← translated (← signed sign false .openTranslation)
  if source.length ≠ target.length then throw .differentLengths
  finish
  let usual := ((List.range 256).map (·.toUInt8)).toArray
  return (source.zip target).reverse.foldl
    (fun table (a, b) => table.setIfInBounds (Octet.toByte a).toNat (Octet.toByte b)) usual

/-- The numbers of a version. -/
def versionNumbers (text : String) : List Nat :=
  (text.splitOn ".").map fun part => Text.natOf 10 (part.toList.takeWhile Char.isDigit)

/-- Whether the first of two versions is the later one. -/
def isLater : List Nat → List Nat → Bool
  | a :: as, b :: bs => b < a || (a = b && isLater as bs)
  | _ :: _, [] => true
  | [], _ => false

def emit (scope : Scope) (negated : Bool) (action : Action) : Parse Unit :=
  modify fun d => { d with commands := d.commands.push ⟨scope, negated, action⟩ }

def isRange : Scope → Bool
  | .range _ _ _ => true
  | _ => false

/-- The action of a command that is a letter alone. -/
def plain? (c : Char) : Option Action :=
  match c with
  | '=' => some .showNumber
  | 'd' => some .delete
  | 'D' => some .deleteLine
  | 'F' => some .showName
  | 'g' => some .takeHeld
  | 'G' => some .appendHeld
  | 'h' => some .hold
  | 'H' => some .holdMore
  | 'n' => some .next
  | 'N' => some .appendNext
  | 'p' => some .print
  | 'P' => some .printLine
  | 'z' => some .clear
  | 'x' => some .exchange
  | _ => none

/-- A jump. Its target is known when all labels are. -/
def jump (scope : Scope) (negated : Bool) (action : Action) : Parse Unit := do
  let name ← label
  modify fun d => { d with jumps := (d.commands.size, name) :: d.jumps }
  emit scope negated action

/-- The action of a command that has something after its letter. -/
def action (scope : Scope) (c : Char) : Parse Action := do
  match c with
  | 'a' => return .append (← insertedText)
  | 'i' => return .insert (← insertedText)
  | 'c' => return .change (← insertedText)
  | 'e' => do
    allow
    let c ← afterBlanks
    if c.isNone ∨ c = some '\n' then return .run none
    return .run (some (← textFrom c))
  | 'l' => do
    let n ← option
    finish
    return .list n
  | 'L' => do
    let _ ← option
    finish
    return .listOld
  | 'q' => do
    if isRange scope then throw .secondAddress
    let n ← option
    finish
    return .quit (n.getD 0) false
  | 'Q' => do
    if isRange scope then throw .secondAddress
    let n ← option
    finish
    return .quit (n.getD 0) true
  | 'r' => do
    allow
    return .readFile (← fileName)
  | 'R' => do
    allow
    return .readLine (← input (← fileName))
  | 'w' => do
    allow
    return .write (← output (← fileName))
  | 'W' => do
    allow
    return .writeLine (← output (← fileName))
  | 's' => return .substitute (← substitution)
  | 'y' => return .translate (← translation)
  | c => throw (.unknownCommand c)

/-- A command that begins with a character. -/
def command (c : Char) : Parse Unit := do
  let (scope, c) ← scope (some c)
  let (negated, c) ←
    if c = some '!' then do
      let c ← afterBlanks
      if c = some '!' then throw .severalNegations
      pure (true, c)
    else pure (false, c)
  let bare := scope matches .all
  match c with
  | none => throw .missingCommand
  | some '#' => do
    if !bare then throw .addressOfComment
    let d ← get
    if d.isFirst ∧ d.place.taken = 1 ∧ d.rest.head? = some 'n' then
      set { d with quiet := true }
    let _ ← skip (· ≠ '\n') (← fuel)
  | some ':' => do
    if !bare then throw .addressOfLabel
    let name ← label
    if name = "" then throw .missingLabel
    modify fun d => { d with labels := (name, d.commands.size) :: d.labels }
  | some '\x7b' => do
    modify fun d => { d with blocks := (d.commands.size, d.place) :: d.blocks }
    emit scope negated (.block 0)
  | some '\x7d' => do
    match (← get).blocks with
    | [] => throw .closingBrace
    | (start, _) :: blocks => do
      if !bare then throw .addressOfBrace
      finish
      modify fun d =>
        { d with
          blocks
          commands := d.commands.modify start fun c => { c with action := .block d.commands.size } }
  | some 'b' => jump scope negated (.jump 0)
  | some 't' => jump scope negated (.jumpIfReplaced 0)
  | some 'T' => jump scope negated (.jumpUnlessReplaced 0)
  | some 'v' => do
    if isLater (versionNumbers (← label)) [4, 9] then throw .newerVersion
  | some c =>
    match plain? c with
    | some a => do
      finish
      emit scope negated a
    | none => do emit scope negated (← action scope c)

/-- The commands of a piece; each takes a character at least. -/
def commands : (fuel : Nat) → Parse Unit
  | 0 => return ()
  | fuel + 1 => do
    match ← skip (fun c => c = ';' || Text.isSpace c) (← Parse.fuel) with
    | none => return ()
    | some c => do
      command c
      commands fuel

/-- A command with another text. -/
def withText (text : ByteArray) (c : Command) : Command :=
  match c.action with
  | .append _ => { c with action := .append text }
  | .insert _ => { c with action := .insert text }
  | .change _ => { c with action := .change text }
  | .run _ => { c with action := .run (some text) }
  | _ => c

def replaceText (index : Nat) (text : ByteArray) : Parse Unit :=
  modify fun d => { d with commands := d.commands.modify index (withText text) }

/-- Reads a piece of a program. -/
def piece (source : Source) (text : String) : Parse Unit := do
  modify fun d => { d with place := { source }, rest := text.toList }
  if let some (index, done) := (← get).unfinished then
    let (done, goesOn) ← rawText (← fuel) done
    replaceText index (← textBytes index done goesOn)
  commands (← fuel)
  modify fun d => { d with isFirst := false }

/-- A jump with a target. -/
def withTarget (target : Nat) (c : Command) : Command :=
  match c.action with
  | .jump _ => { c with action := .jump target }
  | .jumpIfReplaced _ => { c with action := .jumpIfReplaced target }
  | .jumpUnlessReplaced _ => { c with action := .jumpUnlessReplaced target }
  | _ => c

def aim : List (Nat × String) → Parse Unit
  | [] => return ()
  | (index, name) :: rest => do
    let d ← get
    let target? := if name = "" then some d.commands.size else d.labels.lookup name
    match target? with
    | none => throw (.undefinedLabel name)
    | some target => do
      set { d with commands := d.commands.modify index (withTarget target) }
      aim rest

/-- The program, when all its pieces are read. -/
def script : Parse Script := do
  if let (_, place) :: _ := (← get).blocks then
    modify fun d => { d with place := { place with taken := 0 } }
    throw .openBrace
  if let some (index, done) := (← get).unfinished then
    if !done.isEmpty then replaceText index (Parts.bytes done.reverse)
  aim (← get).jumps
  let d ← get
  return {
    commands := d.commands
    ranges := d.ranges
    outputs := d.outputs
    inputs := d.inputs
    quiet := d.quiet
    place := { d.place with taken := 0 } }

end Parse

end TensorParity.Tool.Sed
