import TensorParity.Shell.Reading

/-!
Reads commands. A script is read one line at a time, as far as the line and the commands that it
begins go, so that what a line does can change how the next is read. Words are read by a stack of
quotations, because a quotation may hold a substitution that holds quotations of its own.
-/
namespace TensorParity.Shell

/-- How characters count. -/
inductive Mode where
  | plain
  | doubled
  | single
  | sum
  deriving DecidableEq

/-- A level of quotation. -/
structure Level where
  mode : Mode
  /-- Whether a backslash only quotes what would be special. -/
  doubled : Bool := false
  /-- Whether a double quotation inside a substitution is open. -/
  inner : Bool := false
  /-- How many substitutions are open. -/
  nested : Nat := 0
  /-- How many of them were opened inside double quotes. -/
  nestedDoubled : Nat := 0
  parentheses : Nat := 0
  /-- Whether the level ends with the substitution that began it. -/
  ownsBrace : Bool := false

/-- A part that is not closed yet, and what came before it, in reverse. -/
structure Unclosed where
  before : List Part
  /-- The parameter and its use; a sum has none. -/
  parameter : Option (String × Use)

/-- A word that is being read. -/
structure Scan where
  level : Level
  outer : List Level := []
  /-- The parts read, in reverse. -/
  parts : List Part := []
  unclosed : List Unclosed := []
  wasQuoted : Bool := false

namespace Scan

def put (s : Scan) (p : Part) : Scan := { s with parts := p :: s.parts }

/-- A character as it counts on the current level. -/
def putChar (s : Scan) (c : Char) : Scan :=
  if s.level.mode = .doubled ∨ s.level.mode = .single then s.put (.quoted c) else s.put (.char c)

/-- A quotation mark; among the lines of a script there are none. -/
def putMark (s : Scan) (inDocument : Bool) : Scan := if inDocument then s else s.put .mark

/-- Leaves a level. -/
def leave (s : Scan) : Scan :=
  match s.outer with
  | level :: outer => { s with level, outer }
  | [] => s

/-- Closes the innermost part. -/
def close (s : Scan) : Scan :=
  match s.unclosed with
  | { before, parameter := some (name, use) } :: unclosed =>
    { s with parts := .parameter name use s.parts.reverse :: before, unclosed }
  | { before, parameter := none } :: unclosed =>
    { s with parts := .sum s.parts.reverse :: before, unclosed }
  | [] => s

def openSum (s : Scan) : Scan :=
  { s with
    level := { mode := .sum, doubled := true }
    outer := s.level :: s.outer
    parts := []
    unclosed := ⟨s.parts, none⟩ :: s.unclosed }

/-- Opens a substitution whose word counts as `mode` says. -/
def openParameter (s : Scan) (name : String) (use : Use) (mode : Mode) : Scan :=
  let mode := if mode = .sum then .doubled else mode
  let own := mode ≠ s.level.mode || s.level.inner
  let level : Level :=
    if own then { mode, doubled := mode ≠ .plain, ownsBrace := true } else s.level
  let level :=
    { level with
      nested := level.nested + 1
      nestedDoubled := level.nestedDoubled + (if level.doubled then 1 else 0) }
  { s with
    level
    outer := if own then s.level :: s.outer else s.outer
    parts := []
    unclosed := ⟨s.parts, some (name, use)⟩ :: s.unclosed }

/-- A closing brace. -/
def brace (s : Scan) : Scan :=
  if s.level.inner ∨ s.level.nested = 0 then s.putChar '\x7d'
  else
    let level := { s.level with nested := s.level.nested - 1 }
    let s := { s with level }.close
    if level.nested = 0 ∧ level.ownsBrace then s.leave
    else { s with level := { level with nestedDoubled := level.nestedDoubled - 1 } }

/-- A double quotation mark that opens a quotation or closes one. -/
def toggle (s : Scan) (inDocument : Bool) : Scan :=
  let s :=
    if s.level.nested = 0 then s else { s with level := { s.level with inner := !s.level.inner } }
  s.putMark inDocument

end Scan

/-- A text that is read among the lines: the line that ends it, and whether tabs before its lines
are left out. -/
abbrev Document := List Char × Bool

/-- The line that begins here, without its line feed. -/
def lineOf (cs : List Char) : List Char := cs.takeWhile (· ≠ '\n')

/-- Names that are no letters. -/
def isSpecialName (c : Char) : Bool := c.isDigit || c ∈ ['!', '#', '$', '*', '-', '?', '@']

/-- The kind of a substitution by the sign after the name. -/
def changeOf? (c : Char) : Option Change :=
  match c with
  | '-' => some .otherwise
  | '+' => some .instead
  | '?' => some .require
  | '=' => some .assign
  | _ => none

namespace Parser

open Parse

/-- The names of the built-in commands that a function cannot replace. -/
def specialNames : List String :=
  [".", ":", "break", "continue", "eval", "exec", "exit", "export", "readonly", "return", "set",
    "shift", "times", "trap", "unset"]

/-- Letters and digits that pass a test, from `c` on, and the character after them. -/
def nameFrom (test : Char → Bool) : (fuel : Nat) → List Char → Option Char →
    Parse (String × Option Char)
  | 0, read, c => return (String.ofList read.reverse, c)
  | fuel + 1, read, c =>
    match c with
    | some d =>
      if test d then do nameFrom test fuel (d :: read) (← nextJoined fuel)
      else return (String.ofList read.reverse, c)
    | none => return (String.ofList read.reverse, c)

/-- What a substitution in braces asks, from the character after the name on. Yields the use, and
whether its word is read like plain text. -/
def useFrom (fuel : Nat) (c : Option Char) : Parse (Use × Bool) := do
  match c with
  | some '\x7d' => return (.value, false)
  | some '%' => trimmed false c
  | some '#' => trimmed true c
  | some ':' => do
    let d ← nextJoined fuel
    match d.bind changeOf? with
    | some change => return (.changed change true, false)
    | none => return (.bad, false)
  | some d =>
    match changeOf? d with
    | some change => return (.changed change false, false)
    | none => return (.bad, false)
  | none => return (.bad, false)
where
  trimmed (start : Bool) (c : Option Char) : Parse (Use × Bool) := do
    let d ← nextJoined fuel
    if d = c then return (.changed (.cut start true) false, true)
    else
      unread d
      return (.changed (.cut start false) false, true)

/-- What a substitution is after its dollar sign: a name, a use, and whether its word is read like
plain text. `braced` tells that a brace was read. -/
def parameterFrom (fuel : Nat) (braced : Bool) (c : Option Char) : Parse (String × Use × Bool) := do
  match c with
  | none =>
    return ("", .bad, false)
  | some d =>
    if isNameStart d then named false isNameChar c
    else if d.isDigit then
      if braced then named false Char.isDigit c
      else return (String.singleton d, .value, false)
    else if d = '\x7d' then
      unread c
      return ("", .bad, false)
    else
      let e ← nextJoined fuel
      if braced ∧ d = '#' then
        if e.any isNameChar then
          if e.any Char.isDigit then named true Char.isDigit e else named true isNameChar e
        else
          let f ← nextJoined fuel
          if e = some '\x7d' ∨ f ≠ some '\x7d' then
            unread f
            special '#' false e
          else
            match e with
            | some e => if isSpecialName e then special e true f else bad f
            | none => bad f
      else special d false e
where
  bad (c : Option Char) : Parse (String × Use × Bool) := do
    unread c
    return ("", .bad, false)
  /-- The use after a name. -/
  finish (name : String) (measured : Bool) (c : Option Char) : Parse (String × Use × Bool) := do
    if !braced then
      unread c
      return (name, .value, false)
    else if measured then
      unread c
      return (name, if c = some '\x7d' then .length else .bad, false)
    else
      let (use, plain) ← useFrom fuel c
      return (name, use, plain)
  named (measured : Bool) (test : Char → Bool) (c : Option Char) :
      Parse (String × Use × Bool) := do
    let (name, c) ← nameFrom test fuel [] c
    finish name measured c
  special (d : Char) (measured : Bool) (c : Option Char) : Parse (String × Use × Bool) := do
    if isSpecialName d then finish (String.singleton d) measured c else bad c

/-- The text up to a closing backquote. -/
def backquoted (doubled : Bool) : (fuel : Nat) → List Char → Parse (List Char)
  | 0, read => return read.reverse
  | fuel + 1, read => do
    match ← nextJoined fuel with
    | none => fail "EOF in backquote substitution"
    | some '`' => return read.reverse
    | some '\\' => do
      match ← next with
      | some c =>
        if c = '\\' ∨ c = '`' ∨ c = '$' ∨ (doubled ∧ c = '"') then
          backquoted doubled fuel (c :: read)
        else backquoted doubled fuel (c :: '\\' :: read)
      | none => fail "EOF in backquote substitution"
    | some c => do
      if c = '\n' then countLine
      backquoted doubled fuel (c :: read)

/-- A redirection after its first sign. `digit` is the descriptor before the sign. -/
def redirectFrom (fuel : Nat) (sign : Char) (digit : Option Nat) : Parse OpenRedirect := do
  let c ← nextJoined fuel
  if sign = '>' then
    let n := digit.getD 1
    match c with
    | some '>' => return .file n .append
    | some '|' => return .file n .clobber
    | some '&' => return .copy n
    | c => do
      unread c
      return .file n .write
  else
    let n := digit.getD 0
    match c with
    | some '<' => do
      let d ← nextJoined fuel
      if d = some '-' then return .document n true
      else
        unread d
        return .document n false
    | some '&' => return .copy n
    | some '>' => return .file n .update
    | c => do
      unread c
      return .file n .read

/-- The digit that a word is, if it is empty or a digit. -/
def digitOf? (w : Word) : Option (Option Nat) :=
  match w with
  | [] => some none
  | [.char c] => if c.isDigit then some (some (c.toNat - 48)) else none
  | _ => none

/-- What a descriptor becomes a copy of. -/
def sourceOf (w : Word) : Source :=
  match w with
  | [.char '-'] => .closed
  | [.char c] => if c.isDigit then .descriptor (c.toNat - 48) else .word w
  | _ => .word w

/-- The text of a word, whatever of it is quoted. -/
def bareChars (w : Word) : List Char :=
  w.filterMap fun part =>
    match part with
    | .char c => some c
    | .quoted c => some c
    | _ => none

/-- Whether a token ends a list of commands. -/
def endsList : Token → Bool
  | .finish => true
  | .operator text => text ∈ [")", ";;"]
  | .keyword text => text ∈ ["do", "done", "elif", "else", "esac", "fi", "then", "\x7d"]
  | _ => false

/-- Passes over the rest of a line. -/
def skipComment : (fuel : Nat) → Parse Unit
  | 0 => pure ()
  | fuel + 1 => do
    let c ← next
    if c = some '\n' ∨ c = none then unread c else skipComment fuel

def setLast (t : Token) : Parse Token := do
  modify fun s => { s with last := t }
  return t

/-- The second sign of an operator, or one that is another token. -/
def doubledOperator (fuel : Nat) (c : Char) (twice once : String) : Parse Token := do
  let d ← nextJoined fuel
  if d = some c then setLast (.operator twice)
  else
    unread d
    setLast (.operator once)

mutual

/-- A token, whatever it may stand for. -/
def rawToken : (fuel : Nat) → Parse Token
  | 0 => fail "script too long"
  | fuel + 1 => do
    if (← get).again then
      modify fun s => { s with again := false }
      return (← get).last
    match ← nextJoined fuel with
    | some ' ' => rawToken fuel
    | some '\t' => rawToken fuel
    | some '#' => do
      skipComment endless
      rawToken fuel
    | some '\n' => do
      countLine
      setLast .newline
    | none => setLast .finish
    | some '&' => doubledOperator fuel '&' "&&" "&"
    | some '|' => doubledOperator fuel '|' "||" "|"
    | some ';' => doubledOperator fuel ';' ";;" ";"
    | some '(' => setLast (.operator "(")
    | some ')' => setLast (.operator ")")
    | c => do
      unread c
      let s ← scan fuel none { level := { mode := .plain } }
      let c ← next
      match c.filter fun c => (c = '<' ∨ c = '>') ∧ !s.wasQuoted, digitOf? s.parts with
      | some sign, some digit => do
        let opened ← redirectFrom fuel sign digit
        modify fun r => { r with opened }
        setLast .redirect
      | _, _ => do
        unread c
        modify fun r => { r with word := s.parts.reverse, wasQuoted := s.wasQuoted }
        setLast .word

/-- Passes over line feeds and reads the texts after them. -/
def skipNewlines : (fuel : Nat) → Token → Parse Token
  | 0, t => return t
  | fuel + 1, t => do
    if t = .newline then
      documents fuel
      watch .none
      skipNewlines fuel (← rawToken fuel)
    else return t

/-- The next token; keywords and aliases are looked for as the watch says. -/
def token : (fuel : Nat) → (before : Watch) → Parse Token
  | 0, _ => fail "script too long"
  | fuel + 1, before => do
    let t ← rawToken fuel
    let t ← if before.newlines then skipNewlines fuel t else pure t
    let now := (← get).watch
    let w : Watch :=
      { aliases := before.aliases || now.aliases
        keywords := before.keywords || now.keywords
        newlines := before.newlines || now.newlines }
    watch .none
    let s ← get
    match if t = .word ∧ !s.wasQuoted then plainText? s.word else none with
    | none => return t
    | some text =>
      if w.keywords ∧ text ∈ keywords then setLast (.keyword text)
      else
        let free := !s.substitutes.any (·.name = text)
        match if w.aliases && free then s.aliases.lookup text else none with
        | none => return t
        | some value => do
          let cs := value.toList
          let endsBlank := cs.getLast?.any fun c => c = ' ' || c = '\t'
          if !cs.isEmpty then
            modify fun s => { s with substitutes := ⟨text, cs, endsBlank⟩ :: s.substitutes }
          token fuel w

/-- The next token under the current watch. -/
def read : (fuel : Nat) → Parse Token
  | 0 => fail "script too long"
  | fuel + 1 => do token fuel (← get).watch

/-- Reads the texts that were named on the line that ends here. -/
def documents : (fuel : Nat) → Parse Unit
  | 0 => fail "script too long"
  | fuel + 1 => do
    match (← get).pending with
    | [] => pure ()
    | p :: rest => do
      modify fun s => { s with pending := rest }
      let mode : Mode := if p.literal then .single else .doubled
      let s ← scan fuel (some (p.delimiter, p.trimmed)) { level := { mode, doubled := !p.literal } }
      modify fun r => { r with documents := (p.index, s.parts.reverse) :: r.documents }
      documents fuel

/-- Whether the text among the lines ends here. If it does, its last line is passed over; if not,
tabs before the line are passed over where they do not count. -/
def endsHere (d : Document) : Parse Bool := do
  let s ← get
  let line := s.rest.dropWhile fun c => d.2 && c = '\t'
  if lineOf line = d.1 then
    modify fun s => { s with rest := line.drop (d.1.length + 1), line := s.line + 1 }
    return true
  else
    modify fun s => { s with rest := line }
    return s.rest.isEmpty

/-- Reads a word up to its end, or the lines of a text. -/
def scan : (fuel : Nat) → Option Document → Scan → Parse Scan
  | 0, _, _ => fail "script too long"
  | fuel + 1, document, s => do
    match document with
    | some d => if ← endsHere d then return ← finishScan none document s
    | none => pure ()
    scanLine fuel document s

/-- Checks a word that is read to its end; the character after it is put back. -/
def finishScan (c : Option Char) (document : Option Document) (s : Scan) : Parse Scan := do
  unread c
  if s.level.mode = .sum then fail "Missing '))'"
  if s.level.mode ≠ .plain ∧ document.isNone then fail "Unterminated quoted string"
  if s.level.nested ≠ 0 then fail "Missing '\x7d'"
  return s

/-- Reads on from a place inside a line. -/
def scanLine : (fuel : Nat) → Option Document → Scan → Parse Scan
  | 0, _, _ => fail "script too long"
  | fuel + 1, document, s => do
    let inDocument := document.isSome
    let c ← if s.level.mode = .single then next else nextJoined fuel
    match c with
    | none => finishScan none document s
    | some '\n' =>
      if s.level.mode = .plain ∧ s.level.nested = 0 then finishScan c document s
      else do
        countLine
        scan fuel document (s.putChar '\n')
    | some d =>
      match s.level.mode with
      | .single =>
        if d = '\x27' ∧ !(inDocument ∧ s.level.nested = 0) then
          scanLine fuel document (endQuotation d inDocument s)
        else scanLine fuel document (s.put (.quoted d))
      | mode =>
        match d with
        | '\\' => do
          match ← next with
          | none => scanLine fuel document (s.put (.quoted '\\'))
          | some e =>
            let kept := s.level.doubled && e ≠ '\\' && e ≠ '`' && e ≠ '$'
              && (e ≠ '"' || (inDocument && s.level.nested = 0))
              && (e ≠ '\x7d' || s.level.nested = 0)
            let s := if kept then s.put (.quoted '\\') else s
            scanLine fuel document { s.put (.quoted e) with wasQuoted := true }
        | '$' => do scanLine fuel document (← dollar fuel s)
        | '`' =>
          if (← get).watch.delimiter then scanLine fuel document (s.putChar d)
          else do
            let text ← backquoted s.level.doubled endless []
            let body ← inner fuel text
            scanLine fuel document (s.put (.output body))
        | '\x7d' => scanLine fuel document s.brace
        | '\x27' =>
          if mode = .plain then
            scanLine fuel document
              ({ s with level := { s.level with mode := .single } }.putMark inDocument)
          else scanLine fuel document (s.putChar d)
        | '"' =>
          match mode with
          | .plain =>
            scanLine fuel document
              ({ s with level := { s.level with mode := .doubled, doubled := true } }.toggle
                inDocument)
          | .doubled =>
            if inDocument ∧ s.level.nested = 0 then scanLine fuel document (s.putChar d)
            else scanLine fuel document (endQuotation d inDocument s)
          | _ => scanLine fuel document (s.putChar d)
        | '(' =>
          if mode = .sum then
            scanLine fuel document
              ({ s with level := { s.level with parentheses := s.level.parentheses + 1 } }.putChar d)
          else if mode = .plain ∧ s.level.nested = 0 then finishScan c document s
          else scanLine fuel document (s.putChar d)
        | ')' =>
          if mode = .sum then
            if 0 < s.level.parentheses then
              let level := { s.level with parentheses := s.level.parentheses - 1 }
              scanLine fuel document ({ s with level }.putChar d)
            else do
              let e ← nextJoined fuel
              if e = some ')' then scanLine fuel document s.close.leave
              else
                unread e
                scanLine fuel document (s.putChar d)
          else if mode = .plain ∧ s.level.nested = 0 then finishScan c document s
          else scanLine fuel document (s.putChar d)
        | d =>
          if mode = .plain ∧ s.level.nested = 0 ∧ d ∈ ['<', '>', ';', '&', '|', ' ', '\t'] then
            finishScan c document s
          else scanLine fuel document (s.putChar d)

/-- The mark that ends a quotation. -/
def endQuotation (c : Char) (inDocument : Bool) (s : Scan) : Scan :=
  let level :=
    if s.level.nestedDoubled = 0 then { s.level with mode := .plain, doubled := false } else s.level
  let s := { s with level, wasQuoted := true }
  if c = '"' then s.toggle inDocument else s.putMark inDocument

/-- What follows a dollar sign. -/
def dollar : (fuel : Nat) → Scan → Parse Scan
  | 0, _ => fail "script too long"
  | fuel + 1, s => do
    let c ← nextJoined fuel
    let begins := c.any fun c => c = '(' || c = '\x7b' || isNameStart c || isSpecialName c
    if (← get).watch.delimiter ∨ !begins then
      unread c
      return s.putChar '$'
    else if c = some '(' then
      let d ← nextJoined fuel
      if d = some '(' then return s.openSum
      else
        unread d
        let r ← get
        modify fun r => { r with pending := [] }
        let body ← list fuel 2
        if (← read fuel) ≠ .operator ")" then unexpected (some (.operator ")"))
        documents fuel
        modify fun now =>
          { now with
            pending := r.pending, last := r.last, word := r.word, wasQuoted := r.wasQuoted
            again := false, watch := .none }
        return s.put (.output body)
    else
      let braced := c = some '\x7b'
      let c ← if braced then nextJoined fuel else pure c
      let (name, use, plain) ← parameterFrom fuel braced c
      match use with
      | .value => return s.put (.parameter name .value [])
      | use => return s.openParameter name use (if plain then .plain else s.level.mode)

/-- The command in a text of its own. -/
def inner : (fuel : Nat) → List Char → Parse (Option Command)
  | 0, _ => fail "script too long"
  | fuel + 1, text => do
    let r ← get
    set { r with
      rest := text, line := 1, substitutes := [], pending := [], again := false, watch := .none }
    let body ← list fuel 2
    modify fun now =>
      { r with named := now.named, documents := now.documents, again := false }
    return body

/-- Commands up to the end of a list. A list of kind 1 ends with its line; one of kind 2 may be
empty. -/
def list : (fuel : Nat) → (kind : Nat) → Parse (Option Command)
  | 0, _ => fail "script too long"
  | fuel + 1, kind => listFrom fuel (kind = 1) (kind = 2) none

/-- Commands after those already read. -/
def listFrom : (fuel : Nat) → (line mayEnd : Bool) → Option Command → Parse (Option Command)
  | 0, _, _, _ => fail "script too long"
  | fuel + 1, line, mayEnd, before => do
    watch { aliases := true, keywords := true, newlines := !line }
    let t ← read fuel
    if t = .newline then
      documents fuel
      return before
    else if t = .finish then
      documents fuel
      back
      modify fun s => { s with last := .finish }
      return before
    else
      back
      if mayEnd ∧ !line ∧ endsList t then return before
      let n ← andOr fuel
      let t ← read fuel
      let n :=
        if t = .operator "&" then
          match n with
          | .pipe stages _ => .pipe stages true
          | .redirected line body redirects => .background line body redirects
          | n => .background 0 n []
        else n
      let both :=
        match before with
        | none => n
        | some first => .sequence first n
      if t = .finish then
        documents fuel
        back
        return some both
      else if t = .newline then
        back
        listFrom fuel line true (some both)
      else if t = .operator "&" ∨ t = .operator ";" then listFrom fuel line true (some both)
      else
        if line then unexpected
        back
        return some both

/-- Pipelines that depend on each other's outcome, from left to right. -/
def andOr : (fuel : Nat) → Parse Command
  | 0 => fail "script too long"
  | fuel + 1 => do andOrFrom fuel (← pipeline fuel)

def andOrFrom : (fuel : Nat) → Command → Parse Command
  | 0, _ => fail "script too long"
  | fuel + 1, first => do
    let t ← read fuel
    if t = .operator "&&" then
      watch .further
      andOrFrom fuel (.both first (← pipeline fuel))
    else if t = .operator "||" then
      watch .further
      andOrFrom fuel (.either first (← pipeline fuel))
    else
      back
      return first

/-- Commands of which each reads what the one before it prints. -/
def pipeline : (fuel : Nat) → Parse Command
  | 0 => fail "script too long"
  | fuel + 1 => do
    let negated := (← read fuel) = .keyword "!"
    if negated then watch .command else back
    let first ← command fuel
    let body ←
      if (← read fuel) = .operator "|" then do
        let more ← stages fuel
        pure (.pipe (first :: more) false)
      else pure first
    back
    return if negated then .negated body else body

/-- The stages after a bar. -/
def stages : (fuel : Nat) → Parse (List Command)
  | 0 => fail "script too long"
  | fuel + 1 => do
    watch .further
    let c ← command fuel
    if (← read fuel) = .operator "|" then return c :: (← stages fuel) else return [c]

/-- Reads a token that must be a certain one. -/
def expect : (fuel : Nat) → Token → Parse Unit
  | 0, _ => fail "script too long"
  | fuel + 1, wanted => do
    if (← read fuel) ≠ wanted then unexpected (some wanted)

/-- A list inside a command. Only at the end of the script it is empty, and then the word that must
follow it is missed. -/
def body : (fuel : Nat) → Parse Command
  | 0 => fail "script too long"
  | fuel + 1 => do return (← list fuel 0).getD (.simple 0 [] [] [])

/-- One command with its redirections. -/
def command : (fuel : Nat) → Parse Command
  | 0 => fail "script too long"
  | fuel + 1 => do
    let line := (← get).line
    let t ← read fuel
    match t with
    | .word => do
      back
      simple fuel
    | .redirect => do
      back
      simple fuel
    | .operator "(" => do
      let c ← body fuel
      expect fuel (.operator ")")
      watch .command
      return .subshell line c (← redirects fuel)
    | .keyword "\x7b" => do
      let c ← body fuel
      expect fuel (.keyword "\x7d")
      closing fuel line c
    | .keyword "if" => do
      let c ← branch fuel
      expect fuel (.keyword "fi")
      closing fuel line c
    | .keyword "while" => do
      let c ← loop fuel true
      closing fuel line c
    | .keyword "until" => do
      let c ← loop fuel false
      closing fuel line c
    | .keyword "for" => do
      let c ← each fuel line
      closing fuel line c
    | .keyword "case" => do
      let c ← choice fuel line
      closing fuel line c
    | _ => unexpected

/-- A compound command with the redirections after it. -/
def closing : (fuel : Nat) → (line : Nat) → Command → Parse Command
  | 0, _, _ => fail "script too long"
  | fuel + 1, line, c => do
    watch .command
    match ← redirects fuel with
    | [] => return c
    | rs => return .redirected line c rs

def redirects : (fuel : Nat) → Parse (List Redirect)
  | 0 => fail "script too long"
  | fuel + 1 => do
    if (← read fuel) = .redirect then
      let r ← target fuel
      return r :: (← redirects fuel)
    else
      back
      return []

/-- The target of the redirection that was just read. -/
def target : (fuel : Nat) → Parse Redirect
  | 0 => fail "script too long"
  | fuel + 1 => do
    let opened := (← get).opened
    match opened with
    | .document n trimmed => do
      watch { delimiter := true }
      if (← read fuel) ≠ .word then unexpected
      let s ← get
      let p : Pending := ⟨s.named, bareChars s.word, trimmed, s.wasQuoted⟩
      set { s with named := s.named + 1, pending := s.pending ++ [p] }
      return .document n p.index
    | .file n direction => do
      if (← read fuel) ≠ .word then unexpected
      return .file n direction (← get).word
    | .copy n => do
      if (← read fuel) ≠ .word then unexpected
      return .copy n (sourceOf (← get).word)

/-- A simple command, or the definition of a function. -/
def simple : (fuel : Nat) → Parse Command
  | 0 => fail "script too long"
  | fuel + 1 => do simpleFrom fuel (← get).line true [] [] []

/-- A simple command after what was read of it, in reverse. `first` tells that no word was read that
is not an assignment. -/
def simpleFrom : (fuel line : Nat) → (first : Bool) → List Word → List Word → List Redirect →
    Parse Command
  | 0, _, _, _, _, _ => fail "script too long"
  | fuel + 1, line, first, assignments, words, redirects => do
    watch (if first then { aliases := true } else .none)
    match ← read fuel with
    | .word => do
      let w := (← get).word
      if first ∧ (assignment? w).isSome then
        simpleFrom fuel line first (w :: assignments) words redirects
      else simpleFrom fuel line false assignments (w :: words) redirects
    | .redirect => do
      let r ← target fuel
      simpleFrom fuel line first assignments words (r :: redirects)
    | .operator "(" =>
      match assignments, words, redirects with
      | [], [w], [] => do
        expect fuel (.operator ")")
        match (plainText? w).filter fun name => isName name && name ∉ specialNames with
        | none => fail "Bad function name"
        | some name => do
          watch .further
          let line := (← get).line
          return .define line name (← command fuel)
      | _, _, _ => do
        back
        return .simple line assignments.reverse words.reverse redirects.reverse
    | _ => do
      back
      return .simple line assignments.reverse words.reverse redirects.reverse

/-- What follows the word that begins a branch, up to the word that ends it. -/
def branch : (fuel : Nat) → Parse Command
  | 0 => fail "script too long"
  | fuel + 1 => do
    let test ← body fuel
    expect fuel (.keyword "then")
    let yes ← body fuel
    match ← read fuel with
    | .keyword "elif" => do return .branch test yes (some (← branch fuel))
    | .keyword "else" => do return .branch test yes (some (← body fuel))
    | _ => do
      back
      return .branch test yes none

def loop : (fuel : Nat) → (wanted : Bool) → Parse Command
  | 0, _ => fail "script too long"
  | fuel + 1, wanted => do
    let test ← body fuel
    expect fuel (.keyword "do")
    let c ← body fuel
    expect fuel (.keyword "done")
    return .loop wanted test c

/-- The words of a loop, up to the token after them. -/
def words : (fuel : Nat) → Parse (List Word)
  | 0 => fail "script too long"
  | fuel + 1 => do
    if (← read fuel) = .word then
      let w := (← get).word
      return w :: (← words fuel)
    else return []

def each : (fuel line : Nat) → Parse Command
  | 0, _ => fail "script too long"
  | fuel + 1, line => do
    let t ← read fuel
    let s ← get
    match if t = .word ∧ !s.wasQuoted then (plainText? s.word).filter isName else none with
    | none => fail "Bad for loop variable"
    | some name => do
      watch .further
      let values ←
        if (← read fuel) = .keyword "in" then do
          let ws ← words fuel
          let t := (← get).last
          if t ≠ .newline ∧ t ≠ .operator ";" then unexpected
          pure ws
        else do
          if (← get).last ≠ .operator ";" then back
          pure [[.mark, .parameter "@" .value [], .mark]]
      watch .further
      expect fuel (.keyword "do")
      let c ← body fuel
      expect fuel (.keyword "done")
      return .each line name values c

/-- What follows the word that begins a choice. -/
def choice : (fuel line : Nat) → Parse Command
  | 0, _ => fail "script too long"
  | fuel + 1, line => do
    expect fuel .word
    let subject := (← get).word
    watch .further
    expect fuel (.keyword "in")
    return .choose line subject (← arms fuel)

/-- The arms of a choice and the word that ends it. -/
def arms : (fuel : Nat) → Parse (List (List Word × Option Command))
  | 0 => fail "script too long"
  | fuel + 1 => do
    watch { keywords := true, newlines := true }
    let t ← read fuel
    if t = .keyword "esac" then return []
    if t = .operator "(" then
      let _ ← read fuel
    let patterns ← alternatives fuel
    let c ← list fuel 2
    watch { keywords := true, newlines := true }
    let t ← read fuel
    if t = .keyword "esac" then return [(patterns, c)]
    if t ≠ .operator ";;" then unexpected (some (.operator ";;"))
    return (patterns, c) :: (← arms fuel)

/-- The patterns of an arm, of which the first was just read, up to the parenthesis. -/
def alternatives : (fuel : Nat) → Parse (List Word)
  | 0 => fail "script too long"
  | fuel + 1 => do
    let s ← get
    let w : Word :=
      match s.last with
      | .keyword text => text.toList.map Part.char
      | _ => s.word
    match ← read fuel with
    | .operator "|" => do
      let _ ← read fuel
      return w :: (← alternatives fuel)
    | .operator ")" => return [w]
    | _ => unexpected (some (.operator ")"))

end

/-- A text read as if it stood between double quotes. -/
def ofQuoted (text : String) : Option Word :=
  let whole : Parse Scan :=
    scan endless (some (['\x00'], false)) { level := { mode := .doubled, doubled := true } }
  match whole.run { rest := text.toList } with
  | .ok (s, _) => some s.parts.reverse
  | .error _ => none

end Parser

end TensorParity.Shell
