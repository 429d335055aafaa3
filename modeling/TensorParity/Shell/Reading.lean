import TensorParity.Shell.Command

/-!
How a script is read: its characters with the aliases that are put in place of words, the line that
reading has come to, and the last token.
-/
namespace TensorParity.Shell

/-- Why a script cannot be read, and on which line. -/
structure ScriptFault where
  line : Nat
  text : String
  /-- Whether reading came to the end of the script. -/
  atEnd : Bool

inductive Token where
  | finish
  | newline
  | operator (text : String)
  | redirect
  | word
  | keyword (text : String)
  deriving DecidableEq

/-- Words that begin, join and end commands. -/
def keywords : List String :=
  ["!", "case", "do", "done", "elif", "else", "esac", "fi", "for", "if", "in", "then", "until",
    "while", "\x7b", "\x7d"]

def quotedText (text : String) : String := "\"" ++ text ++ "\""

/-- How a complaint names a token. -/
def Token.text : Token → String
  | finish => "end of file"
  | newline => "newline"
  | operator text => quotedText text
  | redirect => "redirection"
  | word => "word"
  | keyword text => quotedText text

/-- What is looked for when the next token is read. -/
structure Watch where
  aliases : Bool := false
  keywords : Bool := false
  /-- Whether line feeds are passed over. -/
  newlines : Bool := false
  /-- Whether the word ends a text that is written among the lines. -/
  delimiter : Bool := false

def Watch.none : Watch := {}

/-- Keywords and aliases count. -/
def Watch.command : Watch := { aliases := true, keywords := true }

/-- Keywords and aliases count, and line feeds do not. -/
def Watch.further : Watch := { aliases := true, keywords := true, newlines := true }

/-- A text that the lines after the current one hold. -/
structure Pending where
  index : Nat
  delimiter : List Char
  /-- Whether tabs before its lines are left out. -/
  trimmed : Bool
  /-- Whether the text stands for itself. -/
  literal : Bool

/-- An alias that is being read. -/
structure Substitute where
  name : String
  rest : List Char
  /-- Whether the word after it may be an alias too. -/
  endsBlank : Bool

/-- A redirection whose target is still to be read. -/
inductive OpenRedirect where
  | file (descriptor : Nat) (direction : Direction)
  | copy (descriptor : Nat)
  | document (descriptor : Nat) (trimmed : Bool)

structure Reading where
  rest : List Char
  line : Nat := 1
  aliases : List (String × String) := []
  substitutes : List Substitute := []
  watch : Watch := {}
  /-- The last token, and the word or redirection that it is. -/
  last : Token := .newline
  word : Word := []
  /-- Whether any part of the last word was quoted. -/
  wasQuoted : Bool := false
  opened : OpenRedirect := .copy 0
  /-- Whether the last token is to be read again. -/
  again : Bool := false
  pending : List Pending := []
  /-- How many texts among the lines were named so far. -/
  named : Nat := 0
  /-- The texts among the lines that were read. -/
  documents : List (Nat × Word) := []
  /-- Whether reading came to the end of the script. -/
  atEnd : Bool := false

abbrev Parse := StateT Reading (Except ScriptFault)

namespace Parse

/-- More steps than reading any script takes. -/
def endless : Nat := 1000000000

def fail {α : Type} (text : String) : Parse α := do
  let s ← get
  throw ⟨s.line, "Syntax error: " ++ text, s.atEnd⟩

/-- The last token cannot stand here, though another could. -/
def unexpected {α : Type} (wanted : Option Token := none) : Parse α := do
  let found := (← get).last.text ++ " unexpected"
  match wanted with
  | some token => fail (found ++ s!" (expecting {token.text})")
  | none => fail found

def watch (w : Watch) : Parse Unit := modify fun s => { s with watch := w }

/-- The last token will be read again. -/
def back : Parse Unit := modify fun s => { s with again := true }

def countLine : Parse Unit := modify fun s => { s with line := s.line + 1 }

/-- The next character. Where an alias ends, what follows it may be an alias too. -/
def next : Parse (Option Char) := fun s =>
  let rec go (watch : Watch) : List Substitute → Option Char × Reading
    | { rest := c :: rest, name, endsBlank } :: outer =>
      (some c, { s with watch, substitutes := ⟨name, rest, endsBlank⟩ :: outer })
    | { rest := [], endsBlank, .. } :: outer =>
      go { watch with aliases := watch.aliases || endsBlank } outer
    | [] =>
      match s.rest with
      | c :: rest => (some c, { s with watch, rest, substitutes := [] })
      | [] => (none, { s with watch, substitutes := [], atEnd := true })
  .ok (go s.watch s.substitutes)

/-- Puts a character back. -/
def unread (c : Option Char) : Parse Unit :=
  match c with
  | none => pure ()
  | some c => modify fun s =>
    match s.substitutes with
    | top :: outer => { s with substitutes := { top with rest := c :: top.rest } :: outer }
    | [] => { s with rest := c :: s.rest }

/-- The next character after line feeds that a backslash takes away. -/
def nextJoined : (fuel : Nat) → Parse (Option Char)
  | 0 => next
  | fuel + 1 => do
    let c ← next
    if c = some '\\' then
      let d ← next
      if d = some '\n' then
        countLine
        nextJoined fuel
      else
        unread d
        return c
    else return c

end Parse

end TensorParity.Shell
