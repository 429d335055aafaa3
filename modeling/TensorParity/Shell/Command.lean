/-!
Scripts as trees of commands, and words as the parts that they are written in. Texts are octet
texts: a script is read byte by byte.
-/
namespace TensorParity.Shell

/-- What is cut off a value, or put in place of it. -/
inductive Change where
  /-- A word for a parameter that is not set. -/
  | otherwise
  /-- A word for a parameter that is set. -/
  | instead
  /-- A word that a parameter is set to if it is not set. -/
  | assign
  /-- A complaint if the parameter is not set. -/
  | require
  /-- The shortest or longest beginning or ending with a pattern is cut off. -/
  | cut (start longest : Bool)
  deriving DecidableEq

/-- What is asked of a parameter. -/
inductive Use where
  | value
  | length
  | changed (change : Change) (orEmpty : Bool)
  /-- Something that no parameter can answer. -/
  | bad
  deriving DecidableEq

/-- Which file a redirection opens, and how. -/
inductive Direction where
  | read
  | write
  | append
  | update
  /-- Writes also over what must not be written over. -/
  | clobber
  deriving DecidableEq

mutual

inductive Part where
  | char (c : Char)
  /-- A character that stands for itself. -/
  | quoted (c : Char)
  /-- A quotation mark: a quoted stretch begins or ends. -/
  | mark
  | parameter (name : String) (use : Use) (word : List Part)
  /-- What a command prints. -/
  | output (body : Option Command)
  /-- What a sum comes to. -/
  | sum (expression : List Part)

inductive Redirect where
  | file (descriptor : Nat) (direction : Direction) (name : List Part)
  | copy (descriptor : Nat) (source : Source)
  /-- A text that stands among the lines of the script. -/
  | document (descriptor : Nat) (index : Nat)

/-- What a descriptor becomes a copy of. -/
inductive Source where
  | descriptor (n : Nat)
  | closed
  | word (w : List Part)

inductive Command where
  | simple (line : Nat) (assignments words : List (List Part)) (redirects : List Redirect)
  | pipe (stages : List Command) (background : Bool)
  | sequence (first second : Command)
  | both (first second : Command)
  | either (first second : Command)
  | negated (body : Command)
  | background (line : Nat) (body : Command) (redirects : List Redirect)
  | subshell (line : Nat) (body : Command) (redirects : List Redirect)
  | redirected (line : Nat) (body : Command) (redirects : List Redirect)
  | branch (test yes : Command) (no : Option Command)
  /-- Runs the body as long as the test ends as wanted. -/
  | loop (wanted : Bool) (test body : Command)
  | each (line : Nat) (name : String) (words : List (List Part)) (body : Command)
  /-- Runs the first arm with a pattern that the subject matches. -/
  | choose (line : Nat) (subject : List Part) (arms : List (List (List Part) × Option Command))
  | define (line : Nat) (name : String) (body : Command)

end

abbrev Word := List Part

/-- The character of a part that is nothing but a character. -/
def Part.plain? : Part → Option Char
  | char c => some c
  | _ => none

/-- The text of a word that is written without quotes and expansions. -/
def plainText? (w : Word) : Option String := (w.mapM Part.plain?).map String.ofList

def isNameStart (c : Char) : Bool := c.isAlpha || c = '_'

def isNameChar (c : Char) : Bool := c.isAlphanum || c = '_'

/-- Whether a text can name a variable. -/
def isName (text : String) : Bool :=
  match text.toList with
  | c :: rest => isNameStart c && rest.all isNameChar
  | [] => false

/-- A word that assigns: its name, and the parts after the equals sign. -/
def assignment? (w : Word) : Option (String × Word) :=
  let name := w.takeWhile fun part => part.plain?.any isNameChar
  match plainText? name, w.drop name.length with
  | some text, Part.char '=' :: value => if isName text then some (text, value) else none
  | _, _ => none

end TensorParity.Shell
