import TensorParity.Text.CharClass

/-!
How tools name things in complaints: between quotation marks, so that a shell could read them back,
or with escapes for what cannot be shown.
-/
namespace TensorParity.Tool

/-- Three octal digits after a backslash. -/
def octalEscape (c : Char) : List Char :=
  let n := c.toNat
  let digit (k : Nat) : Char := Char.ofNat (48 + k % 8)
  ['\\', digit (n / 64), digit (n / 8), digit n]

/-- The escape of a character that cannot be shown. -/
def shownEscape (c : Char) : List Char :=
  match c with
  | '\x07' => ['\\', 'a']
  | '\x08' => ['\\', 'b']
  | '\x0c' => ['\\', 'f']
  | '\n' => ['\\', 'n']
  | '\r' => ['\\', 'r']
  | '\t' => ['\\', 't']
  | '\x0b' => ['\\', 'v']
  | c => octalEscape c

/-- A text between quotation marks, with escapes. -/
def quoted (text : String) : String :=
  let body := text.toList.flatMap fun c =>
    if c = '\x27' ∨ c = '\\' then ['\\', c]
    else if Text.isPrint c then [c]
    else shownEscape c
  "\x27" ++ String.ofList body ++ "\x27"

/-- Characters that mean something to a shell. -/
def isSpecial (c : Char) : Bool := !Text.isPrint c || "\x27\"\\ !$&()*:;<=>?[^`|".contains c

/-- A text as a shell would read it: what cannot be shown stands in quotation marks of another
kind. -/
def shellBody (text : List Char) : (escaping : Bool) → List Char
  | escaping =>
    match text with
    | [] => []
    | c :: rest =>
      if Text.isPrint c then
        let shown :=
          if c = '\x27' then
            if escaping then ['\x27', '\\', '\x27'] else ['\x27', '\\', '\x27', '\x27']
          else if escaping then ['\x27', '\x27', c]
          else [c]
        shown ++ shellBody rest false
      else
        let opened := if escaping then [] else ['\x27', '$', '\x27']
        opened ++ shownEscape c ++ shellBody rest true

/-- A text between quotation marks that a shell could read. -/
def shellQuoted (text : String) : String :=
  let cs := text.toList
  let plain (c : Char) : Bool := c.isAlphanum || "%+,-./:=@]_ \x27".contains c
  let inside :=
    match cs with
    | '#' :: rest => rest
    | '~' :: rest => rest
    | cs => cs
  if '\x27' ∈ cs ∧ inside.all plain then "\"" ++ text ++ "\""
  else "\x27" ++ String.ofList (shellBody cs false) ++ "\x27"

/-- A text that a shell could read, between quotation marks only where it needs them. -/
def shellText (text : String) : String :=
  let cs := text.toList
  let leads :=
    match cs with
    | [] => true
    | c :: rest => c = '#' || c = '~' || ((c = '\x7b' || c = '\x7d') && rest.isEmpty)
  if leads || cs.any isSpecial then shellQuoted text else text

end TensorParity.Tool
