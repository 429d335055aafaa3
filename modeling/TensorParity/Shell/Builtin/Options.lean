import TensorParity.Shell.State

/-!
The options before the arguments of a built-in command, and texts in quotes that a shell can read
back.
-/
namespace TensorParity.Shell

namespace Options

/-- Whether a letter is an option, and whether it takes an argument. -/
def find? (spec : List Char) (letter : Char) : Option Bool :=
  match spec with
  | [] => none
  | c :: ':' :: rest => if c = letter then some true else find? rest letter
  | c :: rest => if c = letter then some false else find? rest letter

/-- Reads the letters of one word, and the rest of the words. -/
def letters (spec : List Char) : List Char → List String → Act (List (Char × String) × List String)
  | [], words => return ([], words)
  | c :: rest, words => do
    match find? spec c with
    | none => Act.fail s!"Illegal option -{c}"
    | some false => do
      let (found, words) ← letters spec rest words
      return ((c, "") :: found, words)
    | some true =>
      match rest, words with
      | [], word :: words => return ([(c, word)], words)
      | [], [] => Act.fail s!"No arg for -{c} option"
      | rest, words => return ([(c, String.ofList rest)], words)

/-- Reads words as long as they are options; yields the options with their arguments, and the other
words. -/
def read (spec : List Char) : (fuel : Nat) → List String →
    Act (List (Char × String) × List String)
  | 0, words => return ([], words)
  | fuel + 1, words =>
    match words with
    | [] => return ([], [])
    | word :: rest =>
      match word.toList with
      | ['-', '-'] => return ([], rest)
      | '-' :: c :: cs => do
        let (first, rest) ← letters spec (c :: cs) rest
        let (more, rest) ← read spec fuel rest
        return (first ++ more, rest)
      | _ => return ([], words)

end Options

/-- The options among the words of a built-in command. -/
def options (spec : String) (words : List String) : Act (List (Char × String) × List String) :=
  Options.read spec.toList (words.length + 1) words

/-- The words of a built-in command that takes no options. -/
def noOptions (words : List String) : Act (List String) := do return (← options "" words).2

/-- A text in quotes. Quotation marks stand in marks of the other kind. -/
def inQuotes (text : String) : String :=
  let rec go : (fuel : Nat) → List Char → String
    | 0, _ => ""
    | fuel + 1, cs =>
      let plain := cs.takeWhile (· ≠ '\x27')
      let rest := cs.drop plain.length
      let first := "\x27" ++ String.ofList plain ++ "\x27"
      let marks := rest.takeWhile (· = '\x27')
      if marks.isEmpty then first
      else
        let after := rest.drop marks.length
        let both := first ++ "\"" ++ String.ofList marks ++ "\""
        if after.isEmpty then both else both ++ go fuel after
  go (text.length + 1) text.toList

end TensorParity.Shell
