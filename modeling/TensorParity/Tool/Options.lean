import TensorParity.Tool.Basic

/-!
The options of tools: letters that may stand together in a word, and long names that may be cut
short. Options may stand between operands, unless a tool runs what follows its first operand.
-/
namespace TensorParity.Tool

/-- Whether an option is followed by an argument. -/
inductive Takes where
  | nothing
  | argument
  /-- Only in the same word. -/
  | perhaps
  deriving DecidableEq

/-- An option. Its first name is what the tool knows it by. -/
structure OptionName where
  name : String
  takes : Takes := .nothing
  /-- Names of a single character are letters, others are long names. -/
  others : List String := []

/-- What stands on a command line. -/
structure Given where
  /-- The options with their arguments, in their order. -/
  options : List (String × String) := []
  operands : List String := []
  /-- What is wrong with the option after those. -/
  fault : Option String := none

namespace OptionName

def names (o : OptionName) : List String := o.name :: o.others

def isLong (name : String) : Bool := 1 < name.length

/-- The option of a letter. -/
def ofLetter? (table : List OptionName) (letter : Char) : Option OptionName :=
  table.find? fun o => o.names.contains (String.singleton letter)

/-- The long names that begin so. -/
def candidates (table : List OptionName) (start : String) : List (String × OptionName) :=
  table.flatMap fun o =>
    (o.names.filter fun name => isLong name && name.startsWith start).map (·, o)

/-- The option of a long name that may be cut short, or what is wrong with it. -/
def ofLong (table : List OptionName) (written : String) : Except String (String × OptionName) :=
  let found := candidates table written
  match found.find? (·.1 = written) with
  | some exact => .ok exact
  | none =>
    match found with
    | [] => .error s!"unrecognized option '--{written}'"
    | first :: rest =>
      if rest.all fun other => other.2.name = first.2.name then .ok first
      else
        let listed := String.join (found.map fun (name, _) => s!" '--{name}'")
        .error s!"option '--{written}' is ambiguous; possibilities:{listed}"

end OptionName

namespace Given

def put (g : Given) (o : OptionName) (argument : String) : Given :=
  { g with options := g.options ++ [(o.name, argument)] }

/-- The letters of one word. Yields the words that are left. -/
def letters (table : List OptionName) : List Char → List String → Given → Given × List String
  | [], words, g => (g, words)
  | c :: rest, words, g =>
    match OptionName.ofLetter? table c with
    | none => ({ g with fault := some s!"invalid option -- '{c}'" }, words)
    | some o =>
      match o.takes, rest, words with
      | .nothing, rest, words => letters table rest words (g.put o "")
      | .perhaps, rest, words => (g.put o (String.ofList rest), words)
      | .argument, [], [] =>
        ({ g with fault := some s!"option requires an argument -- '{c}'" }, words)
      | .argument, [], word :: words => (g.put o word, words)
      | .argument, rest, words => (g.put o (String.ofList rest), words)

/-- One long option. Yields the words that are left. -/
def long (table : List OptionName) (body : String) (words : List String) (g : Given) :
    Given × List String :=
  let cs := body.toList
  let written := String.ofList (cs.takeWhile (· ≠ '='))
  let argument? := if '=' ∈ cs then some ((cs.dropWhile (· ≠ '=')).drop 1) else none
  match OptionName.ofLong table written with
  | .error fault => ({ g with fault := some fault }, words)
  | .ok (name, o) =>
    match o.takes, argument?, words with
    | .nothing, some _, words =>
      ({ g with fault := some s!"option '--{name}' doesn't allow an argument" }, words)
    | .nothing, none, words => (g.put o "", words)
    | _, some argument, words => (g.put o (String.ofList argument), words)
    | .perhaps, none, words => (g.put o "", words)
    | .argument, none, word :: words => (g.put o word, words)
    | .argument, none, [] =>
      ({ g with fault := some s!"option '--{name}' requires an argument" }, words)

/-- Reads words; each round takes at least one. -/
def readWords (table : List OptionName) (mixed : Bool) : (fuel : Nat) → List String → Given → Given
  | 0, _, g => g
  | fuel + 1, words, g =>
    match words with
    | [] => g
    | word :: rest =>
      match word.toList with
      | ['-', '-'] => { g with operands := g.operands ++ rest }
      | '-' :: '-' :: body =>
        let (g, rest) := long table (String.ofList body) rest g
        if g.fault.isSome then g else readWords table mixed fuel rest g
      | '-' :: c :: cs =>
        let (g, rest) := letters table (c :: cs) rest g
        if g.fault.isSome then g else readWords table mixed fuel rest g
      | _ =>
        if mixed then readWords table mixed fuel rest { g with operands := g.operands ++ [word] }
        else { g with operands := g.operands ++ words }

/-- Reads a command line. `mixed` says that options may stand between operands. -/
def read (table : List OptionName) (mixed : Bool) (words : List String) : Given :=
  readWords table mixed (words.length + 1) words {}

/-- Whether an option was given. -/
def has (g : Given) (name : String) : Bool := g.options.any (·.1 = name)

/-- The argument of the last option of a name. -/
def last? (g : Given) (name : String) : Option String :=
  (g.options.reverse.find? (·.1 = name)).map (·.2)

end Given

namespace Act

/-- The words of the command line, read; ends with a status if an option is wrong. -/
def given (table : List OptionName) (status : Nat) : Act Given := do
  let g := Given.read table true (← get).call.arguments
  if let some fault := g.fault then misuse status fault
  return g

end Act

end TensorParity.Tool
