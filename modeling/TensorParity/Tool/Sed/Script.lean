import TensorParity.Text.Regex.Search

/-!
Programs of the stream editor: numbered commands, each with the lines that it is for. Blocks and
labels are not commands of their own. A block is a command that leads around others, and a label is
the number of the command after it.
-/
namespace TensorParity.Tool.Sed

/-- A regular expression that is ready for use. -/
structure Expression where
  program : Text.Regex.Program
  folds : Bool
  byLines : Bool

/-- Which lines are meant. -/
inductive Address where
  | line (number : Nat)
  | step (first step : Nat)
  | last
  /-- The lines that match; without an expression, the one that was used last. -/
  | matching (e : Option Expression)

/-- Where a range of lines ends. -/
inductive Limit where
  | at (a : Address)
  /-- So many lines later. -/
  | after (count : Nat)
  /-- At a multiple of a number. -/
  | multiple (n : Nat)

/-- The lines that a command is for. -/
inductive Scope where
  | all
  | one (a : Address)
  /-- Ranges are numbered, so that the editor knows which of them it is in. -/
  | range (index : Nat) (a : Address) (limit : Limit)

/-- What becomes of letters. -/
inductive Letters where
  | same
  | upper
  | lower
  deriving DecidableEq

/-- What becomes of the first letter of a text and of the others. -/
structure Style where
  first : Option Letters := none
  others : Letters := .same

/-- A part of a replacement: some text, and then what a group matched. -/
structure Part where
  literal : ByteArray
  group : Option Nat := none
  style : Style

/-- When a line is shown that was changed. -/
inductive Shown where
  | never
  | beforeRunning
  | finally
  deriving DecidableEq

structure Substitution where
  pattern : Option Expression
  parts : List Part
  /-- The number of the first match that is replaced. -/
  number : Nat
  /-- Whether the matches after it are replaced too. -/
  all : Bool
  shown : Shown
  /-- Whether the changed line is run as a command. -/
  runs : Bool
  output : Option Nat

inductive Action where
  /-- Goes on behind a block if the line is not meant. -/
  | block (behind : Nat)
  | append (text : ByteArray)
  | insert (text : ByteArray)
  | change (text : ByteArray)
  | jump (target : Nat)
  | jumpIfReplaced (target : Nat)
  | jumpUnlessReplaced (target : Nat)
  | delete
  | deleteLine
  | run (command : Option ByteArray)
  | showName
  | showNumber
  | takeHeld
  | appendHeld
  | hold
  | holdMore
  | exchange
  | list (width : Option Nat)
  | listOld
  | next
  | appendNext
  | print
  | printLine
  | quit (status : Nat) (silently : Bool)
  | readFile (name : String)
  | readLine (input : Nat)
  | substitute (s : Substitution)
  | write (output : Nat)
  | writeLine (output : Nat)
  | translate (table : Array UInt8)
  | clear

structure Command where
  scope : Scope
  /-- Whether it is for the other lines. -/
  negated : Bool
  action : Action

/-- Where a piece of a program is written. -/
inductive Source where
  /-- On the command line, as the expression of a number. -/
  | word (number : Nat)
  | file (name : String)

/-- A place in a piece of a program: how many characters were read, and the line. -/
structure Place where
  source : Source
  taken : Nat := 0
  line : Nat := 1

/-- How complaints name a place. -/
def Place.text (p : Place) : String :=
  match p.source with
  | .word n => s!"-e expression #{n}, char {p.taken}"
  | .file name => s!"file {name} line {p.line}"

/-- A program that can be run. -/
structure Script where
  commands : Array Command
  /-- How many ranges it has. -/
  ranges : Nat
  /-- The files that it writes, and those of which it reads lines. -/
  outputs : List String
  inputs : List String
  /-- Whether it says that lines are printed only where a command does. -/
  quiet : Bool
  /-- What complaints while it runs name. -/
  place : Place

end TensorParity.Tool.Sed
