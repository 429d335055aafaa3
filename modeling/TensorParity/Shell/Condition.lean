import TensorParity.Machine.Program
import TensorParity.Text.Integer

/-!
The conditions of `test`. They are read from left to right: alternatives of conjunctions of
negations of single conditions. A word in the place of an operand is no operator, whatever it looks
like. Reading a part ends on its last word, so a list of words begins with the word read last.
-/
namespace TensorParity.Shell.Condition

open Machine

/-- Why a condition has no truth value. -/
inductive Fault where
  /-- Something follows this word that cannot. -/
  | unexpected (word : String)
  | noArgument (operator : String)
  | badNumber (text : String)
  | notClosed
  | missingBracket
  deriving DecidableEq

def Fault.message : Fault → String
  | unexpected word => if word = "" then "unexpected operator" else s!"{word}: unexpected operator"
  | noArgument operator => s!"{operator}: argument expected"
  | badNumber text => s!"Illegal number: {text}"
  | notClosed => "closing paren expected"
  | missingBracket => "missing ]"

/-- Operators before one operand. -/
def unary : List String :=
  ["-r", "-w", "-x", "-e", "-f", "-d", "-c", "-b", "-p", "-u", "-g", "-k", "-s", "-t", "-z", "-n",
    "-h", "-O", "-G", "-L", "-S"]

/-- Operators between two operands. -/
def binary : List String :=
  ["=", "!=", "<", ">", "-eq", "-ne", "-ge", "-gt", "-le", "-lt", "-nt", "-ot", "-ef"]

/-- What a word counts as. -/
inductive Sign where
  | finish
  | operand
  | unary (operator : String)
  | binary (operator : String)
  | negation
  | conjunction
  | disjunction
  | opening
  | closing
  deriving DecidableEq

/-- Whether the first word stands for itself although it looks like an operator before an
operand. -/
def isOperand : List String → Bool
  | [_] => true
  | [_, _] => false
  | _ :: next :: _ => next ∈ binary
  | [] => true

/-- What the first word counts as. -/
def signOf (words : List String) : Sign :=
  match words with
  | [] => .finish
  | word :: rest =>
    if word ∈ unary then if isOperand words then .operand else .unary word
    else if word ∈ binary then .binary word
    else
      match word with
      | "!" => .negation
      | "-a" => .conjunction
      | "-o" => .disjunction
      | "(" => if rest.isEmpty then .operand else .opening
      | ")" => .closing
      | _ => .operand

/-- What a condition is about. -/
structure Sight where
  programs : Programs
  files : FileSystem

namespace Sight

def kind (s : Sight) (path : String) : Kind := Kind.ofPath s.programs s.files path

/-- How long ago the file at a path was written, compared with others. -/
def age? (s : Sight) (path : String) : Option Nat := do
  let (location, _) ← (s.files.locate ⟨Octet.toText path⟩).toOption
  s.files.entries.findIdx? (·.1 = location)

def location? (s : Sight) (path : String) : Option Location :=
  (s.files.locate ⟨Octet.toText path⟩).toOption.map (·.1)

end Sight

/-- The number that a word spells. -/
def number (text : String) : Except Fault Int :=
  match Text.integer? 10 true text with
  | some n => .ok n
  | none => .error (.badNumber text)

def holdsOf (s : Sight) (operator operand : String) : Except Fault Bool :=
  let kind := s.kind operand
  match operator with
  | "-n" => .ok (operand ≠ "")
  | "-z" => .ok (operand = "")
  | "-t" => (number operand).map fun _ => false
  | "-f" => .ok (match kind with
    | .file _ _ => true
    | _ => false)
  | "-d" => .ok (kind = .directory)
  | "-c" => .ok (kind = .device)
  | "-p" => .ok (kind = .pipe)
  | "-x" => .ok (match kind with
    | .file _ runnable => runnable
    | kind => kind = .directory)
  | "-s" => .ok (match kind with
    | .file size _ => 0 < size
    | kind => kind = .directory)
  | "-k" => .ok (Standing.trimmed operand = "/tmp")
  | operator => .ok (operator ∈ ["-e", "-r", "-w", "-O", "-G"] && kind.isThere)

def compare (p : Int → Int → Bool) (a b : String) : Except Fault Bool := do
  let x ← number a
  let y ← number b
  return p x y

def holdsBetween (s : Sight) (a operator b : String) : Except Fault Bool :=
  match operator with
  | "=" => .ok (a = b)
  | "!=" => .ok (a ≠ b)
  | "<" => .ok (a < b)
  | ">" => .ok (b < a)
  | "-eq" => compare (fun x y => x = y) a b
  | "-ne" => compare (fun x y => x ≠ y) a b
  | "-lt" => compare (fun x y => x < y) a b
  | "-le" => compare (fun x y => x ≤ y) a b
  | "-gt" => compare (fun x y => y < x) a b
  | "-ge" => compare (fun x y => y ≤ x) a b
  | "-nt" => .ok (match s.age? a, s.age? b with
    | some m, some n => m < n
    | _, _ => false)
  | "-ot" => .ok (match s.age? a, s.age? b with
    | some m, some n => n < m
    | _, _ => false)
  | _ => .ok (match s.location? a, s.location? b with
    | some m, some n => m = n
    | _, _ => false)

mutual

/-- Alternatives, from a first word that counts as `sign`. -/
def alternatives (s : Sight) : (fuel : Nat) → Sign → List String →
    Except Fault (Bool × List String)
  | 0, _, words => .ok (false, words)
  | fuel + 1, sign, words => do
    let (first, words) ← conjunction s fuel sign words
    if signOf (words.drop 1) = .disjunction then
      let words := words.drop 2
      let (second, words) ← alternatives s fuel (signOf words) words
      return (first || second, words)
    else return (first, words)

def conjunction (s : Sight) : (fuel : Nat) → Sign → List String →
    Except Fault (Bool × List String)
  | 0, _, words => .ok (false, words)
  | fuel + 1, sign, words => do
    let (first, words) ← negation s fuel sign words
    if signOf (words.drop 1) = .conjunction then
      let words := words.drop 2
      let (second, words) ← conjunction s fuel (signOf words) words
      return (first && second, words)
    else return (first, words)

def negation (s : Sight) : (fuel : Nat) → Sign → List String → Except Fault (Bool × List String)
  | 0, _, words => .ok (false, words)
  | fuel + 1, sign, words => do
    if sign = .negation then
      let next := signOf (words.drop 1)
      let words := if next = .finish then words else words.drop 1
      let (inner, words) ← negation s fuel next words
      return (!inner, words)
    else single s fuel sign words

def single (s : Sight) : (fuel : Nat) → Sign → List String → Except Fault (Bool × List String)
  | 0, _, words => .ok (false, words)
  | fuel + 1, sign, words =>
    match sign, words with
    | .finish, words => .ok (false, words)
    | _, [] => .ok (false, [])
    | .opening, _ :: words => do
      let next := signOf words
      if next = .closing then return (false, words)
      let (inner, words) ← alternatives s fuel next words
      let words := words.drop 1
      if signOf words = .closing then return (inner, words) else .error .notClosed
    | .unary operator, _ :: words =>
      match words with
      | operand :: _ => do return (← holdsOf s operator operand, words)
      | [] => .error (.noArgument operator)
    | _, a :: words =>
      match signOf words, words.drop 1 with
      | .binary operator, b :: rest => do return (← holdsBetween s a operator b, b :: rest)
      | .binary operator, [] => .error (.noArgument operator)
      | _, _ => .ok (a ≠ "", a :: words)

end

/-- Whether a condition fails, from its words on; `negated` tells that it stands behind an
exclamation mark. -/
def failsFrom (s : Sight) (negated : Bool) (sign : Sign) (words : List String) :
    Except Fault Bool := do
  let (found, rest) ← alternatives s (6 * words.length + 6) sign words
  match rest with
  | word :: _ :: _ => throw (.unexpected word)
  | _ => return found = negated

/-- Whether a condition fails. Conditions of three and four words are told by their number first. -/
def fails (s : Sight) : (negated : Bool) → List String → Except Fault Bool
  | negated, [] => .ok (!negated)
  | negated, [a, operator, b] =>
    if operator ∈ binary then failsFrom s negated .operand [a, operator, b]
    else if a = "(" ∧ b = ")" then failsFrom s negated (signOf [operator]) [operator]
    else if a = "!" then fails s true [operator, b]
    else failsFrom s negated (signOf [a, operator, b]) [a, operator, b]
  | negated, [a, b, c, d] =>
    if a = "(" ∧ d = ")" then failsFrom s negated (signOf [b, c]) [b, c]
    else if a = "!" then fails s true [b, c, d]
    else failsFrom s negated (signOf [a, b, c, d]) [a, b, c, d]
  | negated, words => failsFrom s negated (signOf words) words

/-- The truth value of the words of `test`. -/
def value (s : Sight) (words : List String) : Except Fault Bool :=
  (fails s false words).map (!·)

end TensorParity.Shell.Condition
