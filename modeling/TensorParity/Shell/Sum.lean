import TensorParity.Text.Integer

/-!
Integer expressions, as they stand between double parentheses. Numbers have 64 bits and wrap around.
An expression is read from left to right and evaluated as it is read; operands that do not matter
are read without being evaluated.
-/
namespace TensorParity.Shell.Sum

inductive Token where
  | number (n : Int)
  | name (s : String)
  | operator (text : String)
  | finish
  /-- Something that no expression holds. -/
  | bad
  deriving DecidableEq

/-- Operators, longest first. -/
def operators : List String :=
  ["<<=", ">>=", "<<", ">>", "<=", ">=", "==", "!=", "&&", "||", "+=", "-=", "*=", "/=", "%=", "&=",
    "|=", "^=", "+", "-", "*", "/", "%", "<", ">", "!", "(", ")", "&", "|", "^", "~", "?", ":", "="]

/-- The next token, and what follows it. -/
def lex (text : List Char) : Token × List Char :=
  let isName (c : Char) : Bool := c.isAlphanum || c = '_'
  let cs := text.dropWhile fun c => c = ' ' || c = '\t' || c = '\n'
  match cs with
  | [] => (.finish, [])
  | c :: _ =>
    if c.isDigit then
      let r := Text.readInteger true 0 cs
      (.number r.value, r.rest)
    else if isName c then
      let name := cs.takeWhile isName
      (.name (String.ofList name), cs.drop name.length)
    else
      match operators.find? fun o => o.toList.isPrefixOf cs with
      | some o => (.operator o, cs.drop o.length)
      | none => (.bad, cs)

/-- Why an expression has no value. -/
inductive Fault where
  | noOperand
  | notClosed
  | noAlternative
  | leftOver
  | zeroDivisor
  /-- The value of a name is no number. -/
  | noNumber (text : String)
  /-- The quotient is greater than any number. -/
  | overflow
  deriving DecidableEq

def Fault.message (expression : String) : Fault → String
  | noNumber text => s!"Illegal number: {text}"
  | fault =>
    let reason :=
      match fault with
      | noOperand => "expecting primary"
      | notClosed => "expecting \x27)\x27"
      | noAlternative => "expecting \x27:\x27"
      | leftOver => "expecting EOF"
      | _ => "division by zero"
    s!"arithmetic expression: {reason}: \"{expression}\""

def ofBool (b : Bool) : Int := if b then 1 else 0

/-- The bits of a number. -/
def bits (n : Int) : Nat := (n % Text.wordLimit).toNat

/-- How many places a number is shifted by. -/
def places (n : Int) : Nat := (n % 64).toNat

/-- The value of an operator. Division rounds toward zero and needs a divisor. -/
def apply (operator : String) (a b : Int) : Except Fault Int :=
  let divide (value : Int) : Except Fault Int :=
    if b = 0 then .error .zeroDivisor
    else if b = -1 ∧ a = -Text.signedLimit then .error .overflow
    else .ok value
  let wrap (n : Int) : Except Fault Int := .ok (Text.wrapSigned n)
  match operator with
  | "==" => .ok (ofBool (a = b))
  | "!=" => .ok (ofBool (a ≠ b))
  | "<" => .ok (ofBool (a < b))
  | "<=" => .ok (ofBool (a ≤ b))
  | ">" => .ok (ofBool (b < a))
  | ">=" => .ok (ofBool (b ≤ a))
  | "<<" => wrap (bits a * (Nat.pow 2 (places b)) : Nat)
  | ">>" => .ok (a.fdiv (Nat.pow 2 (places b) : Nat))
  | "+" => wrap (a + b)
  | "-" => wrap (a - b)
  | "*" => wrap (a * b)
  | "/" => divide (a.tdiv b)
  | "%" => divide (a.tmod b)
  | "&" => wrap (bits a &&& bits b : Nat)
  | "|" => wrap (bits a ||| bits b : Nat)
  | _ => wrap (bits a ^^^ bits b : Nat)

/-- How loosely an operator between two values binds. -/
def rank? (operator : String) : Option Nat :=
  let levels : List (List String) :=
    [["*", "/", "%"], ["+", "-"], ["<<", ">>"], ["<", "<=", ">", ">="], ["==", "!="], ["&"], ["^"],
      ["|"]]
  levels.findIdx? fun level => operator ∈ level

/-- What an assignment does to the old value before it keeps the new one; nothing for a plain equals
sign. -/
def assigning? (operator : String) : Option (Option String) :=
  if operator = "=" then some none
  else if operator ∈ ["<<=", ">>=", "+=", "-=", "*=", "/=", "%=", "&=", "|=", "^="] then
    some (some (operator.dropEnd 1).toString)
  else none

/-- How far an evaluation has come. -/
structure Evaluation where
  token : Token
  rest : List Char
  /-- The values that names were given, latest first. -/
  given : List (String × Int) := []

abbrev Evaluate := StateT Evaluation (Except Fault)

def advance : Evaluate Unit :=
  modify fun s =>
    let (token, rest) := lex s.rest
    { s with token, rest }

/-- Goes on if the token is this operator. -/
def takes (operator : String) : Evaluate Bool := do
  let found := (← get).token = .operator operator
  if found then advance
  return found

/-- The value of a name: the one given last, or else the one before evaluation. -/
def current (lookup : String → String) (name : String) : Evaluate Int := do
  match (← get).given.lookup name with
  | some n => return n
  | none =>
    let text := lookup name
    match Text.integer? 0 false text with
    | some n => return n
    | none => throw (.noNumber text)

variable (lookup : String → String)

mutual

/-- The value of an expression that may assign it to a name. -/
def assignment : (fuel : Nat) → (skipped : Bool) → Evaluate Int
  | 0, _ => throw .noOperand
  | fuel + 1, skipped => do
    let s ← get
    let (next, after) := lex s.rest
    match s.token, next with
    | .name name, .operator o =>
      match assigning? o with
      | none => choice fuel skipped
      | some change => do
        set { s with token := next, rest := after }
        advance
        let value ← assignment fuel skipped
        if skipped then return value
        let value ←
          match change with
          | none => pure value
          | some o => do
            let old ← current lookup name
            monadLift (apply o old value)
        modify fun s => { s with given := (name, value) :: s.given }
        return value
    | _, _ => choice fuel skipped

/-- One of two values. -/
def choice : (fuel : Nat) → (skipped : Bool) → Evaluate Int
  | 0, _ => throw .noOperand
  | fuel + 1, skipped => do
    let test ← disjunction fuel skipped
    if ← takes "?" then
      let yes ← assignment fuel (skipped || test = 0)
      if !(← takes ":") then throw .noAlternative
      let no ← choice fuel (skipped || test ≠ 0)
      return if test ≠ 0 then yes else no
    else return test

def disjunction : (fuel : Nat) → (skipped : Bool) → Evaluate Int
  | 0, _ => throw .noOperand
  | fuel + 1, skipped => do
    let a ← conjunction fuel skipped
    if ← takes "||" then
      let b ← disjunction fuel (skipped || a ≠ 0)
      return ofBool (a ≠ 0 || b ≠ 0)
    else return a

def conjunction : (fuel : Nat) → (skipped : Bool) → Evaluate Int
  | 0, _ => throw .noOperand
  | fuel + 1, skipped => do
    let a ← operation fuel skipped
    if ← takes "&&" then
      let b ← conjunction fuel (skipped || a = 0)
      return ofBool (a ≠ 0 && b ≠ 0)
    else return a

/-- Values joined by operators. -/
def operation : (fuel : Nat) → (skipped : Bool) → Evaluate Int
  | 0, _ => throw .noOperand
  | fuel + 1, skipped => do
    let a ← operand fuel skipped
    operationFrom fuel skipped 8 a

/-- Goes on after a first value, as long as operators bind tighter than `limit`. -/
def operationFrom : (fuel : Nat) → (skipped : Bool) → (limit : Nat) → Int → Evaluate Int
  | 0, _, _, _ => throw .noOperand
  | fuel + 1, skipped, limit, a => do
    match (← get).token with
    | .operator o =>
      match (rank? o).filter (· < limit) with
      | none => return a
      | some rank => do
        advance
        let b ← operand fuel skipped
        let b ← operationFrom fuel skipped rank b
        let value ← if skipped then pure b else monadLift (apply o a b)
        operationFrom fuel skipped limit value
    | _ => return a

def operand : (fuel : Nat) → (skipped : Bool) → Evaluate Int
  | 0, _ => throw .noOperand
  | fuel + 1, skipped => do
    match (← get).token with
    | .number n => do
      advance
      return n
    | .name name => do
      advance
      if skipped then return 0 else current lookup name
    | .operator "(" => do
      advance
      let value ← assignment fuel skipped
      if !(← takes ")") then throw .notClosed
      return value
    | .operator "+" => do
      advance
      operand fuel skipped
    | .operator "-" => do
      advance
      return Text.wrapSigned (-(← operand fuel skipped))
    | .operator "!" => do
      advance
      return ofBool ((← operand fuel skipped) = 0)
    | .operator "~" => do
      advance
      return -1 - (← operand fuel skipped)
    | _ => throw .noOperand

end

/-- The value of an expression, and the values that it gives to names, latest first. -/
def value (expression : String) : Except Fault (Int × List (String × Int)) :=
  let cs := expression.toList
  let (token, rest) := lex cs
  let whole : Evaluate Int := do
    let value ← assignment lookup (12 * cs.length + 12) false
    if (← get).token ≠ .finish then throw .leftOver
    return value
  (whole.run ⟨token, rest, []⟩).map fun (value, s) => (value, s.given)

end TensorParity.Shell.Sum
