import TensorParity.Text.Regex.Basic

/-!
Reading regular expressions. In the basic form, groups, intervals and alternatives are written with
backslashes; in the extended form without. A sign that cannot mean anything where it stands is an
ordinary character in the basic form and an error in the extended one.
-/
namespace TensorParity.Text.Regex

/-- Why a text is no regular expression. -/
inductive Fault where
  | badPattern
  | badCollation
  | badClass
  | trailingBackslash
  | badReference
  | openBracket
  | openGroup
  | openInterval
  | badInterval
  | badRange
  | nothingRepeated
  | tooBig
  | closedGroup
  deriving DecidableEq

def Fault.message : Fault → String
  | badPattern => "Invalid regular expression"
  | badCollation => "Invalid collation character"
  | badClass => "Invalid character class name"
  | trailingBackslash => "Trailing backslash"
  | badReference => "Invalid back reference"
  | openBracket => "Unmatched [, [^, [:, [., or [="
  | openGroup => "Unmatched ( or \\("
  | openInterval => "Unmatched \\\x7b"
  | badInterval => "Invalid content of \\\x7b\\\x7d"
  | badRange => "Invalid range end"
  | nothingRepeated => "Invalid preceding regular expression"
  | tooBig => "Regular expression too big"
  | closedGroup => "Unmatched ) or \\)"

/-- A way of writing. -/
structure Form where
  extended : Bool
  /-- Whether line ends are matched only where they are named. -/
  byLines : Bool := false
  /-- Whether letters stand for both of their cases. -/
  folds : Bool := false

inductive Token where
  | char (c : Char)
  | anything
  | bracket
  /-- Repeats what stands before it; the character is the sign. -/
  | often (sign : Char) (least : Nat) (most : Option Nat)
  | openInterval
  | closeInterval
  | openGroup
  | closeGroup
  | alternative
  | place (a : Assertion)
  | again (index : Nat)
  | set (s : ByteSet)
  | backslash
  | finish

/-- The token of a sign that stands after a backslash, or alone in the other form. -/
def operator? (c : Char) : Option Token :=
  match c with
  | '|' => some .alternative
  | '+' => some (.often '+' 1 none)
  | '?' => some (.often '?' 0 (some 1))
  | '\x7b' => some .openInterval
  | '\x7d' => some .closeInterval
  | '(' => some .openGroup
  | ')' => some .closeGroup
  | _ => none

/-- The token of a letter or sign after a backslash, whatever the form. -/
def escaped (c : Char) : Token :=
  match c with
  | '<' => .place .wordStart
  | '>' => .place .wordEnd
  | 'b' => .place .wordEdge
  | 'B' => .place .notWordEdge
  | '`' => .place .textStart
  | '\x27' => .place .textEnd
  | 'w' => .set (.ofTest isWordChar)
  | 'W' => .set (.ofTest fun c => !isWordChar c)
  | 's' => .set (.ofTest isSpace)
  | 'S' => .set (.ofTest fun c => !isSpace c)
  | c => if '1' ≤ c ∧ c ≤ '9' then .again (c.toNat - 48) else .char c

/-- Whether what follows ends an alternative. -/
def endsHere (f : Form) (cs : List Char) : Bool :=
  match f.extended, cs with
  | _, [] => true
  | false, '\\' :: '|' :: _ => true
  | false, '\\' :: ')' :: _ => true
  | true, '|' :: _ => true
  | true, ')' :: _ => true
  | _, _ => false

/-- The first token and what follows it. `first` tells that nothing stands before it in its
alternative. -/
def token (f : Form) (first : Bool) (cs : List Char) : Token × List Char :=
  match cs with
  | [] => (.finish, [])
  | ['\\'] => (.backslash, [])
  | '\\' :: c :: rest =>
    match if f.extended then none else operator? c with
    | some t => (t, rest)
    | none => (escaped c, rest)
  | '*' :: rest => (.often '*' 0 none, rest)
  | '.' :: rest => (.anything, rest)
  | '[' :: rest => (.bracket, rest)
  | '^' :: rest => (if f.extended || first then .place .lineStart else .char '^', rest)
  | '$' :: rest => (if f.extended || endsHere f rest then .place .lineEnd else .char '$', rest)
  | c :: rest =>
    match if f.extended then operator? c else none with
    | some t => (t, rest)
    | none => (.char c, rest)

/-! ### Brackets -/

/-- What stands between brackets. -/
inductive Item where
  | char (c : Char)
  | named (name : String)
  | equivalent (name : String)
  | collation (name : String)

/-- The longest name between inner brackets. -/
def maxName : Nat := 32

/-- A name up to a sign and a bracket. -/
def nameUpTo (sign : Char) : (room : Nat) → List Char → Except Fault (List Char × List Char)
  | 0, _ => .error .openBracket
  | room + 1, c :: d :: rest =>
    if c = sign ∧ d = ']' then .ok ([], rest)
    else do
      let (name, rest) ← nameUpTo sign room (d :: rest)
      return (c :: name, rest)
  | _ + 1, _ => .error .openBracket

/-- One item and what follows it. -/
def item (cs : List Char) : Except Fault (Item × List Char) :=
  match cs with
  | '[' :: ':' :: rest => do
    let (name, rest) ← nameUpTo ':' maxName rest
    return (.named (String.ofList name), rest)
  | '[' :: '=' :: rest => do
    let (name, rest) ← nameUpTo '=' maxName rest
    return (.equivalent (String.ofList name), rest)
  | '[' :: '.' :: rest => do
    let (name, rest) ← nameUpTo '.' maxName rest
    return (.collation (String.ofList name), rest)
  | '-' :: '-' :: '-' :: rest => .ok (.char '-', rest)
  | c :: rest => .ok (.char c, rest)
  | [] => .error .openBracket

/-- The character of an item that can begin or end a range. -/
def endOf : Item → Except Fault Char
  | .char c => .ok c
  | .collation name =>
    match name.toList with
    | [c] => .ok c
    | _ => .error .badCollation
  | _ => .error .badRange

/-- The bytes of an item that is no range. -/
def bytesOf : Item → Except Fault ByteSet
  | .char c => .ok (.ofChar c)
  | .named name =>
    match charClass? name with
    | some test => .ok (.ofTest test)
    | none => .error .badClass
  | .equivalent name =>
    match name.toList with
    | [c] => .ok (.ofChar c)
    | _ => .error .badCollation
  | .collation name =>
    match name.toList with
    | [c] => .ok (.ofChar c)
    | _ => .error .badCollation

/-- Whether a hyphen stands here that is a sign. -/
def isHyphen : List Char → Bool
  | '-' :: '-' :: '-' :: _ => false
  | '-' :: _ => true
  | _ => false

/-- Whether an item may begin a range. -/
def Item.isEnd : Item → Bool
  | .named _ => false
  | .equivalent _ => false
  | _ => true

/-- The items up to the closing bracket. Each round takes a character at least. -/
def items : (fuel : Nat) → (first : Bool) → ByteSet → List Char →
    Except Fault (ByteSet × List Char)
  | 0, _, _, _ => .error .openBracket
  | fuel + 1, first, done, cs => do
    if !first ∧ cs.head? = some ']' then return (done, cs.drop 1)
    if !first ∧ isHyphen cs ∧ (cs.drop 1).head? ≠ some ']' then throw .badRange
    let (a, rest) ← item cs
    match if a.isEnd && isHyphen rest then rest.drop 1 else [] with
    | [] => do
      if a.isEnd ∧ isHyphen rest then throw .openBracket
      if rest.isEmpty then throw .openBracket
      items fuel false (done.union (← bytesOf a)) rest
    | ']' :: _ => items fuel false (done.union (← bytesOf a)) rest
    | next => do
      let (b, rest) ← item next
      let low ← endOf a
      let high ← endOf b
      if high < low then throw .badRange
      if rest.isEmpty then throw .openBracket
      items fuel false (done.union (.ofTest fun c => low ≤ c && c ≤ high)) rest

/-- The set that begins after an opening bracket, and what follows it. -/
def bracket (f : Form) (cs : List Char) : Except Fault (ByteSet × List Char) := do
  let (negated, cs) :=
    match cs with
    | '^' :: rest => (true, rest)
    | cs => (false, cs)
  if cs.isEmpty then throw .badPattern
  let (set, rest) ← items (cs.length + 1) true .empty cs
  let set := if f.folds then set.folded else set
  if !negated then return (set, rest)
  else
    let others := set.complement
    return (if f.byLines then .ofTest fun c => c ≠ '\n' && others.has c.toNat.toUInt8 else others,
      rest)

/-! ### Expressions -/

/-- What is left to read, and the groups that were met. -/
structure Reading where
  rest : List Char
  /-- Whether nothing stands before it in its alternative. -/
  first : Bool := true
  opened : Nat := 0
  closed : List Nat := []

abbrev Parse := StateT Reading (Except Fault)

/-- The next token, which is not passed over. -/
def peek (f : Form) : Parse Token := return (token f (← get).first (← get).rest).1

def next (f : Form) : Parse Token := do
  let s ← get
  let (t, rest) := token f s.first s.rest
  set { s with rest, first := false }
  return t

/-- More repetitions than this are too many. -/
def maxRepeats : Nat := 32767

/-- A number in an interval; none if there are no digits, and wrong if there is anything else. Yields
the token after it too. -/
def numberFrom (f : Form) : (fuel : Nat) → (n : Option Nat) → (wrong : Bool) →
    Parse (Except Unit (Option Nat) × Token)
  | 0, _, _ => return (.error (), .finish)
  | fuel + 1, n, wrong => do
    match ← next f with
    | .finish => return (.error (), .finish)
    | .closeInterval => return (if wrong then .error () else .ok n, .closeInterval)
    | .char ',' => return (if wrong then .error () else .ok n, .char ',')
    | .char c =>
      if c.isDigit then
        numberFrom f fuel (some (min (maxRepeats + 1) (n.getD 0 * 10 + (c.toNat - 48)))) wrong
      else numberFrom f fuel n true
    | _ => numberFrom f fuel n true

/-- What an interval says after its opening brace. -/
def interval (f : Form) : Parse (Nat × Option Nat) := do
  let fuel := (← get).rest.length + 1
  let fault (t : Token) : Fault := if t matches .finish then .openInterval else .badInterval
  match ← numberFrom f fuel none false with
  | (.error _, t) => throw (fault t)
  | (.ok n?, .char _) => do
    let least := n?.getD 0
    match ← numberFrom f fuel none false with
    | (.error _, t) => throw (fault t)
    | (.ok most?, .closeInterval) => do
      if most?.any (· < least) then throw .badInterval
      if maxRepeats < most?.getD least then throw .tooBig
      return (least, most?)
    | (.ok _, _) => throw .badInterval
  | (.ok none, _) => throw .badInterval
  | (.ok (some n), _) => do
    if maxRepeats < n then throw .tooBig
    return (n, some n)

mutual

/-- Alternatives, inside a group or not. -/
def alternatives (f : Form) (inside : Bool) : (fuel : Nat) → Parse Regex
  | 0 => throw .tooBig
  | fuel + 1 => do
    let before := (← get).closed
    let first ← branch f inside fuel
    match ← peek f with
    | .alternative => do
      let _ ← next f
      -- No alternative refers back to a group of another one.
      let closed := (← get).closed
      modify fun s => { s with first := true, closed := before }
      let second ← alternatives f inside fuel
      modify fun s => { s with closed := closed ++ s.closed }
      return .either first second
    | _ => return first

/-- Expressions one after the other. -/
def branch (f : Form) (inside : Bool) : (fuel : Nat) → Parse Regex
  | 0 => throw .tooBig
  | fuel + 1 => do
    match ← peek f with
    | .alternative => return .empty
    | .finish => return .empty
    | .closeGroup =>
      if inside then return .empty else throw .closedGroup
    | _ => do
      let r ← expression f fuel
      let rest ← branch f inside fuel
      return match rest with
        | .empty => r
        | rest => .both r rest

/-- One expression with the signs that repeat it. -/
def expression (f : Form) : (fuel : Nat) → Parse Regex
  | 0 => throw .tooBig
  | fuel + 1 => do
    let literal (c : Char) : Parse Regex := repeats f fuel (.one (.ofChar c))
    match ← next f with
    | .char c => literal c
    | .closeInterval => literal '\x7d'
    | .anything =>
      repeats f fuel (.one (.ofTest fun c => !(f.byLines && c = '\n')))
    | .set s => repeats f fuel (.one s)
    | .bracket => do
      let s ← get
      let (found, rest) ← bracket f s.rest
      set { s with rest }
      repeats f fuel (.one found)
    | .often sign _ _ => if f.extended then throw .nothingRepeated else literal sign
    | .openInterval => throw .nothingRepeated
    | .place a => return .place a
    | .again index => do
      if index ∉ (← get).closed then throw .badReference
      repeats f fuel (.again index)
    | .backslash => throw .trailingBackslash
    | .openGroup => do
      let index := (← get).opened + 1
      modify fun s => { s with opened := index, first := true }
      let body ← alternatives f true fuel
      match ← next f with
      | .closeGroup => do
        modify fun s => { s with closed := index :: s.closed }
        repeats f fuel (.group index body)
      | _ => throw .openGroup
    | .closeGroup => throw .closedGroup
    | .alternative => return .empty
    | .finish => return .empty

/-- The signs that repeat an expression. -/
def repeats (f : Form) : (fuel : Nat) → Regex → Parse Regex
  | 0, _ => throw .tooBig
  | fuel + 1, r => do
    match ← peek f with
    | .often _ least most => do
      let _ ← next f
      afterSign f fuel (.repeated r least most)
    | .openInterval => do
      let _ ← next f
      let (least, most) ← interval f
      afterSign f fuel (.repeated r least most)
    | _ => return r

/-- What may follow a sign that repeats: in the basic form not every sign of the same kind. -/
def afterSign (f : Form) : (fuel : Nat) → Regex → Parse Regex
  | 0, _ => throw .tooBig
  | fuel + 1, r => do
    match f.extended, ← peek f with
    | false, .often '*' _ _ => throw .nothingRepeated
    | false, .openInterval => throw .nothingRepeated
    | _, _ => repeats f fuel r

end

/-- Reads a regular expression, and tells how many groups it has. -/
def parse (f : Form) (text : String) : Except Fault (Regex × Nat) := do
  let cs := text.toList
  let (r, s) ← (alternatives f false (8 * cs.length + 8)).run { rest := cs }
  return (r, s.opened)

end TensorParity.Text.Regex
