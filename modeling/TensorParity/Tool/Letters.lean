import TensorParity.Text.Integer
import TensorParity.Tool.Options
import TensorParity.Tool.Quoting

/-!
Replacing, deleting and squeezing characters: `tr`. Its sets are written as characters, ranges,
classes and repetitions.
-/
namespace TensorParity.Tool.Letters

open Machine

/-- An element of a written set. -/
inductive Element where
  | single (c : Char)
  | range (first last : Char)
  | named (name : String)
  | equivalent (c : Char)
  /-- No count fills up to the length of the other set. -/
  | repeated (c : Char) (count : Nat)
  deriving DecidableEq

/-- A character of a set as it is written; one with a backslash before it never has a meaning of its
own. -/
structure Mark where
  char : Char
  escaped : Bool := false

/-- Whether a mark is a character with a meaning. -/
def Mark.is (m : Mark) (c : Char) : Bool := m.char = c && !m.escaped

/-- A written set with its escapes put in. Complaints come first. -/
def unquote : List Char → List String × List Mark
  | [] => ([], [])
  | ['\\'] =>
    (["warning: an unescaped backslash at end of string is not portable"], [{ char := '\\' }])
  | '\\' :: c :: rest =>
    let isOctal (c : Char) : Bool := (Text.digitOf? 8 c).isSome
    if isOctal c then
      let digits := c :: (rest.take 2).takeWhile isOctal
      let n := Text.natOf 8 digits
      match digits, rest with
      | [a, b, d], _ :: _ :: rest' =>
        if 255 < n then
          let (warnings, marks) := unquote rest'
          ((s!"warning: the ambiguous octal escape \\{a}{b}{d} is being\n\tinterpreted as the"
            ++ s!" 2-byte sequence \\0{a}{b}, {d}") :: warnings,
            ⟨Char.ofNat (Text.natOf 8 [a, b]), true⟩ :: { char := d } :: marks)
        else
          let (warnings, marks) := unquote rest'
          (warnings, ⟨Char.ofNat n, true⟩ :: marks)
      | [_, _], _ :: rest' =>
        let (warnings, marks) := unquote rest'
        (warnings, ⟨Char.ofNat n, true⟩ :: marks)
      | _, rest =>
        let (warnings, marks) := unquote rest
        (warnings, ⟨Char.ofNat n, true⟩ :: marks)
    else
      let (warnings, marks) := unquote rest
      let meant :=
        match c with
        | 'a' => '\x07'
        | 'b' => '\x08'
        | 'f' => '\x0c'
        | 'n' => '\n'
        | 'r' => '\r'
        | 't' => '\t'
        | 'v' => '\x0b'
        | c => c
      (warnings, ⟨meant, true⟩ :: marks)
  | c :: rest =>
    let (warnings, marks) := unquote rest
    (warnings, { char := c } :: marks)

/-- A character as complaints show it. -/
def shown (c : Char) : String :=
  match c with
  | '\\' => "\\"
  | c => if Text.isPrint c then String.singleton c else String.ofList (shownEscape c)

def shownAll (marks : List Mark) : String := String.join (marks.map fun m => shown m.char)

/-- What stands up to a closing sign and a bracket, and what follows them. -/
def upTo? (sign : Char) : List Mark → Option (List Mark × List Mark)
  | a :: b :: rest =>
    if a.is sign && b.is ']' then some ([], rest)
    else (upTo? sign (b :: rest)).map fun (inside, after) => (a :: inside, after)
  | _ => none

/-- Whether a star, digits and a bracket stand here. -/
def isCounted (marks : List Mark) : Bool :=
  match marks with
  | m :: rest =>
    m.is '*' && ((rest.dropWhile fun m => m.char.isDigit).head?.any fun m => m.is ']')
  | [] => false

/-- Reads a repetition after its opening bracket; none if there is none. -/
def repetition? (marks : List Mark) : Except String (Option (Element × List Mark)) :=
  match marks with
  | c :: star :: rest =>
    if star.is '*' then
      let inside := rest.takeWhile fun m => !m.escaped && m.char ≠ ']'
      let after := rest.drop inside.length
      if !after.head?.any fun m => m.is ']' then .ok none
      else if inside.isEmpty then .ok (some (.repeated c.char 0, after.drop 1))
      else
        let digits := inside.map (·.char)
        let base := if digits.head? = some '0' then 8 else 10
        let r := Text.readInteger false base digits
        if r.found && r.inRange && r.rest.isEmpty && digits.head?.any (· ≠ '-') then
          .ok (some (.repeated c.char r.value.toNat, after.drop 1))
        else
          .error s!"invalid repeat count {quoted (shownAll inside)} in [c*n] construct"
    else .ok none
  | _ => .ok none

/-- What follows an opening bracket: a class, an equivalence, or a repetition; none if it is nothing
of these. -/
def bracketed (marks : List Mark) : Except String (Option (Element × List Mark)) :=
  match marks with
  | m :: rest =>
    let sign := m.char
    match if m.is ':' || m.is '=' then upTo? sign rest else none with
    | none => repetition? marks
    | some (inside, after) =>
      let name := String.ofList (inside.map (·.char))
      if inside.isEmpty then
        .error (if sign = ':' then "missing character class name '[::]'"
          else "missing equivalence class character '[==]'")
      else if sign = ':' then
        if (Text.charClass? name).isSome then .ok (some (.named name, after))
        else if isCounted rest then repetition? marks
        else .error s!"invalid character class {quoted (shownAll inside)}"
      else
        match inside with
        | [c] => .ok (some (.equivalent c.char, after))
        | _ =>
          if isCounted rest then repetition? marks
          else .error s!"{shownAll inside}: equivalence class operand must be a single character"
  | [] => .ok none

/-- The elements of a written set. Each round takes a mark at least. -/
def elements : (fuel : Nat) → List Mark → Except String (List Element)
  | 0, _ => .ok []
  | fuel + 1, marks =>
    match marks with
    | a :: b :: c :: rest => do
      match ← if a.is '[' then bracketed (b :: c :: rest) else .ok none with
      | some (e, after) => return e :: (← elements fuel after)
      | none =>
        if b.is '-' then
          if c.char < a.char then
            throw (s!"range-endpoints of '{shown a.char}-{shown c.char}' are in reverse collating"
              ++ " sequence order")
          else return .range a.char c.char :: (← elements fuel rest)
        else return .single a.char :: (← elements fuel (b :: c :: rest))
    | marks => .ok (marks.map fun m => .single m.char)

/-- A character of a set as it counts: whether it belongs to the upper or lower case letters as a
class, and whether an element begins with it. -/
structure Piece where
  char : Char
  upper : Option Bool := none
  first : Bool := true

def allChars : List Char := (List.range 256).map Char.ofNat

/-- No repetition is longer than this. -/
def longest : Nat := 100000

/-- The characters of an element in their order. -/
def Element.chars : Element → List Char
  | single c => [c]
  | range first last =>
    (List.range (last.toNat - first.toNat + 1)).map fun i => Char.ofNat (first.toNat + i)
  | named name => allChars.filter ((Text.charClass? name).getD fun _ => false)
  | equivalent c => [c]
  | repeated c count => List.replicate (min count longest) c

def Element.pieces (e : Element) : List Piece :=
  let upper :=
    match e with
    | .named "upper" => some true
    | .named "lower" => some false
    | _ => none
  match e.chars with
  | [] => []
  | c :: cs => { char := c, upper } :: cs.map fun c => { char := c, upper, first := false }

def pieces (es : List Element) : List Piece := es.flatMap Element.pieces

def chars (es : List Element) : List Char := es.flatMap Element.chars

/-- What follows the element that was begun. -/
def skip (us : List Piece) : List Piece := us.dropWhile (!·.first)

/-- What is asked for. -/
structure Task where
  complement : Bool := false
  delete : Bool := false
  squeeze : Bool := false
  truncate : Bool := false

/-- Whether the elements repeat one character only. -/
def isHomogeneous (es : List Element) : Bool :=
  match chars es with
  | c :: rest => rest.all (· = c)
  | [] => true

/-- Checks that cases stand over against cases; yields the lengths of both sets with a class counted
once. Each round takes a piece at least. -/
def alignCases : (fuel : Nat) → List Piece → List Piece → (length₁ length₂ : Nat) →
    Except String (Nat × Nat)
  | 0, _, _, n₁, n₂ => .ok (n₁, n₂)
  | fuel + 1, a :: rest₁, b :: rest₂, n₁, n₂ =>
    if b.first && b.upper.isSome && !(a.first && a.upper.isSome) then
      .error "misaligned [:upper:] and/or [:lower:] construct"
    else if b.upper.isSome then alignCases fuel (skip rest₁) (skip rest₂) (n₁ - 25) (n₂ - 25)
    else alignCases fuel rest₁ rest₂ n₁ n₂
  | _ + 1, _ :: _, [], n₁, n₂ => .ok (n₁, n₂)
  | _ + 1, [], b :: _, n₁, n₂ =>
    if b.first && b.upper.isSome then .error "misaligned [:upper:] and/or [:lower:] construct"
    else .ok (n₁, n₂)
  | _ + 1, [], [], n₁, n₂ => .ok (n₁, n₂)

/-- How many characters a set stands for. -/
def lengthOf (complement : Bool) (es : List Element) : Nat :=
  if complement then 256 - (allChars.filter (chars es).contains).length
  else
    es.foldl (fun n e =>
      match e with
      | .repeated _ count => n + count
      | e => n + e.chars.length) 0

def isFilling (e : Element) : Bool :=
  match e with
  | .repeated _ 0 => true
  | _ => false

/-- Fills the repetition without a count up to a length. -/
def fillUp (length : Nat) (es : List Element) : List Element :=
  let missing := length - lengthOf false es
  es.map fun e =>
    match e with
    | .repeated c 0 => .repeated c missing
    | e => e

/-- The second set as it is, made as long as the first, or why that cannot be. -/
def matched (t : Task) (translating : Bool) (s₁ s₂ : List Element) :
    Except String (List Element) := do
  if 1 < (s₂.filter isFilling).length then
    throw "only one [c*] repeat construct may appear in string2"
  let n₁ := lengthOf t.complement s₁
  if !translating then
    if s₂.any isFilling then
      throw "the [c*] construct may appear in string2 only when translating"
    return s₂
  let s₂ := fillUp n₁ s₂
  if s₂.any fun e => match e with | .equivalent _ => true | _ => false then
    throw "[=c=] expressions may not appear in string2 when translating"
  let hasClass (es : List Element) : Bool :=
    es.any fun e => match e with | .named _ => true | _ => false
  if s₂.any fun e => match e with | .named n => n ≠ "upper" && n ≠ "lower" | _ => false then
    throw ("when translating, the only character classes that may appear in\nstring2 are 'upper'"
      ++ " and 'lower'")
  let n₂ := lengthOf false s₂
  let (n₁, n₂) ←
    if t.complement ∨ !hasClass s₂ then .ok (n₁, n₂)
    else alignCases ((pieces s₁).length + (pieces s₂).length + 1) (pieces s₁) (pieces s₂) n₁ n₂
  let s₂ ←
    if n₂ < n₁ ∧ !t.truncate then
      match s₂.getLast? with
      | none => throw "when not truncating set1, string2 must be non-empty"
      | some (.named _) =>
        throw ("when translating with string1 longer than string2,\nthe latter string must not end"
          ++ " with a character class")
      | some e => pure (s₂ ++ [.repeated (e.chars.getLast?.getD '\x00') (n₁ - n₂)])
    else pure s₂
  if t.complement ∧ hasClass s₁ ∧ !(lengthOf false s₂ = n₁ ∧ isHomogeneous s₂) then
    throw ("when translating with complemented character classes,\nstring2 must map all characters"
      ++ " in the domain to one")
  return s₂

/-- A set of characters, by their numbers. -/
abbrev Members := Array Bool

def members (complement : Bool) (es : List Element) : Members :=
  let cs := chars es
  ((List.range 256).map fun n => cs.contains (Char.ofNat n) != complement).toArray

def Members.has (m : Members) (b : UInt8) : Bool := m[b.toNat]?.getD false

/-- What each character becomes. -/
abbrev Mapping := Array UInt8

def identity : Mapping := ((List.range 256).map Nat.toUInt8).toArray

def Mapping.apply (m : Mapping) (b : UInt8) : UInt8 := m[b.toNat]?.getD b

/-- Pairs the characters of two sets, the last of which counts; cases are paired as wholes. -/
def pairPieces : (fuel : Nat) → Mapping → List Piece → List Piece → Mapping
  | 0, m, _, _ => m
  | fuel + 1, m, a :: rest₁, b :: rest₂ =>
    let assign (m : Mapping) (c d : Char) : Mapping := m.setIfInBounds c.toNat (Octet.toByte d)
    let m :=
      match a.upper, b.upper with
      | some false, some true =>
        (allChars.filter Char.isLower).foldl (fun m c => assign m c c.toUpper) m
      | some true, some false =>
        (allChars.filter Char.isUpper).foldl (fun m c => assign m c c.toLower) m
      | _, _ => assign m a.char b.char
    if b.upper.isSome then pairPieces fuel m (skip rest₁) (skip rest₂)
    else pairPieces fuel m rest₁ rest₂
  | _ + 1, m, _, _ => m

/-- What each character becomes when the first set is translated into the second. -/
def mapping (t : Task) (s₁ s₂ : List Element) : Mapping :=
  if t.complement then
    let others := allChars.filter fun c => !(chars s₁).contains c
    (others.zip (chars s₂)).foldl (fun m (c, d) => m.setIfInBounds c.toNat (Octet.toByte d))
      identity
  else
    let us := pieces s₁
    pairPieces (us.length + 1) identity us (pieces s₂)

/-- What happens to a stream of bytes: some are left out, some changed, and of some only the first
of several equal ones is kept. -/
structure Plan where
  dropped : Option Members := none
  changed : Option Mapping := none
  squeezed : Option Members := none

namespace Plan

/-- One byte after the last one that was kept. -/
def step (p : Plan) : Option UInt8 × ByteArray → UInt8 → Option UInt8 × ByteArray
  | (last, out), b =>
    if p.dropped.any (·.has b) then (last, out)
    else
      let b := (p.changed.map (·.apply b)).getD b
      if last = some b && p.squeezed.any (·.has b) then (last, out) else (some b, out.push b)

def go (p : Plan) (last : Option UInt8) : (fuel : Nat) → Act Unit
  | 0 => return ()
  | fuel + 1 => do
    Routine.tick
    match ← Act.read 0 8192 with
    | .error e => Act.fail 1 s!"read error: {e.description}"
    | .ok block =>
      if block.isEmpty then return ()
      else do
        let (last, out) := block.foldl p.step (last, .empty)
        Act.print out
        go p last fuel

end Plan

def options : List OptionName :=
  [{ name := "c", others := ["C", "complement"] }, { name := "d", others := ["delete"] },
    { name := "s", others := ["squeeze-repeats"] }, { name := "t", others := ["truncate-set1"] }]

/-- The elements of a written set, after complaints about it. -/
def readSet (text : String) : Act (List Element) := do
  let (warnings, marks) := unquote text.toList
  for warning in warnings do
    Act.warn warning
  match elements (marks.length + 1) marks with
  | .ok es => return es
  | .error fault => Act.fail 1 fault

/-- The words of the command line, if there are as many as the task needs. -/
def operandsFor (t : Task) (operands : List String) : Act (List String) := do
  let least := if t.delete = t.squeeze then 2 else 1
  let most := if t.delete && !t.squeeze then 1 else 2
  match operands.getLast? with
  | none => Act.misuse 1 "missing operand"
  | some last =>
    if operands.length < least then
      Act.warn s!"missing operand after {quoted last}"
      Act.tell (if t.squeeze then
          "Two strings must be given when both deleting and squeezing repeats.\n"
        else "Two strings must be given when translating.\n")
      Act.misuse.advise 1
    else
      match operands.drop most with
      | extra :: rest => do
        Act.warn s!"extra operand {quoted extra}"
        if most = 1 ∧ rest.isEmpty then
          Act.tell "Only one string may be given when deleting without squeezing repeats.\n"
        Act.misuse.advise 1
      | [] => return operands

def main : Act Unit := do
  let g := Given.read options false (← get).call.arguments
  if let some fault := g.fault then Act.misuse 1 fault
  let t : Task :=
    { complement := g.has "c", delete := g.has "d", squeeze := g.has "s", truncate := g.has "t" }
  let operands ← operandsFor t g.operands
  let s₁ ← readSet (operands.headD "")
  let s₂? ←
    match operands.drop 1 with
    | second :: _ => do pure (some (← readSet second))
    | [] => pure none
  if s₁.any isFilling then
    Act.fail 1 "the [c*] repeat construct may not appear in string1"
  let translating := s₂?.isSome && !t.delete
  let s₂ ←
    match s₂?.map (matched t translating s₁) with
    | some (.ok es) => pure es
    | some (.error fault) => Act.fail 1 fault
    | none => pure []
  let plan : Plan :=
    if translating then
      { changed := some (mapping t s₁ s₂)
        squeezed := if t.squeeze then some (members false s₂) else none }
    else if t.delete then
      { dropped := some (members t.complement s₁)
        squeezed := if t.squeeze then some (members false s₂) else none }
    else { squeezed := some (members t.complement s₁) }
  plan.go none Routine.endless

end TensorParity.Tool.Letters
