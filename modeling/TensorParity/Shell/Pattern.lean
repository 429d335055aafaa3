import TensorParity.Text.CharClass

/-!
Patterns of names. A star stands for any text, a question mark for any character, and brackets for
one of several characters; a backslash takes its meaning from the character after it. A bracket that
is never closed stands for itself.
-/
namespace TensorParity.Shell.Pattern

/-- The order of bytes in a range: those beyond ASCII come first. -/
def rank (c : Char) : Int := if c.toNat < 128 then c.toNat else c.toNat - 256

/-- A class after its opening bracket: its characters, and what follows it. -/
def classAt? (pattern : List Char) : Option ((Char → Bool) × List Char) :=
  match pattern with
  | ':' :: rest =>
    let name := rest.takeWhile Char.isAlpha
    match rest.drop name.length, Text.charClass? (String.ofList name) with
    | ':' :: ']' :: after, some test => some (test, after)
    | _, _ => none
  | _ => none

/-- One member of a bracket, which begins with `c`: whether it holds the character, and what follows
it. -/
def member? (subject c : Char) (rest : List Char) : Option (Bool × List Char) :=
  match if c = '[' then classAt? rest else none with
  | some (test, after) => some (test subject, after)
  | none => do
    let (low, rest) ←
      if c = '\\' then
        match rest with
        | d :: rest => some (d, rest)
        | [] => none
      else some (c, rest)
    match rest with
    | '-' :: high :: after =>
      if high = ']' then some (subject = low, rest)
      else
        let (high, after) ←
          if high = '\\' then
            match after with
            | d :: after => some (d, after)
            | [] => none
          else some (high, after)
        some (rank low ≤ rank subject && rank subject ≤ rank high, after)
    | _ => some (subject = low, rest)

/-- The members of a bracket, of which the first begins with `c`, up to its end. -/
def members? (subject : Char) : (fuel : Nat) → Bool → Char → List Char → Option (Bool × List Char)
  | 0, _, _, _ => none
  | fuel + 1, found, c, rest => do
    let (isMember, rest) ← member? subject c rest
    let found := found || isMember
    match rest with
    | [] => none
    | ']' :: rest => some (found, rest)
    | d :: rest => members? subject fuel found d rest

/-- A bracket after its opening: whether it stands for the character, and what follows it. -/
def bracket? (subject : Char) (pattern : List Char) : Option (Bool × List Char) :=
  let (negated, rest) :=
    match pattern with
    | '!' :: rest => (true, rest)
    | '^' :: rest => (true, rest)
    | rest => (false, rest)
  match rest with
  | [] => none
  | c :: rest =>
    (members? subject (rest.length + 1) false c rest).map fun (found, rest) =>
      (found != negated, rest)

/-- Each step takes a character from one of the two texts, so `fuel` need not be more than both
lengths. -/
def matchesFrom : (fuel : Nat) → (pattern subject : List Char) → Bool
  | 0, pattern, subject => pattern.isEmpty && subject.isEmpty
  | fuel + 1, pattern, subject =>
    match pattern with
    | [] => subject.isEmpty
    | '*' :: rest =>
      matchesFrom fuel rest subject ||
        match subject with
        | _ :: more => matchesFrom fuel pattern more
        | [] => false
    | c :: rest =>
      match subject with
      | [] => false
      | s :: more =>
        match c, rest with
        | '?', rest => matchesFrom fuel rest more
        | '\\', d :: rest => d = s && matchesFrom fuel rest more
        | '[', rest =>
          match bracket? s rest with
          | some (found, rest) => found && matchesFrom fuel rest more
          | none => s = '[' && matchesFrom fuel rest more
        | c, rest => c = s && matchesFrom fuel rest more

/-- Whether the whole text matches the pattern. -/
def isMatch (pattern subject : List Char) : Bool :=
  matchesFrom (pattern.length + subject.length + 1) pattern subject

end TensorParity.Shell.Pattern
