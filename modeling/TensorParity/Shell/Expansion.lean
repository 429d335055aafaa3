import TensorParity.Shell.Field
import TensorParity.Shell.State
import TensorParity.Shell.Sum

/-!
What words come to: parameters, commands and sums are put in, and the result is kept in stretches
that tell what may be cut into fields. How a command in a word is run is left to the caller.
-/
namespace TensorParity.Shell

/-- How a word is expanded. -/
structure Manner where
  /-- Whether the result is cut into fields. -/
  full : Bool := false
  /-- Whether the word stands between double quotes. -/
  quoted : Bool := false
  /-- Whether text that was written is cut too, because the word stands for a parameter. -/
  cutsText : Bool := false
  /-- Whether a tilde at the beginning stands for a directory. -/
  tilde : Bool := false
  /-- Whether a tilde after a colon does. -/
  colons : Bool := false

/-- Runs a command and yields what it prints. -/
abbrev Capture := Option Command → Act String

namespace Expansion

/-- The text of a special parameter or a variable; none if it is not set. -/
def valueOf? (s : State) (name : String) : Option String :=
  match name with
  | "$" => some (toString s.process)
  | "?" => some (toString s.status)
  | "#" => some (toString s.parameters.length)
  | "!" => s.last.map toString
  | "-" =>
    some (String.ofList (['u', 'b', 'a', 'C', 'E', 'V', 'v', 'x', 's', 'n', 'm', 'i', 'I', 'f',
      'e'].filter s.isOn))
  | name =>
    if !name.toList.all Char.isDigit then s.value? name
    else
      match Text.natOf 10 name.toList with
      | 0 => some s.name
      | n + 1 => s.parameters[n]?

/-- What stands between parameters that are taken together. -/
def joint (s : State) (m : Manner) (quoted : Bool) : List Glyph :=
  match s.value? "IFS" with
  | none => [.char ' ' quoted]
  | some separators =>
    if m.full && !quoted then [.gap] else (separators.toList.take 1).map (.char · quoted)

/-- The glyphs of a parameter; none if it is not set. -/
def glyphsOf? (s : State) (m : Manner) (quoted : Bool) (name : String) : Option (List Glyph) :=
  if name = "@" ∨ name = "*" then
    let between := if name = "@" && quoted && m.full then [.gap] else joint s m quoted
    some (between.intercalate (s.parameters.map (Glyph.ofText quoted)))
  else (valueOf? s name).map (Glyph.ofText quoted)

/-- The stretch of a value. -/
def stretchOf (s : State) (quoted : Bool) (name : String) (gs : List Glyph) : Expanded :=
  if !quoted then [⟨.split, gs⟩]
  else if name = "@" && !s.parameters.isEmpty then [⟨.parameters, gs⟩]
  else [⟨.whole, gs⟩]

/-- The character of a glyph, as patterns see it. -/
def charOf : Glyph → Char
  | .char c _ => c
  | _ => '\x00'

/-- How many glyphs at the beginning a pattern matches: the least or the greatest number. -/
def matchedStart (pattern subject : List Char) (longest : Bool) : Option Nat :=
  let lengths := List.range (subject.length + 1)
  (if longest then lengths.reverse else lengths).find? fun n =>
    Pattern.isMatch pattern (subject.take n)

/-- How many glyphs before an end that a pattern matches. -/
def matchedEnd (pattern subject : List Char) (longest : Bool) : Option Nat :=
  let lengths := List.range (subject.length + 1)
  (if longest then lengths else lengths.reverse).find? fun n =>
    Pattern.isMatch pattern (subject.drop n)

/-- Cuts off what a pattern matches. -/
def cutOff (start longest : Bool) (pattern : List Char) (gs : List Glyph) : List Glyph :=
  let subject := gs.map charOf
  if start then
    match matchedStart pattern subject longest with
    | some n => gs.drop n
    | none => gs
  else
    match matchedEnd pattern subject longest with
    | some n => gs.take n
    | none => gs

/-- The directory that a tilde and the name after it stand for. -/
def home? (s : State) (user : List Char) : Option String :=
  if user.isEmpty then s.value? "HOME"
  else if user = ['r', 'o', 'o', 't'] then some "/root"
  else none

/-- A word that begins with a tilde: the directory that it begins with, and the parts after it. -/
def afterTilde? (s : State) (colons : Bool) (w : Word) : Option (String × Word) :=
  match w with
  | .char '~' :: rest =>
    let ends (c : Char) : Bool := c = '/' || (colons && c = ':')
    let user := (rest.takeWhile fun part => part.plain?.any (!ends ·)).filterMap Part.plain?
    let after := rest.drop user.length
    let isWhole :=
      match after with
      | [] => true
      | part :: _ => part.plain?.isSome
    if isWhole then (home? s user).map (·, after) else none
  | _ => none

/-- A run of written characters, up to a colon if a tilde may follow one. -/
def literalRun (colons : Bool) : Word → List Char × Word
  | .char c :: rest =>
    if colons ∧ c = ':' then ([c], rest)
    else
      let (cs, rest) := literalRun colons rest
      (c :: cs, rest)
  | rest => ([], rest)

/-- The text of a value that was counted. -/
def measured (quoted : Bool) (n : Int) : Expanded :=
  [⟨if quoted then .whole else .split, Glyph.ofText quoted (toString n)⟩]

variable (capture : Capture)

mutual

/-- What a word comes to. -/
def expand : (fuel : Nat) → Manner → Word → Act Expanded
  | 0, _, _ => pure []
  | fuel + 1, m, w => expandFrom fuel m m.tilde false w

/-- What the parts of a word come to. `tilde` tells whether a tilde counts here, and `inQuotes`
whether a quotation is open. -/
def expandFrom : (fuel : Nat) → Manner → (tilde inQuotes : Bool) → Word → Act Expanded
  | 0, _, _, _, _ => pure []
  | fuel + 1, m, tilde, inQuotes, w =>
    match w with
    | [] => pure []
    | .mark :: .parameter "@" .value [] :: .mark :: rest => do
      if inQuotes then
        return ⟨.whole, [.mark]⟩ :: (← expandFrom fuel m false false (w.drop 1))
      else
        let first ← parameter fuel { m with quoted := true } "@" .value []
        return first ++ (← expandFrom fuel m false false rest)
    | .mark :: rest => do
      return ⟨.whole, [.mark]⟩ :: (← expandFrom fuel m false (!inQuotes) rest)
    | .quoted c :: rest => do
      return ⟨.whole, [.char c true]⟩ :: (← expandFrom fuel m false inQuotes rest)
    | .char _ :: _ => do
      let s ← get
      match if tilde then afterTilde? s m.colons w else none with
      | some (home, rest) =>
        return ⟨.whole, Glyph.ofText true home⟩ :: (← expandFrom fuel m false inQuotes rest)
      | none =>
        let (cs, rest) := literalRun m.colons w
        let cutting := if m.cutsText && !m.quoted && !inQuotes then .split else .whole
        let first : Stretch := ⟨cutting, cs.map (.char · false)⟩
        return first ::
          (← expandFrom fuel m (m.colons && cs.getLast? = some ':') inQuotes rest)
    | .parameter name use word :: rest => do
      let first ← parameter fuel { m with quoted := m.quoted || inQuotes } name use word
      return first ++ (← expandFrom fuel m false inQuotes rest)
    | .output body :: rest => do
      let quoted := m.quoted || inQuotes
      let text ← capture body
      let first : Stretch := ⟨if quoted then .whole else .split, Glyph.ofText quoted text⟩
      return first :: (← expandFrom fuel m false inQuotes rest)
    | .sum expression :: rest => do
      let text := (← expand fuel {} expression).text
      let s ← get
      match Sum.value (fun name => (s.value? name).getD "") text with
      | .error .overflow => Machine.Routine.goOn (.die 8)
      | .error fault => Act.fail (fault.message text)
      | .ok (n, given) => do
        for (name, value) in given.reverse do
          Act.assign name (toString value)
        return measured (m.quoted || inQuotes) n ++ (← expandFrom fuel m false inQuotes rest)

/-- What a parameter comes to. -/
def parameter : (fuel : Nat) → Manner → (name : String) → Use → Word → Act Expanded
  | 0, _, _, _, _ => pure []
  | fuel + 1, m, name, use, word => do
    let s ← get
    let value := glyphsOf? s m m.quoted name
    let usual (value : Option (List Glyph)) : Act Expanded :=
      match value with
      | some gs => pure (stretchOf s m.quoted name gs)
      | none => if s.isOn 'u' then Act.fail s!"{name}: parameter not set" else pure []
    match use with
    | .bad => Act.fail "Bad substitution"
    | .value => usual value
    | .length =>
      match value with
      | some gs => return measured m.quoted gs.length
      | none =>
        if s.isOn 'u' then Act.fail s!"{name}: parameter not set"
        else return measured m.quoted 0
    | .changed change orEmpty => do
      let isThere := value.any fun gs => !(orEmpty && gs.isEmpty)
      match change with
      | .otherwise =>
        if isThere then usual value
        else expand fuel { m with tilde := true, cutsText := true } word
      | .instead =>
        if isThere then expand fuel { m with tilde := true, cutsText := true } word else pure []
      | .assign => do
        if isThere then usual value
        else
          Act.assign name (← expand fuel { tilde := true } word).text
          usual (glyphsOf? (← get) m m.quoted name)
      | .require => do
        if isThere then usual value
        else
          let text := (← expand fuel { tilde := true } word).text
          let reason :=
            if !word.isEmpty then text
            else if orEmpty then "parameter not set or null"
            else "parameter not set"
          Act.fail s!"{name}: {reason}"
      | .cut start longest => do
        match value with
        | none => usual none
        | some gs =>
          let pattern := Glyph.pattern (← expand fuel { tilde := true } word).glyphs
          return stretchOf s m.quoted name (cutOff start longest pattern gs)

end

/-- More parts than any word has. -/
def endless : Nat := 1000000000

/-- The text of a word that is not cut. -/
def text (m : Manner) (w : Word) : Act String := do return (← expand capture endless m w).text

/-- The fields of a word. -/
def fields (w : Word) : Act (List String) := do
  let e ← expand capture endless { full := true, tilde := true } w
  let s ← get
  let found := Cutter.fields s.separators none e
  if found.any fun gs => gs.any fun g => g = .char '*' false || g = .char '?' false
      || g = .char '[' false then
    let fs ← Act.files
    return found.flatMap (fieldWords fs (!s.isOn 'f'))
  else return found.map Glyph.text

/-- The fields of words. -/
def allFields : List Word → Act (List String)
  | [] => pure []
  | w :: rest => do
    let first ← fields capture w
    return first ++ (← allFields rest)

/-- A word that assigns, as one text. -/
def assignmentText (name : String) (value : Word) : Act String := do
  return s!"{name}={← text capture { tilde := true, colons := true } value}"

end Expansion

end TensorParity.Shell
