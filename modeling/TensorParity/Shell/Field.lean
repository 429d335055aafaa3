import TensorParity.File.System
import TensorParity.Shell.Pattern
import TensorParity.Text.Utf8

/-!
Fields: what the words of a command come to. An expanded word is a sequence of stretches. Text that
was put in for a parameter or a command is cut at separators; text that was written is not; and the
parameters of the shell, taken one by one, stay apart whatever they hold. A field with an unquoted
pattern stands for the files that it matches.
-/
namespace TensorParity.Shell

/-- A piece of an expanded word. -/
inductive Glyph where
  | char (c : Char) (quoted : Bool)
  /-- A quotation mark, which makes a field even of nothing. -/
  | mark
  /-- The end of one parameter before the next. -/
  | gap
  deriving DecidableEq

/-- Where a stretch of a word is cut. -/
inductive Cutting where
  | whole
  /-- At separators. -/
  | split
  /-- At gaps only. -/
  | parameters
  deriving DecidableEq

structure Stretch where
  cutting : Cutting
  glyphs : List Glyph

/-- An expanded word. -/
abbrev Expanded := List Stretch

namespace Glyph

def ofText (quoted : Bool) (text : String) : List Glyph := text.toList.map (char · quoted)

/-- The text of glyphs. -/
def text (gs : List Glyph) : String :=
  String.ofList (gs.filterMap fun g =>
    match g with
    | char c _ => some c
    | _ => none)

/-- The pattern that glyphs spell: what is quoted stands for itself. -/
def pattern : List Glyph → List Char
  | [] => []
  | char '\\' false :: char c true :: rest => '\\' :: c :: pattern rest
  | char c true :: rest => '\\' :: c :: pattern rest
  | char c false :: rest => c :: pattern rest
  | _ :: rest => pattern rest

end Glyph

namespace Expanded

def glyphs (e : Expanded) : List Glyph := e.flatMap (·.glyphs)

def text (e : Expanded) : String := Glyph.text e.glyphs

end Expanded

/-- The separators of a shell that was not told others. -/
def defaultSeparators : List Char := [' ', '\t', '\n']

/-- Fields under construction. -/
structure Cutter where
  /-- The fields that are done, in reverse. -/
  done : List (List Glyph) := []
  /-- The glyphs of the open field, in reverse. -/
  current : List Glyph := []
  /-- Whether blanks before the next field are passed over. -/
  skipping : Bool := false
  /-- How many fields may still be begun; the last takes all the rest. -/
  left : Option Nat := none
  /-- How many glyphs of the open field stay, if those after them are separators at its end. -/
  kept : Option Nat := none

namespace Cutter

def finish (c : Cutter) : Cutter :=
  { c with done := c.current.reverse :: c.done, current := [] }

def put (c : Cutter) (g : Glyph) : Cutter := { c with current := g :: c.current }

/-- A glyph of the last field. Blanks at its end are left out, with at most one other separator. -/
def putLast (c : Cutter) (g : Glyph) (isSeparator isBlank : Bool) : Cutter :=
  if isBlank then { c.put g with kept := c.kept.or (some c.current.length) }
  else
    { c.put g with
      kept := if isSeparator && c.skipping then c.kept else none
      skipping := false }

/-- A glyph of a stretch that is cut at `separators`. `byGaps` tells that this stretch or the one
before it is cut at gaps only. -/
def step (separators : List Char) (byGaps : Bool) (c : Cutter) (g : Glyph) : Cutter :=
  let isSeparator :=
    match g with
    | .char d _ => decide (d ∈ separators)
    | .gap => true
    | .mark => false
  let isBlank :=
    isSeparator &&
      match g with
      | .char d _ => decide (d ∈ defaultSeparators)
      | _ => true
  if c.left = some 0 then c.putLast g isSeparator isBlank
  else if c.skipping ∧ isBlank then { c with current := [] }
  else if c.skipping ∧ isSeparator then { c with current := [], skipping := false }
  else
    let c := if c.skipping then { c with current := [] } else c
    if isSeparator then
      let c := if byGaps then c else { c with skipping := isBlank }
      if c.current.isEmpty ∧ c.skipping then { c with skipping := false }
      else
        match c.left with
        | some 1 => { c.put g with left := some 0, kept := some c.current.length }
        | left => { c.finish with left := left.map (· - 1) }
    else { c.put g with skipping := false }

/-- Cuts the stretches of a word. -/
def cut (separators : List Char) : (before : Cutting) → Cutter → Expanded → Cutting × Cutter
  | before, c, [] => (before, c)
  | before, c, s :: rest =>
    match s.cutting with
    | .whole =>
      cut separators before
        { c with current := s.glyphs.foldl (fun gs g => g :: gs) c.current } rest
    | .split =>
      cut separators .split
        (s.glyphs.foldl (step separators (before = .parameters)) { c with skipping := false }) rest
    | .parameters =>
      cut separators .parameters (s.glyphs.foldl (step [] true) { c with skipping := false }) rest

/-- The fields of a word; at most so many, if a number is given. -/
def fields (separators : List Char) (limit : Option Nat) (e : Expanded) : List (List Glyph) :=
  let (last, c) := cut separators .whole { left := limit } e
  let current :=
    match c.kept with
    | some n => c.current.drop (c.current.length - n)
    | none => c.current
  if last ≠ .parameters ∧ current.isEmpty then c.done.reverse
  else (current.reverse :: c.done).reverse

end Cutter

/-- The names in a directory, also of the directory itself and the one above it, in order. -/
def namesIn (fs : FileSystem) (directory : String) : List String :=
  match fs.locate ⟨if directory = "" then "." else Octet.toText directory⟩ with
  | .ok (location, .directory) =>
    let names := fs.entries.filterMap fun (place, _) =>
      if place.dropLast = location ∧ place ≠ [] then place.getLast? else none
    (("." :: ".." :: names).map Octet.ofText).mergeSort
  | _ => []

namespace Pathname

/-- The stretches of a pattern between slashes. -/
def components : (pattern : List Char) → List (List Char)
  | [] => [[]]
  | '\\' :: '/' :: rest => [] :: components rest
  | '\\' :: c :: rest =>
    match components rest with
    | first :: more => ('\\' :: c :: first) :: more
    | [] => [['\\', c]]
  | '/' :: rest => [] :: components rest
  | c :: rest =>
    match components rest with
    | first :: more => (c :: first) :: more
    | [] => [[c]]

/-- Whether a bracket is closed in the same component. -/
def isClosed : (pattern : List Char) → Bool
  | [] => false
  | '\\' :: _ :: rest => hasEnd rest
  | _ :: rest => hasEnd rest
where
  hasEnd : List Char → Bool
    | [] => false
    | ']' :: _ => true
    | '\\' :: _ :: rest => hasEnd rest
    | _ :: rest => hasEnd rest

/-- Whether a component is more than a name. -/
def isPattern : (component : List Char) → Bool
  | [] => false
  | '*' :: _ => true
  | '?' :: _ => true
  | '[' :: rest =>
    let body :=
      match rest with
      | '!' :: rest => rest
      | '^' :: rest => rest
      | rest => rest
    isClosed body || isPattern rest
  | '\\' :: _ :: rest => isPattern rest
  | _ :: rest => isPattern rest

/-- The name that a component without patterns spells. -/
def plain : (component : List Char) → List Char
  | [] => []
  | '\\' :: c :: rest => c :: plain rest
  | c :: rest => c :: plain rest

/-- The names in a directory that a component stands for. A leading dot is matched only by a dot. -/
def namesFor (fs : FileSystem) (component : List Char) (path : String) : List String :=
  let dotted :=
    match component with
    | '.' :: _ => true
    | '\\' :: '.' :: _ => true
    | _ => false
  (namesIn fs path).filter fun name =>
    (dotted || !name.startsWith ".") && Pattern.isMatch component name.toList

/-- The paths of files that components stand for, after a path that was found. `sure` tells that the
path so far was read from a directory. -/
def pathsFrom (fs : FileSystem) : (components : List (List Char)) → (path : String) →
    (sure : Bool) → List String
  | [], path, sure => if sure || fs.pathExists ⟨Octet.toText path⟩ then [path] else []
  | component :: rest, path, _ =>
    let close (name : String) := path ++ name ++ (if rest.isEmpty then "" else "/")
    if isPattern component then
      (namesFor fs component path).flatMap fun name =>
        pathsFrom fs rest (close name) rest.isEmpty
    else pathsFrom fs rest (close (String.ofList (plain component))) false

end Pathname

/-- The words that a field stands for: the files it matches, or itself. -/
def fieldWords (fs : FileSystem) (matching : Bool) (field : List Glyph) : List String :=
  let hasSign := field.any fun g => g = .char '*' false || g = .char '?' false || g = .char '[' false
  if matching && hasSign then
    let components := Pathname.components (Glyph.pattern field)
    if components.any Pathname.isPattern then
      match Pathname.pathsFrom fs components "" false with
      | [] => [Glyph.text field]
      | found => found.mergeSort
    else [Glyph.text field]
  else [Glyph.text field]

end TensorParity.Shell
