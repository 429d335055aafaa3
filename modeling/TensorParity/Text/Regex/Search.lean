import TensorParity.Text.Regex.Program

/-!
Looking for the first match of a regular expression, and among the matches that begin there for the
longest. What its groups match is told by the first way through the program that makes the longest
match.
-/
namespace TensorParity.Text.Regex

/-- What is looked at. -/
structure Subject where
  bytes : ByteArray
  /-- Whether lines inside the text begin and end too. -/
  byLines : Bool := false
  /-- What ends a line. -/
  mark : UInt8 := 10

namespace Subject

def isWordAt (s : Subject) (i : Nat) : Bool :=
  match s.bytes[i]? with
  | some b => isWordChar (Char.ofNat b.toNat)
  | none => false

/-- Whether the byte before a place belongs to a word. -/
def isWordBefore (s : Subject) (i : Nat) : Bool := 0 < i && s.isWordAt (i - 1)

def holds (s : Subject) (a : Assertion) (i : Nat) : Bool :=
  match a with
  | .lineStart => i = 0 || (s.byLines && s.bytes[i - 1]? = some s.mark)
  | .lineEnd => i = s.bytes.size || (s.byLines && s.bytes[i]? = some s.mark)
  | .textStart => i = 0
  | .textEnd => i = s.bytes.size
  | .wordStart => !s.isWordBefore i && s.isWordAt i
  | .wordEnd => s.isWordBefore i && !s.isWordAt i
  | .wordEdge => s.isWordBefore i != s.isWordAt i
  | .notWordEdge => s.isWordBefore i == s.isWordAt i

end Subject

/-- Where a match lies. -/
structure Span where
  start : Nat
  stop : Nat
  deriving DecidableEq

/-- A step that is to be taken, and where the match would begin. -/
abbrev Thread := Nat × Nat

/-- What is reached at a place. -/
structure Frontier where
  /-- Steps that take a byte, by where their matches begin; latest first. -/
  threads : List Thread := []
  seen : Array Bool
  best : Option Span

/-- Follows a step up to those that take a byte. No step is followed twice at one place, so the
earliest beginning counts. -/
def follow (p : Program) (s : Subject) (i start : Nat) :
    (fuel : Nat) → (todo : List Nat) → Frontier → Frontier
  | 0, _, f => f
  | _ + 1, [], f => f
  | fuel + 1, n :: todo, f =>
    if f.seen[n]?.getD true then follow p s i start fuel todo f
    else
      let f := { f with seen := f.seen.setIfInBounds n true }
      match p.steps[n]? with
      | some (.take _) => follow p s i start fuel todo { f with threads := (n, start) :: f.threads }
      | some (.check a) =>
        follow p s i start fuel (if s.holds a i then (n + 1) :: todo else todo) f
      | some (.split a b) => follow p s i start fuel (a :: b :: todo) f
      | some (.jump a) => follow p s i start fuel (a :: todo) f
      | some (.opening _) => follow p s i start fuel ((n + 1) :: todo) f
      | some (.closing _ _) => follow p s i start fuel ((n + 1) :: todo) f
      | some (.repeatGroup _) => follow p s i start fuel todo f
      | some .accept =>
        let better :=
          match f.best with
          | none => true
          | some b => start < b.start || (start = b.start && b.stop < i)
        follow p s i start fuel todo (if better then { f with best := some ⟨start, i⟩ } else f)
      | none => follow p s i start fuel todo f

/-- Takes the byte at a place, thread by thread. -/
def advance (p : Program) (s : Subject) (b : UInt8) (i : Nat) (f : Frontier) :
    List Thread → Frontier
  | [] => f
  | (n, start) :: rest =>
    let takes :=
      match p.steps[n]? with
      | some (.take set) => set.has b
      | _ => false
    let useful := f.best.all (start ≤ ·.start)
    advance p s b i
      (if takes && useful then follow p s (i + 1) start (3 * p.steps.size + 1) [n + 1] f else f) rest

/-- Goes on from a place; threads are in the order of their beginnings. -/
def sweep (p : Program) (s : Subject) : (fuel i : Nat) → List Thread → Option Span → Option Span
  | 0, _, _, best => best
  | fuel + 1, i, threads, best =>
    match s.bytes[i]? with
    | none => best
    | some b =>
      if threads.isEmpty ∧ best.isSome then best
      else
        let skips := threads.isEmpty && i + 1 < s.bytes.size && p.starts.any fun set =>
          !(s.bytes[i + 1]?.any set.has)
        if skips then sweep p s fuel (i + 1) [] best
        else
          let f : Frontier := { seen := Array.replicate p.steps.size false, best }
          let f := advance p s b i f threads
          let f :=
            if f.best.isNone then follow p s (i + 1) (i + 1) (3 * p.steps.size + 1) [0] f else f
          sweep p s fuel (i + 1) f.threads.reverse f.best

/-- The first and longest match that does not begin before a place. -/
def spanFrom? (p : Program) (s : Subject) (start : Nat) : Option Span :=
  let f : Frontier := { seen := Array.replicate p.steps.size false, best := none }
  let f := follow p s start start (3 * p.steps.size + 1) [0] f
  sweep p s (s.bytes.size + 1 - start) start f.threads.reverse f.best

/-- Where each group begins and ends, as far as that is known. -/
abbrev Notes := Array (Option Nat)

def Notes.group? (notes : Notes) (index : Nat) : Option Span := do
  let start ← (← notes[2 * index]?)
  let stop ← (← notes[2 * index + 1]?)
  return ⟨start, stop⟩

/-- A way through the program that is to be tried. -/
structure Way where
  step : Nat
  place : Nat
  notes : Notes
  /-- What was noted when a group last matched something. -/
  kept : Notes
  /-- Where it parted since the last byte was taken. -/
  idle : List Nat := []

namespace Way

/-- The way after the beginning of a group. -/
def opened (w : Way) (index : Nat) : Way :=
  { w with
    step := w.step + 1
    notes := (w.notes.setIfInBounds (2 * index) (some w.place)).setIfInBounds (2 * index + 1) none }

/-- The way after the end of a group. A spare group that matched before and now matches nothing leaves
no trace. -/
def closed (w : Way) (index : Nat) (spare : Bool) : Way :=
  let start := (w.notes[2 * index]?.join).getD w.place
  let notes := w.notes.setIfInBounds (2 * index + 1) (some w.place)
  if start < w.place then { w with step := w.step + 1, notes, kept := notes }
  else if spare && (w.kept[2 * index]?.join).isSome then { w with step := w.step + 1, notes := w.kept }
  else { w with step := w.step + 1, notes }

end Way

/-- Looks for the first way that ends at a place. No step is taken twice at one place. -/
def findWay (p : Program) (s : Subject) (span : Span) :
    (fuel : Nat) → List Way → (seen : ByteArray) → Option Notes
  | 0, _, _ => none
  | _ + 1, [], _ => none
  | fuel + 1, w :: todo, seen =>
    let cell := (w.place - span.start) * p.steps.size + w.step
    if h : cell < seen.size then
      if seen[cell] = 1 then findWay p s span fuel todo seen
      else
        let seen := seen.set cell 1
        let on (n : Nat) : Way := { w with step := n }
        match p.steps[w.step]? with
        | some (.take set) =>
          let fits := w.place < span.stop && s.bytes[w.place]?.any set.has
          findWay p s span fuel
            (if fits then { w with step := w.step + 1, place := w.place + 1 } :: todo else todo) seen
        | some (.check a) =>
          findWay p s span fuel (if s.holds a w.place then on (w.step + 1) :: todo else todo) seen
        | some (.split a b) => findWay p s span fuel (on a :: on b :: todo) seen
        | some (.jump a) => findWay p s span fuel (on a :: todo) seen
        | some (.opening index) => findWay p s span fuel (w.opened index :: todo) seen
        | some (.closing index spare) =>
          findWay p s span fuel (w.closed index spare :: todo) seen
        | some (.repeatGroup _) => findWay p s span fuel todo seen
        | some .accept =>
          if w.place = span.stop then some w.notes else findWay p s span fuel todo seen
        | none => findWay p s span fuel todo seen
    else findWay p s span fuel todo seen

def noNotes (p : Program) : Notes := Array.replicate (2 * p.groups + 2) none

/-- The beginning of every way from a place. -/
def Way.first (p : Program) (place : Nat) : Way :=
  { step := 0, place, notes := noNotes p, kept := noNotes p }

/-- What the groups of a match match. -/
def notesOf (p : Program) (s : Subject) (span : Span) : Notes :=
  let notes :=
    if p.groups = 0 then noNotes p
    else
      let cells := p.steps.size * (span.stop - span.start + 1)
      (findWay p s span (3 * cells + 1) [Way.first p span.start]
        ⟨Array.replicate cells 0⟩).getD (noNotes p)
  (notes.setIfInBounds 0 (some span.start)).setIfInBounds 1 (some span.stop)

/-- Whether the bytes at two places are the same. -/
def sameBytes (s : Subject) (folds : Bool) (i j : Nat) : (count : Nat) → Bool
  | 0 => true
  | count + 1 =>
    let lower (b : UInt8) : UInt8 := if folds && 65 ≤ b && b ≤ 90 then b + 32 else b
    s.bytes[i + count]?.map lower = s.bytes[j + count]?.map lower && sameBytes s folds i j count

/-- The longest match among all ways, of which the first counts; for programs that refer back. -/
def tryWays (p : Program) (s : Subject) (folds : Bool) :
    (fuel : Nat) → List Way → Option (Nat × Notes) → Option (Nat × Notes)
  | 0, _, best => best
  | _ + 1, [], best => best
  | fuel + 1, w :: todo, best =>
    let on (n : Nat) : Way := { w with step := n }
    match p.steps[w.step]? with
    | some (.take set) =>
      tryWays p s folds fuel
        (if s.bytes[w.place]?.any set.has then
            { w with step := w.step + 1, place := w.place + 1, idle := [] } :: todo
          else todo) best
    | some (.check a) =>
      tryWays p s folds fuel (if s.holds a w.place then on (w.step + 1) :: todo else todo) best
    | some (.split a b) =>
      -- A round that takes nothing leads nowhere.
      if w.step ∈ w.idle then tryWays p s folds fuel todo best
      else
        let idle := w.step :: w.idle
        tryWays p s folds fuel ({ on a with idle } :: { on b with idle } :: todo) best
    | some (.jump a) => tryWays p s folds fuel (on a :: todo) best
    | some (.opening index) => tryWays p s folds fuel (w.opened index :: todo) best
    | some (.closing index spare) => tryWays p s folds fuel (w.closed index spare :: todo) best
    | some (.repeatGroup index) =>
      match w.notes.group? index with
      | some g =>
        let size := g.stop - g.start
        let fits := w.place + size ≤ s.bytes.size && sameBytes s folds g.start w.place size
        let next : Way :=
          { w with
            step := w.step + 1, place := w.place + size
            idle := if size = 0 then w.idle else [] }
        tryWays p s folds fuel (if fits then next :: todo else todo) best
      | none => tryWays p s folds fuel todo best
    | some .accept =>
      let better :=
        match best with
        | none => true
        | some (stop, _) => stop < w.place
      tryWays p s folds fuel todo (if better then some (w.place, w.notes) else best)
    | none => tryWays p s folds fuel todo best

/-- The most steps that are tried for one beginning. -/
def maxSteps : Nat := 2000000

/-- The first beginning with a match, for programs that refer back. -/
def searchWays (p : Program) (s : Subject) (folds : Bool) : (fuel start : Nat) → Option Notes
  | 0, _ => none
  | fuel + 1, start =>
    match tryWays p s folds maxSteps [Way.first p start] none with
    | some (stop, notes) =>
      some ((notes.setIfInBounds 0 (some start)).setIfInBounds 1 (some stop))
    | none => if s.bytes.size ≤ start then none else searchWays p s folds fuel (start + 1)

/-- The first and longest match that does not begin before a place, with what its groups match. -/
def search (p : Program) (folds : Bool) (s : Subject) (start : Nat) : Option Notes :=
  if s.bytes.size < start then none
  else if p.hasReferences then searchWays p s folds (s.bytes.size + 1 - start) start
  else (spanFrom? p s start).map (notesOf p s)

end TensorParity.Text.Regex
