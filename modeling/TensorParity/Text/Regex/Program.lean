import TensorParity.Text.Regex.Basic

/-!
A regular expression as a program: numbered steps that take a byte, look at the place between two
bytes, or go on in two ways, of which the first is tried first.
-/
namespace TensorParity.Text.Regex

inductive Step where
  | take (set : ByteSet)
  | check (a : Assertion)
  | split (first second : Nat)
  | jump (target : Nat)
  /-- Notes the place as the beginning of a group. -/
  | opening (index : Nat)
  /-- Notes the place as the end of a group; `spare` tells that the group need not match here. -/
  | closing (index : Nat) (spare : Bool)
  | repeatGroup (index : Nat)
  | accept

/-- So many copies of some steps one after the other. -/
def copies (code : Nat → List Step) (start : Nat) : (count : Nat) → List Step
  | 0 => []
  | count + 1 =>
    let first := code start
    first ++ copies code (start + first.length) count

/-- At most so many copies one after the other. -/
def options (code : Nat → List Step) (start : Nat) : (count : Nat) → List Step
  | 0 => []
  | count + 1 =>
    let first := code (start + 1)
    let rest := options code (start + 1 + first.length) count
    .split (start + 1) (start + 1 + first.length + rest.length) :: (first ++ rest)

/-- As many copies as there may be. -/
def loop (code : Nat → List Step) (start : Nat) : List Step :=
  let body := code (start + 1)
  .split (start + 1) (start + body.length + 2) :: (body ++ [.jump start])

/-- The steps of an expression that begins at a number; `spare` tells that it is a repetition which
need not be there. -/
def steps (start : Nat) (spare : Bool) : Regex → List Step
  | empty => []
  | one set => [.take set]
  | place a => [.check a]
  | group index body =>
    .opening index :: (steps (start + 1) false body ++ [.closing index spare])
  | again index => [.repeatGroup index]
  | both a b =>
    let first := steps start false a
    first ++ steps (start + first.length) false b
  | either a b =>
    let first := steps (start + 1) false a
    let middle := start + 1 + first.length
    let second := steps (middle + 1) false b
    .split (start + 1) (middle + 1) :: (first ++ .jump (middle + 1 + second.length) :: second)
  | repeated body least most =>
    let first := copies (fun n => steps n false body) start least
    let middle := start + first.length
    match most with
    | none => first ++ loop (fun n => steps n true body) middle
    | some n => first ++ options (fun n => steps n true body) middle (n - least)

/-- A program, and what is known of it. -/
structure Program where
  steps : Array Step
  groups : Nat
  hasReferences : Bool
  /-- The bytes with which a match can begin; none if there is an empty one. -/
  starts : Option ByteSet

/-- The bytes that can be taken first from some steps on, as if every place were right; none if there
need not be any. Each round leaves a step behind that it does not come back to. -/
def startsFrom (code : Array Step) : (fuel : Nat) → (todo seen : List Nat) → ByteSet →
    Option ByteSet
  | 0, _, _, _ => none
  | _ + 1, [], _, s => some s
  | fuel + 1, i :: todo, seen, s =>
    if i ∈ seen then startsFrom code fuel todo seen s
    else
      match code[i]? with
      | some (.take set) => startsFrom code fuel todo (i :: seen) (s.union set)
      | some (.check _) => startsFrom code fuel ((i + 1) :: todo) (i :: seen) s
      | some (.split a b) => startsFrom code fuel (a :: b :: todo) (i :: seen) s
      | some (.jump a) => startsFrom code fuel (a :: todo) (i :: seen) s
      | some (.opening _) => startsFrom code fuel ((i + 1) :: todo) (i :: seen) s
      | some (.closing _ _) => startsFrom code fuel ((i + 1) :: todo) (i :: seen) s
      | some (.repeatGroup _) => none
      | some .accept => none
      | none => none

/-- The program of an expression. -/
def program (r : Regex) : Program :=
  let code := (steps 0 false r ++ [Step.accept]).toArray
  { steps := code
    groups := r.groups
    hasReferences := r.hasReferences
    starts := startsFrom code (3 * code.size + 1) [0] [] .empty }

end TensorParity.Text.Regex
