import TensorParity.Shell.Expansion

/-!
Redirections. Their words are expanded first; then descriptors are opened one after the other, and
what a descriptor was before is kept, so that it can be put back.
-/
namespace TensorParity.Shell

open Machine
open Machine.Routine (ask)

/-- A redirection with its word expanded. -/
inductive Prepared where
  | file (descriptor : Nat) (direction : Direction) (name : String)
  /-- Nothing closes the descriptor. -/
  | copy (descriptor : Nat) (source : Option Nat)
  | text (descriptor : Nat) (content : String)

/-- A descriptor that was redirected, and where what it was before is kept; nowhere if it was
closed. -/
abbrev Kept := Nat × Option Nat

namespace Redirection

variable (capture : Capture)

/-- The descriptor that an expanded word names. -/
def sourceOf (text : String) : Act (Option Nat) :=
  match text.toList with
  | ['-'] => pure none
  | [c] => if c.isDigit then pure (some (c.toNat - 48)) else Act.fail "Syntax error: Bad fd number"
  | _ => Act.fail "Syntax error: Bad fd number"

def prepare : Redirect → Act Prepared
  | .file n direction name => do
    return .file n direction (← Expansion.text capture { tilde := true } name)
  | .copy n (.descriptor source) => return .copy n (some source)
  | .copy n .closed => return .copy n none
  | .copy n (.word w) => do
    let text ← Expansion.text capture { tilde := true } w
    return .copy n (← sourceOf text)
  | .document n index => do
    let w := ((← get).documents.lookup index).getD []
    return .text n (← Expansion.text capture { quoted := true } w)

def prepareAll : List Redirect → Act (List Prepared)
  | [] => pure []
  | r :: rest => do
    let first ← prepare capture r
    return first :: (← prepareAll rest)

/-- Why a file could not be opened. -/
def refusal (direction : Direction) (name : String) (e : FileError) : String :=
  let verb := if direction = .read then "open" else "create"
  let reason :=
    if e = .notFound ∨ e = .notDirectory then
      if direction = .read then "No such file" else "Directory nonexistent"
    else e.description
  s!"cannot {verb} {name}: {reason}"

def accessOf : Direction → Access
  | .read => .read
  | .write => .write
  | .append => .append
  | .update => .update
  | .clobber => .write

/-- Opens a file; a file that is there must not be written over if the shell says so. -/
def openFile (direction : Direction) (name : String) : Act (Except FileError Nat) := do
  let path : Path := ⟨Octet.toText name⟩
  if direction = .write ∧ (← get).isOn 'C' then
    match ← ask (.openFile path .create) with
    | .error .exists =>
      match (← Act.files).locate path with
      | .ok (_, .directory) => return .error .isDirectory
      | .ok _ => return .error .exists
      | .error _ => ask (.openFile path .write)
    | r => return r
  else ask (.openFile path (accessOf direction))

/-- Keeps what a descriptor is, unless that was done before. -/
def keep (kept : List Kept) (descriptor : Nat) : Act (List Kept) := do
  if kept.any (·.1 = descriptor) then return kept
  else return (descriptor, ← ask (.keep descriptor 10)) :: kept

/-- Makes a descriptor what a new one is. -/
def move (kept : List Kept) (new descriptor : Nat) : Act (List Kept) := do
  if new = descriptor then
    if kept.any (·.1 = descriptor) then return kept else return (descriptor, none) :: kept
  else
    let kept ← keep kept descriptor
    let _ ← ask (.duplicate new descriptor)
    let _ ← ask (.close new)
    return kept

/-- Applies redirections; yields what is kept, and whether all went well. -/
def apply : List Kept → List Prepared → Act (List Kept × Bool)
  | kept, [] => return (kept, true)
  | kept, p :: rest => do
    match p with
    | .file n direction name =>
      match ← openFile direction name with
      | .error e => do
        Act.warn (refusal direction name e)
        return (kept, false)
      | .ok new => do
        apply (← move kept new n) rest
    | .copy n none => do
      let kept ← keep kept n
      let _ ← ask (.close n)
      apply kept rest
    | .copy n (some source) => do
      if n = source then apply kept rest
      else
        let kept ← keep kept n
        let found : Bool ← ask (.duplicate source n)
        if found then apply kept rest
        else
          Act.warn s!"{source}: Bad file descriptor"
          return (kept, false)
    | .text n content => do
      let (reading, writing) ← ask .makePipe
      let _ ← ask (.write writing (Octet.toBytes content))
      let _ ← ask (.close writing)
      apply (← move kept reading n) rest

/-- Makes descriptors again what they were. -/
def restore : List Kept → Act Unit
  | [] => pure ()
  | (n, place) :: rest => do
    match place with
    | some copy => do
      let _ ← ask (.duplicate copy n)
      let _ ← ask (.close copy)
    | none => do
      let _ ← ask (.close n)
    restore rest

/-- Lets redirections stay. -/
def settle : List Kept → Act Unit
  | [] => pure ()
  | (_, some copy) :: rest => do
    let _ ← ask (.close copy)
    settle rest
  | (_, none) :: rest => settle rest

end Redirection

end TensorParity.Shell
