/-!
Path texts. A path is kept as it was written; its names are what stands between its slashes, where
empty names and single dots say nothing unless a relative path begins with a dot.
-/
namespace TensorParity

structure Path where
  text : String
  deriving DecidableEq

namespace Path

/-- The pieces of a text between separators. There is always at least one. -/
def pieces (separator : Char) : List Char → List (List Char)
  | [] => [[]]
  | c :: cs =>
    if c = separator then [] :: pieces separator cs
    else
      match pieces separator cs with
      | piece :: rest => (c :: piece) :: rest
      | [] => [[c]]

def isAbsolute (p : Path) : Bool := p.text.toList.head? = some '/'

/-- The pieces below the root or the current directory. -/
def body (p : Path) : List (List Char) :=
  if p.isAbsolute then pieces '/' (p.text.toList.drop 1) else pieces '/' p.text.toList

/-- Whether a piece names anything: `first` tells that it begins a relative path. -/
def names (first : Bool) (piece : List Char) : Bool :=
  piece ≠ [] && (piece ≠ ['.'] || first)

/-- Drops the pieces at the end that name nothing. Pieces are in reverse order. -/
def trimEnd (absolute : Bool) : List (List Char) → List (List Char)
  | [] => []
  | piece :: before =>
    if names (!absolute && before.isEmpty) piece then piece :: before else trimEnd absolute before

/-- The path to the directory that holds the last name. The root and the empty path have none. -/
def parent? (p : Path) : Option Path :=
  match trimEnd p.isAbsolute p.body.reverse with
  | [] => none
  | _ :: before =>
    let kept := (trimEnd p.isAbsolute before).reverse
    some ⟨String.ofList ((if p.isAbsolute then ['/'] else []) ++ ['/'].intercalate kept)⟩

/-- The last name, unless the path ends in the root or in dots. -/
def fileName? (p : Path) : Option String :=
  match trimEnd true p.body.reverse with
  | [] => none
  | piece :: _ => if piece = ['.', '.'] then none else some (String.ofList piece)

/-- A file name without what follows its last dot. A dot that begins the name ends nothing. -/
def stem (name : String) : String :=
  match name.toList.reverse.dropWhile (· ≠ '.') with
  | [] => name
  | [_] => name
  | _ :: before => String.ofList before.reverse

def fileStem? (p : Path) : Option String := p.fileName?.map stem

/-- The path to `next` as seen from `p`. An absolute path stands for itself. -/
def join (p : Path) (next : String) : Path :=
  if next.toList.head? = some '/' then ⟨next⟩
  else if p.text.toList.getLast? = none ∨ p.text.toList.getLast? = some '/' then ⟨p.text ++ next⟩
  else ⟨p.text ++ "/" ++ next⟩

/-- The path to another file in the same directory. -/
def sibling (p : Path) (name : String) : Path :=
  match p.fileName? with
  | none => p.join name
  | some _ => (p.parent?.getD p).join name

/-- The parent, unless it is the current directory and needs no name. -/
def namedParent? (p : Path) : Option Path :=
  p.parent?.filter (·.text ≠ "")

end Path

end TensorParity
