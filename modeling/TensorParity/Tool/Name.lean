import TensorParity.Tool.Options
import TensorParity.Tool.Quoting

/-!
Parts of paths: `basename` yields the last name, with or without an ending, and `dirname` what comes
before it.
-/
namespace TensorParity.Tool

namespace PathText

/-- Without slashes at the end. -/
def trimmed (cs : List Char) : List Char := (cs.reverse.dropWhile (· = '/')).reverse

/-- The last name of a path. A path of slashes alone has the name of the root. -/
def lastName (path : String) : String :=
  match trimmed path.toList with
  | [] => if path = "" then "" else "/"
  | cs => String.ofList (cs.reverse.takeWhile (· ≠ '/')).reverse

/-- A name without an ending, unless it is all of it. -/
def without (ending name : String) : String :=
  if name.startsWith "/" ∨ name = ending ∨ !name.endsWith ending then name
  else String.ofList (name.toList.take (name.length - ending.length))

/-- What comes before the last name. -/
def directory (path : String) : String :=
  let cs := trimmed path.toList
  let before := trimmed (cs.reverse.dropWhile (· ≠ '/')).reverse
  if !before.isEmpty then String.ofList before
  else if path.startsWith "/" then "/"
  else "."

end PathText

/-- The operands, of which there must be one at least. -/
def someOperands (g : Given) : Act (List String) := do
  if let some fault := g.fault then Act.misuse 1 fault
  if g.operands.isEmpty then Act.misuse 1 "missing operand"
  return g.operands

namespace Basename

def options : List OptionName :=
  [{ name := "a", others := ["multiple"] }, { name := "s", takes := .argument, others := ["suffix"] },
    { name := "z", others := ["zero"] }]

def main : Act Unit := do
  let g := Given.read options false (← get).call.arguments
  let operands ← someOperands g
  let several := g.has "a" || g.has "s"
  let finish := if g.has "z" then "\x00" else "\n"
  let show_ (ending name : String) : String :=
    PathText.without ending (PathText.lastName name) ++ finish
  if several then
    Act.printText (String.join (operands.map (show_ ((g.last? "s").getD ""))))
  else
    match operands with
    | [name] => Act.printText (show_ "" name)
    | [name, ending] => Act.printText (show_ ending name)
    | _ :: _ :: extra :: _ => Act.misuse 1 s!"extra operand {quoted extra}"
    | [] => return ()

end Basename

namespace Dirname

def options : List OptionName := [{ name := "z", others := ["zero"] }]

def main : Act Unit := do
  let g := Given.read options false (← get).call.arguments
  let operands ← someOperands g
  let finish := if g.has "z" then "\x00" else "\n"
  Act.printText (String.join (operands.map fun path => PathText.directory path ++ finish))

end Dirname

end TensorParity.Tool
