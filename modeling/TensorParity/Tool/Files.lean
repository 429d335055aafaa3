import TensorParity.Tool.Name

/-!
Tools that make, move, copy, remove and list files and directories.
-/
namespace TensorParity.Tool

open Machine
open Machine.Routine (ask)

/-- The path that an operand names. -/
def pathOf (name : String) : Path := ⟨Octet.toText name⟩

namespace Tree

/-- The names in a directory, in their order. -/
def children (fs : FileSystem) (location : Location) : List String :=
  let names := fs.entries.filterMap fun (place, _) =>
    if place.length = location.length + 1 ∧ location.isPrefixOf place then place.getLast? else none
  names.mergeSort fun a b => !(b < a)

/-- What lies at a location and below it, as seen from there. -/
def below (fs : FileSystem) (location : Location) : List (Location × Entry) :=
  fs.entries.filterMap fun (place, entry) =>
    if location.isPrefixOf place then some (place.drop location.length, entry) else none

/-- Without what lies at a location and below it. -/
def drop (fs : FileSystem) (location : Location) : FileSystem :=
  { fs with
    entries := fs.entries.filter fun (place, _) => !location.isPrefixOf place
    runnable := fs.runnable.filter fun place => !location.isPrefixOf place }

/-- What lies at a location and below it, put at another one too. -/
def copy (fs : FileSystem) (source target : Location) : FileSystem :=
  let put (fs : FileSystem) (item : Location × Entry) : FileSystem :=
    let fs' := fs.put (target ++ item.1) item.2
    let run := fs.runnable.contains (source ++ item.1)
    if run && !fs'.runnable.contains (target ++ item.1) then
      { fs' with runnable := (target ++ item.1) :: fs'.runnable }
    else fs'
  ((below fs source).mergeSort fun a b => a.1.length ≤ b.1.length).foldl put fs

/-- Where a path that can be written to leads. -/
def place (fs : FileSystem) (path : Path) : Except FileError Location := do
  match ← fs.resolve path with
  | .reached location => return location
  | .named location slash =>
    match fs.find? location with
    | some (.file _) => if slash then .error .notDirectory else return location
    | some .directory => return location
    | none => if slash then .error .notDirectory else return location

end Tree

/-- Complains and goes on; the tool will end with this status. -/
def blame (text : String) : Act Unit := do
  Act.warn text
  Act.setStatus 1

namespace MakeDirectory

def options : List OptionName :=
  [{ name := "p", others := ["parents"] }, { name := "m", takes := .argument, others := ["mode"] },
    { name := "v", others := ["verbose"] }, { name := "Z", takes := .nothing }]

/-- Makes one directory; yields whether that went well. -/
def one (told : Bool) (name : String) : Act Bool := do
  match ← Act.change (·.makeDirectory (pathOf name)) with
  | .ok () => do
    if told then
      Act.printText s!"{(← get).call.name}: created directory {shellQuoted name}\n"
    return true
  | .error e => do
    blame s!"cannot create directory {shellQuoted name}: {e.description}"
    return false

/-- The paths to a directory and those above it, highest first. -/
def above (name : String) : List String :=
  let cs := name.toList
  let cuts := (List.range cs.length).filter fun i =>
    0 < i && cs[i]? = some '/' && cs[i - 1]? ≠ some '/'
      && (cs.drop i).any (· ≠ '/')
  cuts.map (fun i => String.ofList (cs.take i)) ++ [name]

/-- Makes directories that are missing, up to the first that cannot be made. -/
def all (told : Bool) : List String → Act Unit
  | [] => return ()
  | name :: rest => do
    let fs ← Act.files
    if fs.isDirectory (pathOf name) then all told rest
    else
      match fs.locate (pathOf name), rest with
      | .ok _, [] => blame s!"cannot create directory {shellQuoted name}: File exists"
      | .ok _, _ => blame s!"cannot create directory {shellQuoted name}: Not a directory"
      | .error _, rest => if ← one told name then all told rest

def main : Act Unit := do
  let g ← Act.given options 1
  for name in ← someOperands g do
    if g.has "p" then all (g.has "v") (above name)
    else
      let _ ← one (g.has "v") name

end MakeDirectory

namespace Remove

def options : List OptionName :=
  [{ name := "f", others := ["force"] }, { name := "i" }, { name := "I" },
    { name := "interactive", takes := .perhaps }, { name := "one-file-system" },
    { name := "no-preserve-root" }, { name := "preserve-root", takes := .perhaps },
    { name := "r", others := ["R", "recursive"] }, { name := "d", others := ["dir"] },
    { name := "v", others := ["verbose"] }]

/-- Tells of everything below a directory that goes, innermost first. -/
def tell : (fuel : Nat) → FileSystem → Location → (name : String) → Act Unit
  | 0, _, _, _ => return ()
  | fuel + 1, fs, location, name => do
    for child in Tree.children fs location do
      let inner := location ++ [child]
      let shown := name ++ "/" ++ Octet.ofText child
      match fs.find? inner with
      | some .directory => tell fuel fs inner shown
      | _ => Act.printText s!"removed {shellQuoted shown}\n"
    Act.printText s!"removed directory {shellQuoted name}\n"

def one (g : Given) (name : String) : Act Unit := do
  let fs ← Act.files
  let last := PathText.lastName name
  let deep := g.has "r"
  if deep ∧ last = "/" then
    Act.warn "it is dangerous to operate recursively on '/'"
    blame "use --no-preserve-root to override this failsafe"
  else if deep ∧ (last = "." ∨ last = "..") then
    blame ("refusing to remove '.' or '..' directory: skipping " ++ shellQuoted name)
  else
    match fs.locate (pathOf name) with
    | .error e => do
      if !(g.has "f" ∧ (e = .notFound ∨ e = .notDirectory)) then
        blame s!"cannot remove {shellQuoted name}: {e.description}"
    | .ok (location, .file _) => do
      ask (.change (·.drop location))
      if g.has "v" then Act.printText s!"removed {shellQuoted name}\n"
    | .ok (location, .directory) => do
      if deep then
        if g.has "v" then tell (fs.entries.length + 1) fs location name
        ask (.change fun fs => Tree.drop fs location)
      else if g.has "d" then
        if (Tree.children fs location).isEmpty then
          ask (.change (·.drop location))
          if g.has "v" then Act.printText s!"removed directory {shellQuoted name}\n"
        else blame s!"cannot remove {shellQuoted name}: Directory not empty"
      else blame s!"cannot remove {shellQuoted name}: Is a directory"

def main : Act Unit := do
  let g ← Act.given options 1
  if g.operands.isEmpty ∧ g.has "f" then return ()
  for name in ← someOperands g do
    one g name

end Remove

namespace RemoveDirectory

def options : List OptionName :=
  [{ name := "p", others := ["parents"] }, { name := "v", others := ["verbose"] },
    { name := "ignore-fail-on-non-empty" }]

/-- Removes one empty directory; yields whether that went well. -/
def one (g : Given) (name : String) : Act Bool := do
  if g.has "v" then Act.printText s!"rmdir: removing directory, {shellQuoted name}\n"
  let fs ← Act.files
  let refused (e : FileError) : Act Bool := do
    if !(e = .notEmpty ∧ g.has "ignore-fail-on-non-empty") then
      blame s!"failed to remove {shellQuoted name}: {e.description}"
    return false
  if PathText.lastName name = "." then refused .invalid
  else if PathText.lastName name = ".." then refused .notEmpty
  else
    match fs.locate (pathOf name) with
    | .error e => refused e
    | .ok (_, .file _) => refused .notDirectory
    | .ok (location, .directory) => do
      if !(Tree.children fs location).isEmpty then refused .notEmpty
      else do
        ask (.change (·.drop location))
        return true

/-- Removes directories up to the first that cannot be removed. -/
def all (g : Given) : List String → Act Unit
  | [] => return ()
  | name :: rest => do
    if ← one g name then all g rest

def main : Act Unit := do
  let g ← Act.given options 1
  for name in ← someOperands g do
    if g.has "p" then all g (MakeDirectory.above (String.ofList (PathText.trimmed name.toList))).reverse
    else
      let _ ← one g name

end RemoveDirectory

namespace Touch

def options : List OptionName :=
  [{ name := "a" }, { name := "c", others := ["no-create"] }, { name := "f" },
    { name := "h", others := ["no-dereference"] }, { name := "m" },
    { name := "d", takes := .argument, others := ["date"] },
    { name := "r", takes := .argument, others := ["reference"] },
    { name := "t", takes := .argument }, { name := "time", takes := .argument }]

def main : Act Unit := do
  let g ← Act.given options 1
  if g.operands.isEmpty then Act.misuse 1 "missing file operand"
  for name in g.operands do
    if name ≠ "-" then
      match (← Act.files).locate (pathOf name) with
      | .ok _ => pure ()
      | .error .notFound => do
        if !g.has "c" then
          match ← Act.openFile name .append with
          | .ok n => Act.close n
          | .error e => do
            let e := if e = .isDirectory then .notFound else e
            blame s!"cannot touch {shellQuoted name}: {e.description}"
      | .error e => blame s!"cannot touch {shellQuoted name}: {e.description}"

end Touch

namespace Transfer

/-- What becomes of the source. -/
inductive Way where
  | copy
  | move
  | link
  deriving DecidableEq

def options (way : Way) : List OptionName :=
  let common : List OptionName :=
    [{ name := "f", others := ["force"] }, { name := "i", others := ["interactive"] },
      { name := "n", others := ["no-clobber"] }, { name := "v", others := ["verbose"] },
      { name := "T", others := ["no-target-directory"] },
      { name := "t", takes := .argument, others := ["target-directory"] },
      { name := "u" }, { name := "b" }]
  match way with
  | .copy =>
    common ++ [{ name := "r", others := ["R", "recursive"] }, { name := "a", others := ["archive"] },
      { name := "p" }, { name := "d" }, { name := "l" }, { name := "s" }, { name := "P" },
      { name := "L" }, { name := "H" }, { name := "preserve", takes := .perhaps }]
  | .move => common
  | .link => common ++ [{ name := "s", others := ["symbolic"] }, { name := "r" }]

/-- A directory and a name in it. -/
def inside (directory name : String) : String :=
  if directory.endsWith "/" then directory ++ name else directory ++ "/" ++ name

/-- Tells of everything that is copied, in its order. -/
def tell : (fuel : Nat) → FileSystem → Location → (source target : String) → Act Unit
  | 0, _, _, _, _ => return ()
  | fuel + 1, fs, location, source, target => do
    Act.printText s!"{shellQuoted source} -> {shellQuoted target}\n"
    for child in Tree.children fs location do
      let name := Octet.ofText child
      tell fuel fs (location ++ [child]) (inside source name) (inside target name)

/-- Takes one file or directory to a path. -/
def one (way : Way) (g : Given) (source target : String) : Act Unit := do
  let fs ← Act.files
  let sourceName := shellQuoted source
  let targetName := shellQuoted target
  let deep := way = .move || g.has "r" || g.has "a"
  match fs.locate (pathOf source), Tree.place fs (pathOf target) with
  | .error e, _ =>
    if way = .link then blame s!"failed to access {sourceName}: {e.description}"
    else blame s!"cannot stat {sourceName}: {e.description}"
  | .ok (_, .directory), .error e =>
    if !deep then blame s!"-r not specified; omitting directory {sourceName}"
    else if way = .move then blame s!"cannot move {sourceName} to {targetName}: {e.description}"
    else blame s!"cannot create directory {targetName}: {e.description}"
  | .ok (_, .file _), .error e =>
    if way = .move then blame s!"cannot move {sourceName} to {targetName}: {e.description}"
    else if way = .link then blame s!"failed to create hard link {targetName}: {e.description}"
    else blame s!"cannot create regular file {targetName}: {e.description}"
  | .ok (location, entry), .ok place =>
    if way ≠ .link ∧ entry = .directory ∧ !deep then
      blame s!"-r not specified; omitting directory {sourceName}"
    else if location = place then blame s!"{sourceName} and {targetName} are the same file"
    else if g.has "n" ∧ (fs.find? place).isSome then return ()
    else if entry = .directory ∧ location.isPrefixOf place then
      if way = .move then blame s!"cannot move {sourceName} to a subdirectory of itself, {targetName}"
      else blame s!"cannot copy a directory, {sourceName}, into itself, {targetName}"
    else
      match entry, fs.find? place with
      | .directory, some (.file _) =>
        blame s!"cannot overwrite non-directory {targetName} with directory {sourceName}"
      | .file _, some .directory =>
        blame s!"cannot overwrite directory {targetName} with non-directory"
      | entry, found => do
        if way = .move ∧ entry = .directory ∧ found.isSome
            ∧ !(Tree.children fs place).isEmpty then
          blame s!"cannot overwrite {targetName}: Directory not empty"
        else if way = .link ∧ found.isSome ∧ !g.has "f" then
          blame s!"failed to create hard link {targetName}: File exists"
        else
          let kept := way ≠ .move
          ask (.change fun fs =>
            let after := Tree.copy fs location place
            if kept then after else Tree.drop after location)
          if g.has "v" then
            match way with
            | .move => Act.printText s!"renamed {sourceName} -> {targetName}\n"
            | .copy => tell (fs.entries.length + 1) fs location source target
            | .link => Act.printText s!"{targetName} => {sourceName}\n"

def each (way : Way) (g : Given) (directory : String) : List String → Act Unit
  | [] => return ()
  | name :: rest => do
    one way g name (inside directory (PathText.lastName name))
    each way g directory rest

def main (way : Way) : Act Unit := do
  let g ← Act.given (options way) 1
  let fs ← Act.files
  match g.operands.reverse, g.last? "t" with
  | [], _ => Act.misuse 1 "missing file operand"
  | _, some directory =>
    if fs.isDirectory (pathOf directory) then each way g directory g.operands
    else Act.fail 1 s!"target directory {shellQuoted directory}: No such file or directory"
  | [name], none =>
    if way = .link then one way g name (PathText.lastName name)
    else Act.misuse 1 s!"missing destination file operand after {shellQuoted name}"
  | [target, source], none =>
    if fs.isDirectory (pathOf target) ∧ !g.has "T" then each way g target [source]
    else one way g source target
  | target :: sources, none =>
    if g.has "T" then
      Act.misuse 1 s!"extra operand {shellQuoted target}"
    else if fs.isDirectory (pathOf target) then each way g target sources.reverse
    else
      let e :=
        match fs.locate (pathOf target) with
        | .ok _ => FileError.notDirectory
        | .error e => e
      Act.fail 1 s!"target {shellQuoted target}: {e.description}"

end Transfer

namespace Permissions

def options : List OptionName :=
  [{ name := "R", others := ["recursive"] }, { name := "v", others := ["verbose"] },
    { name := "f", others := ["silent", "quiet"] }, { name := "c", others := ["changes"] }]

/-- Whether files may be run after a change of their permissions; none if the text says no such
change. -/
def runnable? (mode : String) (before : Bool) : Option Bool :=
  let cs := mode.toList
  if !cs.isEmpty ∧ cs.all fun c => '0' ≤ c && c ≤ '7' then
    if cs.length ≤ 5 then
      some ((cs.reverse.take 3).any fun c => (c.toNat - 48) % 2 = 1)
    else none
  else
    (mode.splitOn ",").foldl (fun result clause => result.bind fun before =>
      let cs := clause.toList.dropWhile fun c => "ugoa".contains c
      match cs with
      | sign :: letters =>
        if "+-=".contains sign && letters.all (fun c => "rwxXst".contains c) then
          let runs := letters.contains 'x'
          some (if sign = '+' then before || runs else if sign = '-' then before && !runs else runs)
        else none
      | [] => none) (some before)

def one (mode : String) (name : String) : Act Unit := do
  match (← Act.files).locate (pathOf name) with
  | .error e => blame s!"cannot access {shellQuoted name}: {e.description}"
  | .ok (location, _) =>
    ask (.change fun fs =>
      let before := fs.runnable.contains location
      let others := fs.runnable.filter (· ≠ location)
      let after := (runnable? mode before).getD before
      { fs with runnable := if after then location :: others else others })

def main : Act Unit := do
  let words := (← get).call.arguments
  let isMode (word : String) : Bool :=
    word.startsWith "-" && (runnable? word false).isSome
  let g := Given.read options true (words.filter (!isMode ·))
  if let some fault := g.fault then Act.misuse 1 fault
  match words.filter isMode ++ g.operands with
  | [] => Act.misuse 1 "missing operand"
  | mode :: names =>
    if names.isEmpty then Act.misuse 1 s!"missing operand after {quoted mode}"
    if (runnable? mode false).isNone then Act.misuse 1 s!"invalid mode: {quoted mode}"
    for name in names do
      one mode name

end Permissions

namespace Listing

def options : List OptionName :=
  [{ name := "1" }, { name := "a", others := ["all"] }, { name := "A", others := ["almost-all"] },
    { name := "C" }, { name := "d", others := ["directory"] }, { name := "f" },
    { name := "F", takes := .nothing, others := ["classify"] }, { name := "h" }, { name := "l" },
    { name := "p" }, { name := "q" }, { name := "r", others := ["reverse"] },
    { name := "R", others := ["recursive"] }, { name := "s" }, { name := "S" }, { name := "t" },
    { name := "U" }, { name := "x" }, { name := "color", takes := .perhaps }]

/-- A name with the sign of what it names. -/
def marked (g : Given) (fs : FileSystem) (location : Location) (name : String) : String :=
  if fs.find? location = some .directory then
    if g.has "F" ∨ g.has "p" then name ++ "/" else name
  else if g.has "F" ∧ fs.runnable.contains location then name ++ "*"
  else name

/-- The lines for a directory. -/
def lines (g : Given) (fs : FileSystem) (location : Location) : List String :=
  let hidden := g.has "a" || g.has "A"
  let names := (Tree.children fs location).filter fun name => hidden || !name.startsWith "."
  let shown := names.map fun name => marked g fs (location ++ [name]) (Octet.ofText name)
  let dots := if g.has "a" then (if g.has "F" || g.has "p" then ["./", "../"] else [".", ".."]) else []
  let all := dots ++ shown
  if g.has "r" then all.reverse else all

/-- What is shown of directories: under a heading each, if there are several. -/
def directories (g : Given) (fs : FileSystem) : (fuel : Nat) → (titled first : Bool) →
    List (Location × String) → Act Unit
  | 0, _, _, _ => return ()
  | _ + 1, _, _, [] => return ()
  | fuel + 1, titled, first, (location, name) :: rest => do
    if !first then Act.printText "\n"
    if titled then Act.printText s!"{name}:\n"
    Act.printText (String.join ((lines g fs location).map (· ++ "\n")))
    let inner :=
      if g.has "R" then
        (Tree.children fs location).filterMap fun child =>
          if fs.find? (location ++ [child]) = some .directory ∧ !child.startsWith "." then
            some (location ++ [child], Transfer.inside name (Octet.ofText child))
          else none
      else []
    directories g fs fuel titled false (inner ++ rest)

def main : Act Unit := do
  let g ← Act.given options 2
  let fs ← Act.files
  let names := if g.operands.isEmpty then ["."] else g.operands
  let sorted := names.mergeSort fun a b => !(b < a)
  let mut files : List String := []
  let mut places : List (Location × String) := []
  for name in names do
    if let .error e := fs.locate (pathOf name) then
      Act.warn s!"cannot access {shellQuoted name}: {e.description}"
      Act.setStatus 2
  for name in sorted do
    match fs.locate (pathOf name) with
    | .error _ => pure ()
    | .ok (location, .directory) =>
      if g.has "d" then files := files ++ [marked g fs location name]
      else places := places ++ [(location, name)]
    | .ok (location, .file _) => files := files ++ [marked g fs location name]
  Act.printText (String.join (files.map (· ++ "\n")))
  let titled := 1 < names.length || g.has "R"
  directories g fs (fs.entries.length + places.length + 1) titled files.isEmpty places

end Listing

end TensorParity.Tool
