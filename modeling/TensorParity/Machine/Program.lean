import TensorParity.Machine.Answer
import TensorParity.Text.Utf8

/-!
Programs, and the places of a system that are there besides its files: devices, the usual
directories, and the programs in them. What programs are given and what they print is octet text.
-/
namespace TensorParity.Machine

/-- How a program is started. -/
structure Call where
  /-- The name that it goes by. -/
  name : String
  arguments : List String
  environment : List (String × String) := []

/-- The programs of a system by their names. -/
abbrev Programs := String → Option (Call → Process)

namespace Standing

/-- Directories with programs. -/
def binaries : List String := ["/usr/bin", "/bin"]

def directories : List String :=
  ["/", "/bin", "/boot", "/dev", "/dev/fd", "/dev/pts", "/dev/shm", "/etc", "/home", "/lib",
    "/lib64", "/media", "/mnt", "/opt", "/proc", "/proc/self", "/proc/self/fd", "/root", "/run",
    "/sbin", "/srv", "/sys", "/tmp", "/usr", "/usr/bin", "/usr/include", "/usr/lib", "/usr/local",
    "/usr/local/bin", "/usr/local/lib", "/usr/local/sbin", "/usr/sbin", "/usr/share", "/usr/src",
    "/var", "/var/cache", "/var/lib", "/var/log", "/var/run", "/var/tmp"]

def devices : List String :=
  ["/dev/null", "/dev/zero", "/dev/full", "/dev/random", "/dev/urandom", "/dev/tty"]

/-- A path without slashes at its end. -/
def trimmed (path : String) : String :=
  match (path.toList.reverse.dropWhile (· = '/')).reverse with
  | [] => path
  | cs => String.ofList cs

/-- The name of the program that an absolute path leads to. -/
def programName? (path : String) : Option String :=
  binaries.findSome? fun directory =>
    if path.startsWith (directory ++ "/") then
      let name := (path.drop (directory.length + 1)).toString
      if name = "" || name.any (· = '/') then none else some name
    else none

end Standing

/-- What is at a path. -/
inductive Kind where
  | nothing
  | file (size : Nat) (runnable : Bool)
  | directory
  | device
  | pipe
  deriving DecidableEq

namespace Kind

def isThere (k : Kind) : Bool := k ≠ nothing

/-- What is at a path of the files, or else among the standing places. -/
def ofPath (programs : Programs) (fs : FileSystem) (path : String) : Kind :=
  let text := Octet.toText path
  match fs.locate ⟨text⟩ with
  | .ok (_, .directory) => directory
  | .ok (location, .file content) => file content.size (location ∈ fs.runnable)
  | .error _ =>
    if !path.startsWith "/" then nothing
    else if Standing.directories.contains (Standing.trimmed path) then directory
    else if Standing.devices.contains path then device
    else if (State.descriptorOf? text).isSome then pipe
    else if ((Standing.programName? path).bind programs).isSome then file 100000 true
    else nothing

end Kind

/-- What running a path comes to. -/
inductive Launch where
  | program (run : Call → Process)
  /-- A file that says which program runs it, with at most one argument. -/
  | script (interpreter : String) (argument : Option String)
  /-- A file that a shell runs. -/
  | plain
  | refused (error : FileError)

/-- The first line of a script that names its interpreter. -/
def interpreterLine? (content : ByteArray) : Option (String × Option String) :=
  match (Octet.ofBytes (content.extract 0 256)).toList with
  | '#' :: '!' :: rest =>
    let isBlank (c : Char) : Bool := c = ' ' || c = '\t'
    let line := (rest.takeWhile (· ≠ '\n')).dropWhile isBlank
    let name := line.takeWhile (!isBlank ·)
    let argument := (line.drop name.length).dropWhile isBlank
    let argument := (argument.reverse.dropWhile isBlank).reverse
    if name.isEmpty then none
    else
      some (String.ofList name, if argument.isEmpty then none else some (String.ofList argument))
  | _ => none

/-- What a path would run. -/
def Launch.ofPath (programs : Programs) (fs : FileSystem) (path : String) : Launch :=
  match fs.locate ⟨Octet.toText path⟩ with
  | .ok (_, .directory) => refused .denied
  | .ok (location, .file content) =>
    if location ∉ fs.runnable then refused .denied
    else
      match interpreterLine? content with
      | some (name, argument) => script name argument
      | none => plain
  | .error e =>
    match (Standing.programName? path).bind programs with
    | some run => program run
    | none =>
      if path.startsWith "/" ∧ Standing.directories.contains (Standing.trimmed path) then
        refused .denied
      else if Standing.devices.contains path then refused .denied
      else refused e

end TensorParity.Machine
