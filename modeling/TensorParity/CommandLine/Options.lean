import TensorParity.File.Path

/-!
Options of the command line. An argument list is read into groups, each an option with its value if
it takes one; the groups are then applied one after the other.
-/
namespace TensorParity.CommandLine

/-- An option that takes the next argument as its value, whatever that looks like. -/
inductive ValueOption where
  | backend
  | scenario
  | workDir
  | output
  | report
  deriving DecidableEq

namespace ValueOption

def flag : ValueOption → String
  | backend => "--backend"
  | scenario => "--scenario"
  | workDir => "--work-dir"
  | output => "--output"
  | report => "--report"

/-- What the value is. -/
def requirement : ValueOption → String
  | backend => "one of: process|loopback"
  | scenario => "a scenario name (see --list)"
  | workDir => "a directory path"
  | output => "a file path"
  | report => "a file path"

def all : List ValueOption := [backend, scenario, workDir, output, report]

def ofFlag? (text : String) : Option ValueOption := all.find? (·.flag = text)

end ValueOption

/-- An option without a value. -/
inductive Switch where
  | keepArtifacts
  | list
  | fullReport
  deriving DecidableEq

namespace Switch

def flag : Switch → String
  | keepArtifacts => "--keep-artifacts"
  | list => "--list"
  | fullReport => "--print-full-report"

def all : List Switch := [keepArtifacts, list, fullReport]

def ofFlag? (text : String) : Option Switch := all.find? (·.flag = text)

end Switch

/-- An option as it stands on the command line. -/
inductive Group where
  | value (option : ValueOption) (text : String)
  | switch (option : Switch)
  deriving DecidableEq

/-- The arguments that spell a group. -/
def Group.arguments : Group → List String
  | value option text => [option.flag, text]
  | switch option => [option.flag]

def usage : String :=
  "usage: run_scenarios [--backend process|loopback] [--scenario NAME]... [--work-dir path] " ++
    "[--output path] [--report path] [--keep-artifacts] [--list] [--print-full-report]"

inductive UsageError where
  | missingValue (option : ValueOption)
  | unknown (argument : String)
  deriving DecidableEq

def UsageError.message : UsageError → String
  | missingValue option => s!"{option.flag} requires {option.requirement}"
  | unknown argument => s!"unknown arg '{argument}'. {usage}"

/-- Reads arguments into groups. The first argument that fits nowhere is reported. -/
def groups : List String → Except UsageError (List Group)
  | [] => .ok []
  | argument :: rest =>
    match ValueOption.ofFlag? argument, Switch.ofFlag? argument, rest with
    | some option, _, text :: rest => do return .value option text :: (← groups rest)
    | some option, _, [] => .error (.missingValue option)
    | none, some option, rest => do return .switch option :: (← groups rest)
    | none, none, _ => .error (.unknown argument)

structure Options where
  backend : String := "process"
  /-- In the order in which they were asked for. -/
  scenarios : List String := []
  workDir : Option Path := none
  output : Option Path := none
  report : Option Path := none
  keepArtifacts : Bool := false
  list : Bool := false
  fullReport : Bool := false
  deriving DecidableEq

namespace Options

/-- Of a repeated option the last value counts, but every scenario is kept. -/
def apply (o : Options) : Group → Options
  | .value .backend text => { o with backend := text }
  | .value .scenario text => { o with scenarios := o.scenarios ++ [text] }
  | .value .workDir text => { o with workDir := some ⟨text⟩ }
  | .value .output text => { o with output := some ⟨text⟩ }
  | .value .report text => { o with report := some ⟨text⟩ }
  | .switch .keepArtifacts => { o with keepArtifacts := true }
  | .switch .list => { o with list := true }
  | .switch .fullReport => { o with fullReport := true }

def ofGroups (gs : List Group) : Options := gs.foldl apply {}

def parse (arguments : List String) : Except UsageError Options :=
  (groups arguments).map ofGroups

end Options

end TensorParity.CommandLine
