import TensorParity.Comparison.Verdict
import TensorParity.File.System
import TensorParity.Record.Tensor
import TensorParity.Report.CaseLog

/-!
Cases that check the comparison itself: hand-written tuples with the verdict they must get.
-/
namespace TensorParity

open Json

structure FixtureCase where
  name : String
  reference : OutputTuple
  target : OutputTuple
  /-- The tolerance of the run, if the case has none of its own. -/
  tolerance : Option Tolerance
  /-- The reason code that the comparison must give. -/
  expected : String
  /-- The position that it must name, if the case says so. -/
  expectedPosition : Option Nat

inductive FixtureError where
  | missing (path : Path) (error : FileError)
  | tooLarge (path : Path) (actual limit : Nat)
  | reading (path : Path) (error : FileError)
  | malformed (path : Path) (fault : Fault)
  deriving DecidableEq

def FixtureError.message : FixtureError → String
  | missing path error => s!"failed reading fixture metadata {path.text}: {error.message}"
  | tooLarge path actual limit =>
    s!"fixture {path.text} exceeds max bytes: actual={actual} max={limit}"
  | reading path error => s!"failed reading fixture {path.text}: {error.message}"
  | malformed path fault => s!"failed parsing fixture {path.text}: {fault.message}"

namespace FixtureCase

/-- The fields read so far. -/
structure Slots where
  name : Option String := none
  reference : Option OutputTuple := none
  target : Option OutputTuple := none
  tolerance : Option (Option Tolerance) := none
  expected : Option String := none
  expectedPosition : Option (Option Nat) := none

def Slots.field (s : Slots) (name : String) (value : Json) : Decoded Slots :=
  match name with
  | "name" => return { s with name := ← fill name s.name asString value }
  | "reference" => return { s with reference := ← fill name s.reference OutputTuple.ofJson value }
  | "target" => return { s with target := ← fill name s.target OutputTuple.ofJson value }
  | "tolerance" =>
    return { s with tolerance := ← fill name s.tolerance (asOption Tolerance.ofJson) value }
  | "expected" => return { s with expected := ← fill name s.expected asString value }
  | "expected_position" =>
    return { s with
      expectedPosition := ← fill name s.expectedPosition (asOption asWord) value }
  | _ => throw (.unknownField name)

def ofJson (j : Json) : Decoded FixtureCase := do
  let s ← walkRecord
    ["name", "reference", "target", "tolerance", "expected", "expected_position"]
    Slots.field {} j
  let name ← required "name" s.name
  let reference ← required "reference" s.reference
  let target ← required "target" s.target
  let expected ← required "expected" s.expected
  return ⟨name, reference, target, s.tolerance.join, expected, s.expectedPosition.join⟩

end FixtureCase

/-- The outcome of one case. -/
structure FixtureReport where
  name : String
  expected : String
  actual : String
  positionOk : Bool
  log : CaseLog

def FixtureReport.passed (r : FixtureReport) : Bool := r.expected = r.actual && r.positionOk

namespace Fixture

def suite : String := "equivalence_checker"

def fileName : String := "equivalence_cases.json"

def maxBytes : Nat := 1048576

/-- What the log says of a comparison: reason code, position, and the difference or the error. -/
def finding : Except ComparisonError Verdict → String × Option Nat × Json
  | .ok v => (v.code, v.mismatch.bind Mismatch.position, .ofOption Mismatch.toJson v.mismatch)
  | .error e => (e.code, none, .string e.message)

/-- Runs one case. -/
def runCase (default : Tolerance) (c : FixtureCase) : FixtureReport :=
  let tolerance := c.tolerance.getD default
  let (actual, position, detail) := finding (compare c.reference c.target tolerance)
  let positionOk := c.expectedPosition.all fun expected => position = some expected
  let passed := c.expected = actual && positionOk
  { name := c.name
    expected := c.expected
    actual
    positionOk
    log :=
      (CaseLog.make suite c.name "checker" "fixture" 0
        ["crates/cp-conformance/fixtures/" ++ fileName]
        ("cargo test -p cp-conformance equivalence_fixture_conformance_is_green " ++
          "-- --nocapture")
        passed (if passed then "verdict_ok" else "verdict_mismatch")).withExtra [
        ("expected_verdict", .string c.expected),
        ("actual_verdict", .string actual),
        ("tolerance", tolerance.toJson),
        ("mismatch", detail)] }

/-- The cases of a fixture file read so far. -/
structure Slots where
  cases : Option (List FixtureCase) := none

def Slots.field (s : Slots) (name : String) (value : Json) : Decoded Slots :=
  match name with
  | "cases" => return { s with cases := ← fill name s.cases (asList FixtureCase.ofJson) value }
  | _ => throw (.unknownField name)

def casesOfJson (j : Json) : Decoded (List FixtureCase) := do
  let s ← walkRecord ["cases"] Slots.field {} j
  required "cases" s.cases

/-- Reads the cases of a fixture file. -/
def load (fs : FileSystem) (p : Path) : Except FixtureError (List FixtureCase) := do
  let size ← (fs.size p).mapError (.missing p)
  if maxBytes < size then
    .error (.tooLarge p size maxBytes)
  let text ← (fs.readText p).mapError (.reading p)
  (Json.decode casesOfJson (Document.ofString text)).mapError (.malformed p)

/-- Runs the cases of the fixture file below a directory. -/
def run (fs : FileSystem) (root : Path) (default : Tolerance) :
    Except FixtureError (List FixtureReport) := do
  let cases ← load fs (root.join fileName)
  return cases.map (runCase default)

end Fixture

end TensorParity
