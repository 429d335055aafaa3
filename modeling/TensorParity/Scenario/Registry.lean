import TensorParity.Scenario.Basic

/-!
Registries of scenarios. Their names stay apart even as file names, and each has a primary axis; the
check is part of the type. Names are looked up by their spelling as file names.
-/
namespace TensorParity

/-- Why scenarios do not make a registry. -/
inductive RegistryError where
  | emptyName
  /-- An earlier scenario has the same canonical name. -/
  | collision (name canonical : String)
  | noPrimaryAxis (name : String)
  deriving DecidableEq

def RegistryError.message : RegistryError → String
  | emptyName => "scenario name must not be empty"
  | collision name canonical =>
    s!"scenario '{name}' collides with another scenario as '{canonical}'"
  | noPrimaryAxis name =>
    s!"scenario '{name}' must vary parameter cardinality, a stability constant or an optional input"

/-- A name that no scenario has. -/
structure UnknownScenario where
  name : String
  known : List String
  deriving DecidableEq

def UnknownScenario.message (e : UnknownScenario) : String :=
  s!"unknown scenario '{e.name}'. known: " ++ ", ".intercalate e.known

namespace Registry

/-- Checks one scenario against the canonical names before it. -/
def checkScenario (seen : List String) (s : Scenario) : Except RegistryError (List String) :=
  let canonical := s.canonicalName
  if canonical = "" then .error .emptyName
  else if canonical ∈ seen then .error (.collision s.name canonical)
  else if !s.hasPrimaryAxis then .error (.noPrimaryAxis s.name)
  else .ok (canonical :: seen)

/-- Checks scenarios in order and reports the first fault. -/
def check (scenarios : List Scenario) : Except RegistryError Unit := do
  let _ ← scenarios.foldlM checkScenario []

end Registry

structure Registry where
  scenarios : List Scenario
  valid : Registry.check scenarios = .ok ()

namespace Registry

/-- A registry of scenarios that pass the check. -/
def ofScenarios (scenarios : List Scenario) : Except RegistryError Registry :=
  match h : check scenarios with
  | .ok () => .ok ⟨scenarios, h⟩
  | .error e => .error e

def names (r : Registry) : List String := r.scenarios.map (·.name)

/-- The scenario with this name, however it is spelled. -/
def find? (r : Registry) (name : String) : Option Scenario :=
  r.scenarios.find? (·.canonicalName = Text.caseName name)

/-- The name that the registry has for a name. -/
def resolve (r : Registry) (name : String) : Except UnknownScenario String :=
  match r.find? name with
  | some s => .ok s.name
  | none => .error ⟨name, r.names⟩

/-- The scenarios of these names in the order of the registry; without names, all of them. -/
def select (r : Registry) (names : List String) : Except UnknownScenario (List Scenario) := do
  if names.isEmpty then
    return r.scenarios
  let wanted ← names.mapM r.resolve
  return r.scenarios.filter (·.name ∈ wanted)

end Registry

end TensorParity
