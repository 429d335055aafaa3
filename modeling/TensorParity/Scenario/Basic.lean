import TensorParity.Model.Layer
import TensorParity.Text.CharClass

/-!
Scenarios. A scenario names a model and concrete inputs for it, both drawn from one seed, and says
along which axes it differs from the others. Building one twice from the same seed gives the same
setup.
-/
namespace TensorParity

inductive ModelFamily where
  | batchNorm
  | deformConv2d
  deriving DecidableEq

def ModelFamily.name : ModelFamily → String
  | batchNorm => "batch_norm"
  | deformConv2d => "deform_conv2d"

/-- What a scenario varies. -/
inductive CoverageAxis where
  /-- The number of parameters of a layer. -/
  | parameterCardinality
  /-- The constant that keeps a division stable. -/
  | stabilityConstant
  /-- An operand that may be left out. -/
  | optionalInput
  | multiOutput
  | halfPrecisionParameters
  deriving DecidableEq

namespace CoverageAxis

def name : CoverageAxis → String
  | parameterCardinality => "parameter_cardinality"
  | stabilityConstant => "stability_constant"
  | optionalInput => "optional_input"
  | multiOutput => "multi_output"
  | halfPrecisionParameters => "half_precision_parameters"

/-- Whether the axis alone is reason enough for a scenario. -/
def isPrimary : CoverageAxis → Bool
  | parameterCardinality => true
  | stabilityConstant => true
  | optionalInput => true
  | multiOutput => false
  | halfPrecisionParameters => false

end CoverageAxis

/-- A model and the inputs it is captured and run with. -/
structure ScenarioSetup where
  model : Model
  inputs : List (Tensor Float)
  deriving DecidableEq

def ScenarioSetup.inputShapes (s : ScenarioSetup) : List Shape := s.inputs.map (·.shape)

structure Scenario where
  name : String
  family : ModelFamily
  /-- The seed that is used unless another is asked for. -/
  seed : UInt64
  axes : List CoverageAxis
  build : UInt64 → Except GraphError ScenarioSetup

/-- A scenario whose builder was refused. -/
structure SetupError where
  scenario : String
  error : GraphError
  deriving DecidableEq

def SetupError.message (e : SetupError) : String :=
  s!"scenario '{e.scenario}' setup failed: {e.error.message}"

namespace Scenario

def setupWith (s : Scenario) (seed : UInt64) : Except SetupError ScenarioSetup :=
  (s.build seed).mapError (⟨s.name, ·⟩)

def setup (s : Scenario) : Except SetupError ScenarioSetup := s.setupWith s.seed

/-- The name as it stands in file names and identifiers. -/
def canonicalName (s : Scenario) : String := Text.caseName s.name

def hasPrimaryAxis (s : Scenario) : Bool := s.axes.any CoverageAxis.isPrimary

end Scenario

end TensorParity
