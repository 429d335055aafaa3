import TensorParity.Scenario.Registry

/-!
The scenarios that come with the program. Three exercise batch normalisation and three deformable
convolution. Parameters and inputs come from two streams of the seed, so the inputs do not depend on
how many parameters a model has.
-/
namespace TensorParity

namespace Scenario

/-- The stream of a seed that parameters are drawn from. -/
def parameterStream : UInt64 := 0

/-- The stream of a seed that inputs are drawn from. -/
def inputStream : UInt64 := 1

def defaultSeed : UInt64 := 0

/-- Draws inputs for a model in declared order. -/
def drawInputs (inputs : List InputDecl) :
    ExceptT TensorError (StateM Generator) (List (Tensor Float)) :=
  inputs.mapM fun d => Generator.unitTensor d.shape

/-- Builds a model with these inputs from a plan for its layers, and draws inputs for it. -/
def buildFrom (name : String) (inputs : List InputDecl) (plan : Assembly Unit) (seed : UInt64) :
    Except GraphError ScenarioSetup := do
  let root := Generator.ofSeed seed
  let (planned, draft, _) := plan.run.run ({ name, inputs }, root.derive parameterStream)
  planned
  let model ← draft.finish
  let (drawn, _) := (drawInputs inputs).run.run (root.derive inputStream)
  return ⟨model, ← drawn.mapError .tensor⟩

/-- Applies a layer and declares its output. -/
def applied (layer : BatchNormLayer) (source : String) : Assembly Unit := do
  let result ← layer.forward source
  Assembly.edit (·.output result)

/-- A single batch normalisation. -/
def batchNormOutput (name source : String) (features : Nat) (eps : Float) (affine : Bool) :
    Assembly Unit := do
  let layer ← BatchNormLayer.make name features eps affine
  applied layer source

/-- Three separate batch normalisations, of 16, 2 and 3 features. All layers are made before the
first is applied. -/
def batchNormPlan : Assembly Unit := do
  let x ← BatchNormLayer.make "bn_x" 16 BatchNormLayer.defaultEps true
  let y ← BatchNormLayer.make "bn_y" 2 1e-3 true
  let z ← BatchNormLayer.make "bn_z" 3 1e-2 true
  applied x "x"
  applied y "y"
  applied z "z"

def batchNorm : Scenario where
  name := "f_batch_norm"
  family := .batchNorm
  seed := defaultSeed
  axes := [.parameterCardinality, .stabilityConstant, .multiOutput]
  build := buildFrom "f_batch_norm"
    [⟨"x", [1, 16]⟩, ⟨"y", [1, 2, 16]⟩, ⟨"z", [1, 3, 12, 16]⟩] batchNormPlan

def batchNormSingleChannel : Scenario where
  name := "f_batch_norm_single_channel"
  family := .batchNorm
  seed := defaultSeed
  axes := [.parameterCardinality]
  build := buildFrom "f_batch_norm_single_channel" [⟨"x", [1, 1, 8]⟩]
    (batchNormOutput "bn" "x" 1 BatchNormLayer.defaultEps true)

def batchNormWithoutAffine : Scenario where
  name := "f_batch_norm_without_affine"
  family := .batchNorm
  seed := defaultSeed
  axes := [.optionalInput, .stabilityConstant]
  build := buildFrom "f_batch_norm_without_affine" [⟨"x", [1, 4, 6]⟩]
    (batchNormOutput "bn" "x" 4 1e-4 false)

/-- A convolution with a square kernel of three by three. -/
def squareKernel (inChannels outChannels : Nat) : ConvSizes :=
  ⟨inChannels, outChannels, 3, 3⟩

/-- Parameters of a convolution that keeps the extents under a kernel of three by three. -/
def padded : ConvParams := { vertical := { padding := 1 }, horizontal := { padding := 1 } }

/-- One offset steers two deformable convolutions; the second is weighted by a mask too. -/
def sharedOffsetPlan : Assembly Unit := do
  let offsetLayer ← ConvLayer.make "conv_0" (squareKernel 12 18) {} true
  let plain ← ConvLayer.make "conv_1" (squareKernel 12 16) {} true
  let maskLayer ← ConvLayer.make "conv_2" (squareKernel 12 9) {} true
  let masked ← ConvLayer.make "conv_3" (squareKernel 12 16) {} true
  let offset ← offsetLayer.forward "x"
  let first ← plain.forwardDeformed "x" offset none
  let logits ← maskLayer.forward "x"
  let mask ← Assembly.sigmoid "mask" logits
  let second ← masked.forwardDeformed "x" offset (some mask)
  Assembly.edit (·.output first)
  Assembly.edit (·.output second)

/-- The parameters of this model are rounded to half precision before use. -/
def sharedOffset : Scenario where
  name := "torchvision_deform_conv2d"
  family := .deformConv2d
  seed := defaultSeed
  axes := [.optionalInput, .multiOutput, .halfPrecisionParameters]
  build := fun seed => do
    let setup ← buildFrom "torchvision_deform_conv2d" [⟨"x", [1, 12, 64, 64]⟩] sharedOffsetPlan seed
    return { setup with model := setup.model.roundConstantsToHalf }

def offsetOnlyPlan : Assembly Unit := do
  let offsetLayer ← ConvLayer.make "offset" (squareKernel 4 18) padded true
  let layer ← ConvLayer.make "deform" (squareKernel 4 6) padded true
  let offset ← offsetLayer.forward "x"
  let result ← layer.forwardDeformed "x" offset none
  Assembly.edit (·.output result)

def offsetOnly : Scenario where
  name := "deform_conv2d_offset_only"
  family := .deformConv2d
  seed := defaultSeed
  axes := [.optionalInput]
  build := buildFrom "deform_conv2d_offset_only" [⟨"x", [1, 4, 10, 10]⟩] offsetOnlyPlan

def maskedPlan : Assembly Unit := do
  let offsetLayer ← ConvLayer.make "offset" (squareKernel 4 18) padded true
  let maskLayer ← ConvLayer.make "mask_logits" (squareKernel 4 9) padded true
  let layer ← ConvLayer.make "deform" (squareKernel 4 6) padded false
  let offset ← offsetLayer.forward "x"
  let logits ← maskLayer.forward "x"
  let mask ← Assembly.sigmoid "mask" logits
  let result ← layer.forwardDeformed "x" offset (some mask)
  Assembly.edit (·.output result)

def withMask : Scenario where
  name := "deform_conv2d_with_mask"
  family := .deformConv2d
  seed := defaultSeed
  axes := [.optionalInput]
  build := buildFrom "deform_conv2d_with_mask" [⟨"x", [1, 4, 10, 10]⟩] maskedPlan

end Scenario

namespace Registry

/-- The scenarios of the program, in the order in which they run. -/
def builtin : Registry where
  scenarios := [
    Scenario.batchNorm, Scenario.batchNormSingleChannel, Scenario.batchNormWithoutAffine,
    Scenario.sharedOffset, Scenario.offsetOnly, Scenario.withMask]
  valid := rfl

end Registry

end TensorParity
