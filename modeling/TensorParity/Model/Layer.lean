import TensorParity.Generator
import TensorParity.Model.Basic

/-!
Layers that own parameters. A layer draws its parameters once, when it is made, and registers them
as constants; applying it only appends a node.
-/
namespace TensorParity

/-- A draft and the generator its parameters come from. Both survive a refusal. -/
abbrev Assembly := ExceptT GraphError (StateM (Draft × Generator))

namespace Assembly

/-- Draws a parameter and registers it as a constant. -/
def parameter (name : String) (shape : Shape) (low high : Float) : Assembly String := do
  let (draft, g) ← get
  match (Generator.uniformTensor shape low high).run.run g with
  | (.ok tensor, g) =>
    set (draft.constant name tensor, g)
    return name
  | (.error error, g) =>
    set (draft, g)
    throw (.tensor error)

def edit (f : Draft → Draft) : Assembly Unit :=
  modify fun (draft, g) => (f draft, g)

end Assembly

/-- Batch normalisation with statistics and affine parameters drawn from `[0, 1)`. -/
structure BatchNormLayer where
  name : String
  runningMean : String
  runningVar : String
  weight : Option String
  bias : Option String
  features : Nat
  eps : Float
  deriving DecidableEq

namespace BatchNormLayer

def defaultEps : Float := 1e-5

def make (name : String) (features : Nat) (eps : Float) (affine : Bool) :
    Assembly BatchNormLayer := do
  if features = 0 then
    throw (.invalidModule name .noFeatures)
  if !eps.isFinite || eps < 0.0 then
    throw (.invalidModule name (.stability eps))
  let runningMean ← Assembly.parameter (name ++ ".running_mean") [features] 0.0 1.0
  let runningVar ← Assembly.parameter (name ++ ".running_var") [features] 0.0 1.0
  if affine then
    let weight ← Assembly.parameter (name ++ ".weight") [features] 0.0 1.0
    let bias ← Assembly.parameter (name ++ ".bias") [features] 0.0 1.0
    return { name, runningMean, runningVar, weight, bias, features, eps }
  else
    return { name, runningMean, runningVar, weight := none, bias := none, features, eps }

def op (layer : BatchNormLayer) (input : String) : Op :=
  .batchNorm input layer.runningMean layer.runningVar layer.weight layer.bias layer.eps

/-- Appends the layer's node, whose output has the layer's name. -/
def forward (layer : BatchNormLayer) (input : String) : Assembly String := do
  Assembly.edit fun d => d.node layer.name (layer.op input)
  return layer.name

end BatchNormLayer

/-- Sizes of a convolution layer. -/
structure ConvSizes where
  inChannels : Nat
  outChannels : Nat
  kernelHeight : Nat
  kernelWidth : Nat
  deriving DecidableEq

/-- A convolution's parameters: the weight, and the bias if it has one. -/
structure ConvLayer where
  name : String
  weight : String
  bias : Option String
  params : ConvParams
  deriving DecidableEq

namespace ConvLayer

/-- Half width of the interval that parameters are drawn from: one over the root of the fan-in. -/
def bound (sizes : ConvSizes) (groups : Nat) : Float :=
  1.0 / (sizes.inChannels / groups * sizes.kernelHeight * sizes.kernelWidth).toUInt64.toFloat.sqrt

def make (name : String) (sizes : ConvSizes) (params : ConvParams) (useBias : Bool) :
    Assembly ConvLayer := do
  if sizes.inChannels = 0 ∨ sizes.outChannels = 0
      ∨ sizes.kernelHeight = 0 ∨ sizes.kernelWidth = 0 then
    throw (.invalidModule name .notPositive)
  let groups := params.groups
  if groups = 0 ∨ sizes.inChannels % groups ≠ 0 ∨ sizes.outChannels % groups ≠ 0 then
    throw (.invalidModule name (.groups groups sizes.inChannels sizes.outChannels))
  let bound := bound sizes groups
  let weight ← Assembly.parameter (name ++ ".weight")
    [sizes.outChannels, sizes.inChannels / groups, sizes.kernelHeight, sizes.kernelWidth]
    (-bound) bound
  if useBias then
    let bias ← Assembly.parameter (name ++ ".bias") [sizes.outChannels] (-bound) bound
    return { name, weight, bias, params }
  else
    return { name, weight, bias := none, params }

/-- Applies the layer as an ordinary convolution. -/
def forward (layer : ConvLayer) (input : String) : Assembly String := do
  Assembly.edit fun d =>
    d.node layer.name (.conv2d input layer.weight layer.bias layer.params)
  return layer.name

/-- Applies the layer as a deformable convolution, with an offset and a mask from the graph. -/
def forwardDeformed (layer : ConvLayer) (input offset : String) (mask : Option String) :
    Assembly String := do
  Assembly.edit fun d =>
    d.node layer.name (.deformConv2d input offset mask layer.weight layer.bias layer.params)
  return layer.name

end ConvLayer

/-- Appends a logistic node. -/
def Assembly.sigmoid (name input : String) : Assembly String := do
  Assembly.edit fun d => d.node name (.sigmoid input)
  return name

end TensorParity
