import TensorParity.Tensor
import TensorParity.Decimal.Notation

/-!
Operators, their operands and parameters, and why an operator refuses its operands.
-/
namespace TensorParity

inductive OperatorKind where
  | batchNorm
  | conv2d
  | deformConv2d
  | sigmoid
  deriving DecidableEq

def OperatorKind.name : OperatorKind → String
  | batchNorm => "batch_norm"
  | conv2d => "conv2d"
  | deformConv2d => "deform_conv2d"
  | sigmoid => "sigmoid"

inductive Operand where
  | input
  | weight
  | bias
  | offset
  | mask
  | runningMean
  | runningVar
  deriving DecidableEq

def Operand.name : Operand → String
  | input => "input"
  | weight => "weight"
  | bias => "bias"
  | offset => "offset"
  | mask => "mask"
  | runningMean => "running_mean"
  | runningVar => "running_var"

/-- What a kernel asks of an operand's rank. -/
inductive RankRule where
  | atLeastTwo
  | four
  /-- Four axes whose meaning the letters give. -/
  | fourNamed (letters : String)
  deriving DecidableEq

def RankRule.text : RankRule → String
  | atLeastTwo => "rank >= 2"
  | four => "rank 4"
  | fourNamed letters => "rank 4 (" ++ letters ++ ")"

/-- Parameters of a window along one axis. Each is a word. -/
structure AxisParams where
  stride : Nat := 1
  padding : Nat := 0
  dilation : Nat := 1
  words : stride < Shape.wordLimit ∧ padding < Shape.wordLimit ∧ dilation < Shape.wordLimit := by
    decide
  deriving DecidableEq

/-- Parameters that both convolutions share. -/
structure ConvParams where
  vertical : AxisParams := {}
  horizontal : AxisParams := {}
  groups : Nat := 1
  word : groups < Shape.wordLimit := by decide
  deriving DecidableEq

namespace ConvParams

private def pairText (a b : Nat) : String := Shape.text [a, b]

/-- All parameters, as a message shows them. -/
def text (p : ConvParams) : String :=
  "Conv2dParams \x7b stride: " ++ pairText p.vertical.stride p.horizontal.stride
    ++ ", padding: " ++ pairText p.vertical.padding p.horizontal.padding
    ++ ", dilation: " ++ pairText p.vertical.dilation p.horizontal.dilation
    ++ ", groups: " ++ toString p.groups ++ " \x7d"

end ConvParams

inductive KernelError where
  | rank (kernel : OperatorKind) (operand : Operand) (rule : RankRule) (shape : Shape)
  | shape (kernel : OperatorKind) (operand : Operand) (expected actual : Shape)
  | stability (eps : Float)
  /-- Groups, a stride or a dilation is zero. -/
  | notPositive (kernel : OperatorKind) (params : ConvParams)
  | channels (kernel : OperatorKind) (weight : Shape) (inChannels groups : Nat)
  | extent (kernel : OperatorKind) (effective padded axis : Nat)
  /-- Offset channels come in pairs, one pair for each kernel tap. -/
  | offsetChannels (channels unit : Nat)
  | offsetGroups (inChannels groups : Nat)
  | tensor (error : TensorError)
  /-- An element outside its buffer was asked for. -/
  | outsideBuffer (kernel : OperatorKind)
  deriving DecidableEq

namespace KernelError

def message : KernelError → String
  | rank kernel operand rule found =>
    s!"{kernel.name}: {operand.name} must be {rule.text}, got shape {found.text}"
  | shape kernel operand expected actual =>
    s!"{kernel.name}: {operand.name} shape mismatch expected={expected.text} actual={actual.text}"
  | stability eps =>
    s!"batch_norm: eps must be finite and non-negative, got {Notation.message eps}"
  | notPositive kernel params =>
    s!"{kernel.name}: groups, stride and dilation must be positive: {params.text}"
  | channels kernel weight inChannels groups =>
    s!"{kernel.name}: weight {weight.text} incompatible with {inChannels} input channels and " ++
      s!"groups={groups}"
  | extent kernel effective padded axis =>
    s!"{kernel.name}: kernel extent {effective} exceeds padded input {padded} on axis {axis}"
  | offsetChannels found unit =>
    s!"deform_conv2d: offset channels {found} must be a positive multiple of 2*kh*kw={unit}"
  | offsetGroups inChannels groups =>
    s!"deform_conv2d: input channels {inChannels} not divisible by offset groups {groups}"
  | tensor error => s!"tensor error: {error.message}"
  | outsideBuffer kernel => s!"{kernel.name}: element outside its buffer"

end KernelError

/-- A vector with one entry for each channel. -/
def Tensor.checkChannelVector {α : Type} (kernel : OperatorKind) (operand : Operand)
    (t : Tensor α) (channels : Nat) : Except KernelError Unit :=
  if t.shape = [channels] then .ok ()
  else .error (.shape kernel operand [channels] t.shape)

/-- The same check for an operand that may be absent. -/
def Tensor.checkChannelVector? {α : Type} (kernel : OperatorKind) (operand : Operand)
    (t : Option (Tensor α)) (channels : Nat) : Except KernelError Unit :=
  match t with
  | some t => t.checkChannelVector kernel operand channels
  | none => .ok ()

/-- The result of a kernel: its elements, unless one was asked for outside its buffer. -/
def Tensor.ofKernel {α : Type} (kernel : OperatorKind) (shape : Shape) :
    Option (Array α) → Except KernelError (Tensor α)
  | some data => (Tensor.ofArray shape data).mapError .tensor
  | none => .error (.outsideBuffer kernel)

end TensorParity
