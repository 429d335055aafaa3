import TensorParity.Kernel.Error

/-!
The geometry of a sliding window: how many positions fit, and which input element a kernel tap falls
on.
-/
namespace TensorParity

/-- Span of a dilated kernel. -/
def AxisParams.effective (p : AxisParams) (kernel : Nat) : Nat :=
  p.dilation * (kernel - 1) + 1

/-- Number of window positions along an axis, if a kernel of this extent fits at all. -/
def AxisParams.positions? (p : AxisParams) (input kernel : Nat) : Option Nat :=
  let padded := input + 2 * p.padding
  if kernel = 0 ∨ padded < p.effective kernel then none
  else some ((padded - p.effective kernel) / p.stride + 1)

/-- The input element under a kernel tap; none if the tap falls into the padding. -/
@[inline]
def AxisParams.tap? (p : AxisParams) (extent position tap : Nat) : Option Nat :=
  let padded := position * p.stride + tap * p.dilation
  if p.padding ≤ padded ∧ padded - p.padding < extent then some (padded - p.padding) else none

/-- Sizes of a convolution, all of its checks passed. -/
structure Window where
  batch : Nat
  inChannels : Nat
  inHeight : Nat
  inWidth : Nat
  outChannels : Nat
  /-- Input channels of one weight group. -/
  inPerGroup : Nat
  /-- Output channels of one weight group. -/
  outPerGroup : Nat
  kernelHeight : Nat
  kernelWidth : Nat
  outHeight : Nat
  outWidth : Nat
  deriving DecidableEq

namespace Window

/-- Kernel taps of one channel. -/
@[inline]
def taps (w : Window) : Nat := w.kernelHeight * w.kernelWidth

/-- Output positions of one channel. -/
@[inline]
def spatial (w : Window) : Nat := w.outHeight * w.outWidth

def outShape (w : Window) : Shape := [w.batch, w.outChannels, w.outHeight, w.outWidth]

/-- First element of an input plane. -/
@[inline]
def plane (w : Window) (sample channel : Nat) : Nat :=
  (sample * w.inChannels + channel) * (w.inHeight * w.inWidth)

/-- Number of window positions along an axis, or the refusal that names the axis. -/
def positions (kernel : OperatorKind) (p : AxisParams) (input extent axis : Nat) :
    Except KernelError Nat :=
  match p.positions? input extent with
  | some n => .ok n
  | none => .error (.extent kernel (p.effective extent) (input + 2 * p.padding) axis)

/-- The window of a convolution over these operands, after every check that both convolutions
share. -/
def resolve {α : Type} (kernel : OperatorKind) (input weight : Tensor α)
    (bias : Option (Tensor α)) (params : ConvParams) : Except KernelError Window := do
  let [batch, inChannels, inHeight, inWidth] := input.shape
    | .error (.rank kernel .input (.fourNamed "NCHW") input.shape)
  let [outChannels, inPerGroup, kernelHeight, kernelWidth] := weight.shape
    | .error (.rank kernel .weight (.fourNamed "OIHW") weight.shape)
  if params.groups = 0 ∨ params.vertical.stride = 0 ∨ params.horizontal.stride = 0
      ∨ params.vertical.dilation = 0 ∨ params.horizontal.dilation = 0 then
    .error (.notPositive kernel params)
  if inPerGroup * params.groups ≠ inChannels ∨ outChannels % params.groups ≠ 0 then
    .error (.channels kernel weight.shape inChannels params.groups)
  Tensor.checkChannelVector? kernel .bias bias outChannels
  let outHeight ← positions kernel params.vertical inHeight kernelHeight 0
  let outWidth ← positions kernel params.horizontal inWidth kernelWidth 1
  return {
    batch, inChannels, inHeight, inWidth, outChannels, inPerGroup
    outPerGroup := outChannels / params.groups
    kernelHeight, kernelWidth, outHeight, outWidth }

end Window

/-- An entry of a vector that may be absent, with what an absent one stands for. -/
@[inline]
def entry? {α : Type} (vector : Option (Tensor α)) (absent : α) (i : Nat) : Option α :=
  match vector with
  | some t => t.data[i]?
  | none => some absent

end TensorParity
