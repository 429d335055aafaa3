import TensorParity.Kernel.Scalar
import TensorParity.Kernel.Window

/-!
Kernels that keep the shape of their input: batch normalisation with fixed statistics, and the
logistic function.
-/
namespace TensorParity

/-- Scale of one channel: its weight over the deviation. -/
def batchNormScale (var weight eps : Float) : Float :=
  weight / (var + eps).sqrt

/-- All output elements in row-major order. The channel is the second axis, and `inner` elements of
it lie next to each other. -/
def batchNormElements (channels inner : Nat) (input mean var : Array Float)
    (weight bias : Option (Tensor Float)) (eps : Float) : Option (Array Float) :=
  match tabulate? (fun c =>
    match entry? weight 1.0 c, var[c]? with
    | some gamma, some v => some (batchNormScale v gamma eps)
    | _, _ => none) channels with
  | none => none
  | some scale =>
    tabulate? (fun flat =>
      let c := flat / inner % channels
      match input[flat]?, mean[c]?, scale[c]?, entry? bias 0.0 c with
      | some x, some m, some s, some beta => some ((x - m) * s + beta)
      | _, _, _, _ => none) input.size

/-- Normalises each channel by fixed statistics; a missing weight counts as one and a missing bias
as zero. -/
def batchNorm (input mean var : Tensor Float) (weight bias : Option (Tensor Float)) (eps : Float) :
    Except KernelError (Tensor Float) := do
  let _ :: channels :: rest := input.shape
    | .error (.rank .batchNorm .input .atLeastTwo input.shape)
  if !eps.isFinite || eps < 0.0 then
    .error (.stability eps)
  mean.checkChannelVector .batchNorm .runningMean channels
  var.checkChannelVector .batchNorm .runningVar channels
  Tensor.checkChannelVector? .batchNorm .weight weight channels
  Tensor.checkChannelVector? .batchNorm .bias bias channels
  Tensor.ofKernel .batchNorm input.shape
    (batchNormElements channels (Shape.volume rest) input.data mean.data var.data weight bias eps)

/-- The logistic function of every element. -/
def sigmoid (input : Tensor Float) : Tensor Float :=
  input.map fun v => 1.0 / (1.0 + (-v).exp)

end TensorParity
