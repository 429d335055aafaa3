import TensorParity.Kernel.Scalar
import TensorParity.Kernel.Window

/-!
Grouped two-dimensional cross-correlation. Each output element starts from the bias and adds the
taps that fall on the input, by channel, kernel row and kernel column.
-/
namespace TensorParity

variable {α : Type} [Scalar α]

/-- One output element. -/
@[specialize]
def conv2dAt (w : Window) (params : ConvParams) (input weight : Array α)
    (bias : Option (Tensor α)) (sample outChannel row column : Nat) : Option α :=
  match entry? bias (Scalar.ofNat 0) outChannel with
  | none => none
  | some start =>
    foldRange? (fun local_ acc =>
      let channel := outChannel / w.outPerGroup * w.inPerGroup + local_
      let plane := w.plane sample channel
      let kernel := (outChannel * w.inPerGroup + local_) * w.taps
      foldRange? (fun tapRow acc =>
        match params.vertical.tap? w.inHeight row tapRow with
        | none => some acc
        | some y =>
          let line := plane + y * w.inWidth
          let weights := kernel + tapRow * w.kernelWidth
          foldRange? (fun tapColumn acc =>
            match params.horizontal.tap? w.inWidth column tapColumn with
            | none => some acc
            | some x =>
              match weight[weights + tapColumn]?, input[line + x]? with
              | some a, some b => some (acc + a * b)
              | _, _ => none) 0 w.kernelWidth acc) 0 w.kernelHeight acc) 0 w.inPerGroup start

/-- All output elements in row-major order. -/
@[specialize]
def conv2dElements (w : Window) (params : ConvParams) (input weight : Array α)
    (bias : Option (Tensor α)) : Option (Array α) :=
  tabulate? (fun flat =>
    let column := flat % w.outWidth
    let row := flat / w.outWidth % w.outHeight
    let plane := flat / w.spatial
    conv2dAt w params input weight bias (plane / w.outChannels) (plane % w.outChannels) row column)
    (w.batch * w.outChannels * w.spatial)

@[specialize]
def conv2d (input weight : Tensor α) (bias : Option (Tensor α)) (params : ConvParams) :
    Except KernelError (Tensor α) := do
  let w ← Window.resolve .conv2d input weight bias params
  Tensor.ofKernel .conv2d w.outShape (conv2dElements w params input.data weight.data bias)

end TensorParity
