import TensorParity.Kernel.Scalar
import TensorParity.Kernel.Window

/-!
Deformable convolution. Every kernel tap is moved by an offset that the graph computes, sampled
between pixels, scaled by an optional mask, and then weighted as in an ordinary convolution.
-/
namespace TensorParity

variable {α : Type} [Scalar α]

/-- Bilinear sample of a plane at fractional coordinates. Pixels beyond the border count as zero,
and so does every point at least one pixel outside. -/
@[specialize]
def bilinear (pixel : Nat → Option α) (height width : Nat) (y x : α) : Option α :=
  let zero : α := Scalar.ofNat 0
  let one : α := Scalar.ofNat 1
  let h : α := Scalar.ofNat height
  let w : α := Scalar.ofNat width
  if Scalar.le y (zero - one) || Scalar.le h y || Scalar.le x (zero - one) || Scalar.le w x then
    some zero
  else
    let top := Scalar.floor y
    let left := Scalar.floor x
    let ly := y - top
    let lx := x - left
    let hy := one - ly
    let hx := one - lx
    let sample (yy xx : α) : Option α :=
      if Scalar.lt yy zero || Scalar.lt xx zero || Scalar.lt (h - one) yy
          || Scalar.lt (w - one) xx then some zero
      else pixel (Scalar.toPosition yy * width + Scalar.toPosition xx)
    match sample top left, sample top (left + one), sample (top + one) left,
        sample (top + one) (left + one) with
    | some a, some b, some c, some d =>
      some (hy * hx * a + hy * lx * b + ly * hx * c + ly * lx * d)
    | _, _, _, _ => none

/-- The operands that decide where taps are sampled. -/
structure Deformation (α : Type) where
  offset : Array α
  mask : Option (Array α)
  /-- Groups of input channels that share offsets. -/
  groups : Nat

/-- The sampled and scaled value of one tap of one channel at one output position. -/
@[specialize]
def deformedTap (w : Window) (params : ConvParams) (input : Array α) (d : Deformation α)
    (sample channel tap position : Nat) : Option α :=
  let group := channel / (w.inChannels / d.groups)
  let row := position / w.outWidth
  let column := position % w.outWidth
  let tapRow := tap / w.kernelWidth
  let tapColumn := tap % w.kernelWidth
  let slot := (sample * d.groups + group) * w.taps + tap
  let modulation? :=
    match d.mask with
    | some mask => mask[slot * w.spatial + position]?
    | none => some (Scalar.ofNat 1)
  match modulation?, d.offset[2 * slot * w.spatial + position]?,
      d.offset[(2 * slot + 1) * w.spatial + position]? with
  | some modulation, some dy, some dx =>
    let y : α := Scalar.ofNat (row * params.vertical.stride)
      - Scalar.ofNat params.vertical.padding
      + Scalar.ofNat (tapRow * params.vertical.dilation) + dy
    let x : α := Scalar.ofNat (column * params.horizontal.stride)
      - Scalar.ofNat params.horizontal.padding
      + Scalar.ofNat (tapColumn * params.horizontal.dilation) + dx
    let plane := w.plane sample channel
    let size := w.inHeight * w.inWidth
    match bilinear (fun i => if i < size then input[plane + i]? else none)
        w.inHeight w.inWidth y x with
    | some value => some (modulation * value)
    | none => none
  | _, _, _ => none

/-- All deformed taps of one sample, by output position, channel and tap. -/
@[specialize]
def deformedTaps (w : Window) (params : ConvParams) (input : Array α) (d : Deformation α)
    (sample : Nat) : Option (Array α) :=
  tabulate? (fun flat =>
    let row := flat / w.taps
    deformedTap w params input d sample (row % w.inChannels) (flat % w.taps) (row / w.inChannels))
    (w.spatial * w.inChannels * w.taps)

/-- One output element from the deformed taps of its sample: the bias, then the taps by channel and
tap. -/
@[specialize]
def deformConv2dAt (w : Window) (taps weight : Array α) (bias : Option (Tensor α))
    (outChannel position : Nat) : Option α :=
  match entry? bias (Scalar.ofNat 0) outChannel with
  | none => none
  | some start =>
    foldRange? (fun local_ acc =>
      let channel := outChannel / w.outPerGroup * w.inPerGroup + local_
      let kernel := (outChannel * w.inPerGroup + local_) * w.taps
      let deformed := (position * w.inChannels + channel) * w.taps
      foldRange? (fun tap acc =>
        match weight[kernel + tap]?, taps[deformed + tap]? with
        | some a, some b => some (acc + a * b)
        | _, _ => none) 0 w.taps acc) 0 w.inPerGroup start

/-- All output elements in row-major order, sample by sample. -/
@[specialize]
def deformConv2dElements (w : Window) (params : ConvParams) (input weight : Array α)
    (bias : Option (Tensor α)) (d : Deformation α) : Option (Array α) :=
  foldRange? (fun sample (acc : Array α) =>
    match deformedTaps w params input d sample with
    | none => none
    | some taps =>
      foldRange? (fun flat (acc : Array α) =>
        match deformConv2dAt w taps weight bias (flat / w.spatial) (flat % w.spatial) with
        | some value => some (acc.push value)
        | none => none) 0 (w.outChannels * w.spatial) acc) 0 w.batch #[]

/-- Number of offset groups, after the checks on the offset and the mask. -/
def Window.offsetGroups (w : Window) (offset : Tensor α) (mask : Option (Tensor α)) :
    Except KernelError Nat := do
  let [_, channels, _, _] := offset.shape
    | .error (.rank .deformConv2d .offset .four offset.shape)
  if channels = 0 ∨ channels % (2 * w.taps) ≠ 0 then
    .error (.offsetChannels channels (2 * w.taps))
  let groups := channels / (2 * w.taps)
  if w.inChannels % groups ≠ 0 then
    .error (.offsetGroups w.inChannels groups)
  let expected := [w.batch, channels, w.outHeight, w.outWidth]
  if offset.shape ≠ expected then
    .error (.shape .deformConv2d .offset expected offset.shape)
  match mask with
  | none => return groups
  | some mask =>
    let expected := [w.batch, groups * w.taps, w.outHeight, w.outWidth]
    if mask.shape ≠ expected then
      .error (.shape .deformConv2d .mask expected mask.shape)
    return groups

@[specialize]
def deformConv2d (input offset : Tensor α) (mask : Option (Tensor α)) (weight : Tensor α)
    (bias : Option (Tensor α)) (params : ConvParams) : Except KernelError (Tensor α) := do
  let w ← Window.resolve .deformConv2d input weight bias params
  let groups ← w.offsetGroups offset mask
  let d : Deformation α := ⟨offset.data, mask.map (·.data), groups⟩
  Tensor.ofKernel .deformConv2d w.outShape
    (deformConv2dElements w params input.data weight.data bias d)

end TensorParity
