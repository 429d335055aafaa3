import TensorParity.Kernel.Conv2d
import TensorParity.Kernel.DeformConv2d
import TensorParity.Proofs.Kernel.Window

/-!
The elements of both convolutions as sums in the order of their addition. Operands that fit a window
hold every element a loop asks for, so the loops of a convolution only add products, and those of a
deformable one do so once its taps are sampled.
-/
namespace TensorParity

variable {α : Type} [Scalar α]

/-- An element of a buffer; zero beyond its end. -/
def read (buffer : Array α) (i : Nat) : α := buffer[i]?.getD (Scalar.ofNat 0)

/-- What an output channel starts from. -/
def biasAt (bias : Option (Tensor α)) (outChannel : Nat) : α :=
  match bias with
  | some t => read t.data outChannel
  | none => Scalar.ofNat 0

theorem getElem?_eq_read {buffer : Array α} {i : Nat} (h : i < buffer.size) :
    buffer[i]? = some (read buffer i) := by
  rw [read, Array.getElem?_eq_getElem h, Option.getD_some]

namespace Window

variable (w : Window) (params : ConvParams)

/-- The weight of a tap of an input channel of the group, counted from the first of the group. -/
def weightAt (weight : Array α) (outChannel local_ tap : Nat) : α :=
  read weight ((outChannel * w.inPerGroup + local_) * w.taps + tap)

/-- The input element under a tap; none where the tap falls into the padding. -/
def inputTap? (input : Array α) (sample channel row column tapRow tapColumn : Nat) : Option α :=
  match params.vertical.tap? w.inHeight row tapRow,
    params.horizontal.tap? w.inWidth column tapColumn with
  | some y, some x => some (read input (w.plane sample channel + y * w.inWidth + x))
  | _, _ => none

/-- The products of one output element of a convolution, in the order of their addition. -/
def conv2dTerms (input weight : Array α) (sample outChannel row column : Nat) : List α :=
  (List.range w.inPerGroup).flatMap fun local_ =>
    (List.range w.kernelHeight).flatMap fun tapRow =>
      (List.range w.kernelWidth).flatMap fun tapColumn =>
        ((w.inputTap? params input sample (w.channelOf outChannel local_) row column tapRow
          tapColumn).map fun pixel =>
            w.weightAt weight outChannel local_ (tapRow * w.kernelWidth + tapColumn) * pixel).toList

/-- The products of one output element of a deformable convolution over the taps of its sample, in
the order of their addition. -/
def deformConv2dTerms (tapAt : Nat → Nat → Nat → α) (weight : Array α)
    (outChannel position : Nat) : List α :=
  (List.range w.inPerGroup).flatMap fun local_ =>
    (List.range w.taps).flatMap fun tap =>
      [w.weightAt weight outChannel local_ tap * tapAt (w.channelOf outChannel local_) tap position]

/-- The taps of a sample, by output position, channel and tap. -/
def tapTable (tapAt : Nat → Nat → Nat → α) : Array α :=
  (Array.range (w.spatial * w.inChannels * w.taps)).map fun flat =>
    tapAt (flat / w.taps % w.inChannels) (flat % w.taps) (flat / w.taps / w.inChannels)

variable {w}

omit [Scalar α] in
theorem getElem?_tapTable (tapAt : Nat → Nat → Nat → α) {position channel tap : Nat}
    (hposition : position < w.spatial) (hchannel : channel < w.inChannels) (htap : tap < w.taps) :
    (w.tapTable tapAt)[(position * w.inChannels + channel) * w.taps + tap]? =
      some (tapAt channel tap position) := by
  rw [tapTable, Array.getElem?_map, Array.getElem?_range,
    if_pos (row_add_lt (row_add_lt hposition hchannel) htap), Option.map_some, row_add_div htap,
    row_add_mod htap, row_add_div hchannel, row_add_mod hchannel]

theorem deformedTaps_eq {params : ConvParams} {input : Array α} {d : Deformation α} {sample : Nat}
    {tapAt : Nat → Nat → Nat → α}
    (htaps : ∀ channel < w.inChannels, ∀ tap < w.taps, ∀ position < w.spatial,
      deformedTap w params input d sample channel tap position =
        some (tapAt channel tap position)) :
    deformedTaps w params input d sample = some (w.tapTable tapAt) := by
  refine tabulate?_eq_some fun flat hflat => ?_
  have htap : 0 < w.taps := Nat.pos_of_mul_pos_left (Nat.zero_lt_of_lt hflat)
  have hrow : flat / w.taps < w.spatial * w.inChannels :=
    Nat.div_lt_of_lt_mul (by rwa [Nat.mul_comm])
  have hchannel : 0 < w.inChannels := Nat.pos_of_mul_pos_left (Nat.zero_lt_of_lt hrow)
  exact htaps _ (Nat.mod_lt _ hchannel) _ (Nat.mod_lt _ htap) _
    (Nat.div_lt_of_lt_mul (by rwa [Nat.mul_comm]))

omit [Scalar α] in
/-- A table of all output elements is a result if a word counts them. -/
theorem exists_ofTable {kernel : OperatorKind} {count : Nat}
    (hcount : w.outShape.numel? = some count) (f : Nat → α) :
    ∃ out, Tensor.ofKernel kernel w.outShape
        (some ((Array.range (w.batch * w.outChannels * w.spatial)).map f)) = .ok out ∧
      out.shape = w.outShape := by
  have hsize : count = ((Array.range (w.batch * w.outChannels * w.spatial)).map f).size := by
    rw [← (Shape.volume_of_numel? hcount).1, outShape, Shape.volume_four, Array.size_map,
      Array.size_range, spatial]
  rw [hsize] at hcount
  obtain ⟨out, hout⟩ := Tensor.exists_ofArray hcount
  exact ⟨out, mapError_eq_ok.mpr hout, (Tensor.ofArray_eq_ok hout).1⟩

namespace Fits

variable {params} {input weight : Tensor α} {bias : Option (Tensor α)}
variable (h : w.Fits input weight bias params)
include h

theorem entry?_bias {outChannel : Nat} (hout : outChannel < w.outChannels) :
    entry? bias (Scalar.ofNat 0) outChannel = some (biasAt bias outChannel) := by
  cases hbias : bias with
  | none => rfl
  | some t => exact getElem?_eq_read (by rwa [h.size_bias hbias])

theorem getElem?_weight {outChannel local_ tap : Nat} (hout : outChannel < w.outChannels)
    (hlocal : local_ < w.inPerGroup) (htap : tap < w.taps) :
    weight.data[(outChannel * w.inPerGroup + local_) * w.taps + tap]? =
      some (w.weightAt weight.data outChannel local_ tap) :=
  getElem?_eq_read (h.weight_lt hout hlocal htap)

/-- A convolution adds its products to the bias, and leaves no buffer. -/
theorem conv2dAt_eq {sample outChannel : Nat} (hsample : sample < w.batch)
    (hout : outChannel < w.outChannels) (row column : Nat) :
    conv2dAt w params input.data weight.data bias sample outChannel row column =
      some ((w.conv2dTerms params input.data weight.data sample outChannel row column).foldl (· + ·)
        (biasAt bias outChannel)) := by
  rw [conv2dAt, h.entry?_bias hout]
  refine foldRange?_foldl (fun local_ hlocal acc => ?_) _
  refine foldRange?_foldl (fun tapRow hrow acc => ?_) _
  cases hy : params.vertical.tap? w.inHeight row tapRow with
  | none => simp [inputTap?, hy, List.flatMap_def]
  | some y =>
    refine foldRange?_foldl (fun tapColumn hcolumn acc => ?_) _
    cases hx : params.horizontal.tap? w.inWidth column tapColumn with
    | none => simp [inputTap?, hy, hx]
    | some x =>
      have hpixel : y * w.inWidth + x < w.inHeight * w.inWidth :=
        row_add_lt (AxisParams.tap?_eq_some_iff.mp hy).2 (AxisParams.tap?_eq_some_iff.mp hx).2
      have hinput := getElem?_eq_read
        (h.plane_add_lt hsample (h.channelOf_lt hout hlocal) hpixel)
      have hweight := h.getElem?_weight hout hlocal (row_add_lt hrow hcolumn)
      rw [← Nat.add_assoc] at hinput hweight
      rw [channelOf] at hinput
      simp [inputTap?, hy, hx, hinput, hweight, channelOf]

theorem conv2dElements_eq :
    conv2dElements w params input.data weight.data bias =
      some ((Array.range (w.batch * w.outChannels * w.spatial)).map fun flat =>
        (w.conv2dTerms params input.data weight.data (flat / w.spatial / w.outChannels)
          (flat / w.spatial % w.outChannels) (flat / w.outWidth % w.outHeight)
          (flat % w.outWidth)).foldl (· + ·) (biasAt bias (flat / w.spatial % w.outChannels))) := by
  refine tabulate?_eq_some fun flat hflat => ?_
  have hplane : flat / w.spatial < w.batch * w.outChannels :=
    Nat.div_lt_of_lt_mul (by rwa [Nat.mul_comm])
  have hchannels : 0 < w.outChannels := Nat.pos_of_mul_pos_left (Nat.zero_lt_of_lt hplane)
  exact h.conv2dAt_eq (Nat.div_lt_of_lt_mul (by rwa [Nat.mul_comm])) (Nat.mod_lt _ hchannels) _ _

variable {d : Deformation α}

/-- A deformable convolution adds the products of its sampled taps to the bias. -/
theorem deformConv2dAt_eq {tapAt : Nat → Nat → Nat → α} {outChannel position : Nat}
    (hout : outChannel < w.outChannels) (hposition : position < w.spatial) :
    deformConv2dAt w (w.tapTable tapAt) weight.data bias outChannel position =
      some ((w.deformConv2dTerms tapAt weight.data outChannel position).foldl (· + ·)
        (biasAt bias outChannel)) := by
  rw [deformConv2dAt, h.entry?_bias hout]
  refine foldRange?_foldl (fun local_ hlocal acc => ?_) _
  refine foldRange?_foldl (fun tap htap acc => ?_) _
  have hsampled := getElem?_tapTable tapAt hposition (h.channelOf_lt hout hlocal) htap
  rw [channelOf] at hsampled
  simp [h.getElem?_weight hout hlocal htap, hsampled, channelOf]

/-- Once every tap of every sample has a value, a deformable convolution leaves no buffer. -/
theorem deformConv2dElements_eq {tapAt : Nat → Nat → Nat → Nat → α}
    (htaps : ∀ sample < w.batch, ∀ channel < w.inChannels, ∀ tap < w.taps,
      ∀ position < w.spatial, deformedTap w params input.data d sample channel tap position =
        some (tapAt sample channel tap position)) :
    deformConv2dElements w params input.data weight.data bias d =
      some ((Array.range (w.batch * w.outChannels * w.spatial)).map fun flat =>
        (w.deformConv2dTerms (tapAt (flat / w.spatial / w.outChannels)) weight.data
          (flat / w.spatial % w.outChannels) (flat % w.spatial)).foldl (· + ·)
          (biasAt bias (flat / w.spatial % w.outChannels))) := by
  rw [Nat.mul_assoc]
  -- samples append one block each, so after `sample` of them as many blocks are there
  refine foldRange?_eq_some
    (fun sample => (Array.range (sample * (w.outChannels * w.spatial))).map _) (by simp)
    fun sample hsample => ?_
  rw [deformedTaps_eq (htaps sample hsample), Nat.succ_mul, Array.range_add, Array.map_append,
    Array.map_map]
  refine foldRange?_push (fun flat hflat acc => ?_) _
  have hspatial : 0 < w.spatial := Nat.pos_of_mul_pos_left (Nat.zero_lt_of_lt hflat)
  have hout : flat / w.spatial < w.outChannels := Nat.div_lt_of_lt_mul (by rwa [Nat.mul_comm])
  have hsamples : (sample * (w.outChannels * w.spatial) + flat) / w.spatial =
      sample * w.outChannels + flat / w.spatial := by
    rw [← Nat.mul_assoc, Nat.mul_comm, Nat.mul_add_div hspatial]
  have hposition :
      (sample * (w.outChannels * w.spatial) + flat) % w.spatial = flat % w.spatial := by
    rw [← Nat.mul_assoc, Nat.mul_add_mod_self_right]
  simp only [Function.comp_apply, hsamples, hposition, row_add_div hout, row_add_mod hout,
    h.deformConv2dAt_eq hout (Nat.mod_lt _ hspatial)]

end Fits

end Window

end TensorParity
