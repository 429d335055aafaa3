import TensorParity.Kernel.Window
import TensorParity.Proofs.Except
import TensorParity.Proofs.Kernel.Loop
import TensorParity.Proofs.Shape

/-!
What the checks of a convolution establish, and the positions that follow: along an axis the windows
that fit are counted, with an element or padding under each of their taps, and every element of a
sample, a channel and a tap lies inside the buffer of its operand. Two kernels refuse the same
operands for the same reason.
-/
namespace TensorParity

variable {α : Type} {w : Window} {input weight : Tensor α} {bias : Option (Tensor α)}
  {params : ConvParams} {kernel : OperatorKind}

theorem checkChannelVector_eq_ok_iff {operand : Operand} {vector : Tensor α} {channels : Nat} :
    vector.checkChannelVector kernel operand channels = .ok () ↔ vector.shape = [channels] := by
  unfold Tensor.checkChannelVector
  split <;> simp_all

theorem checkChannelVector?_eq_ok_iff {operand : Operand} {vector : Option (Tensor α)}
    {channels : Nat} :
    Tensor.checkChannelVector? kernel operand vector channels = .ok () ↔
      ∀ t, vector = some t → t.shape = [channels] := by
  cases vector with
  | none => simp [Tensor.checkChannelVector?]
  | some t =>
    simp only [Tensor.checkChannelVector?, checkChannelVector_eq_ok_iff, Option.some.injEq,
      forall_eq']

namespace Window

/-- The sizes that the operands of a convolution agree on, and the conditions they meet. -/
structure Fits (w : Window) (input weight : Tensor α) (bias : Option (Tensor α))
    (params : ConvParams) : Prop where
  input : input.shape = [w.batch, w.inChannels, w.inHeight, w.inWidth]
  weight : weight.shape = [w.outChannels, w.inPerGroup, w.kernelHeight, w.kernelWidth]
  positive : ¬(params.groups = 0 ∨ params.vertical.stride = 0 ∨ params.horizontal.stride = 0
    ∨ params.vertical.dilation = 0 ∨ params.horizontal.dilation = 0)
  inChannels : w.inPerGroup * params.groups = w.inChannels
  outChannels : w.outChannels % params.groups = 0
  outPerGroup : w.outPerGroup = w.outChannels / params.groups
  bias : ∀ t, bias = some t → t.shape = [w.outChannels]
  outHeight : params.vertical.positions? w.inHeight w.kernelHeight = some w.outHeight
  outWidth : params.horizontal.positions? w.inWidth w.kernelWidth = some w.outWidth

theorem positions_eq_ok_iff {p : AxisParams} {extent size axis n : Nat} :
    positions kernel p extent size axis = .ok n ↔ p.positions? extent size = some n := by
  unfold positions
  split <;> simp_all

/-- A window is found exactly when the operands fit it. -/
theorem resolve_eq_ok_iff :
    resolve kernel input weight bias params = .ok w ↔ w.Fits input weight bias params := by
  constructor
  · intro h
    unfold resolve at h
    split at h
    · rename_i batch inChannels inHeight inWidth hinput
      split at h
      · rename_i outChannels inPerGroup kernelHeight kernelWidth hweight
        by_cases hpositive : params.groups = 0 ∨ params.vertical.stride = 0
          ∨ params.horizontal.stride = 0 ∨ params.vertical.dilation = 0
          ∨ params.horizontal.dilation = 0
        · simp [hpositive] at h
        rw [if_neg hpositive] at h
        by_cases hchannels : inPerGroup * params.groups ≠ inChannels
          ∨ outChannels % params.groups ≠ 0
        · simp [hchannels] at h
        rw [if_neg hchannels] at h
        simp only [not_or, not_not] at hchannels
        obtain ⟨_, hbias, h⟩ := bind_eq_ok.mp h
        obtain ⟨outHeight, hheight, h⟩ := bind_eq_ok.mp h
        obtain ⟨outWidth, hwidth, h⟩ := bind_eq_ok.mp h
        obtain rfl := Except.ok.inj h
        exact ⟨hinput, hweight, hpositive, hchannels.1, hchannels.2, rfl,
          checkChannelVector?_eq_ok_iff.mp hbias, positions_eq_ok_iff.mp hheight,
          positions_eq_ok_iff.mp hwidth⟩
      · cases h
    · cases h
  · intro h
    unfold resolve
    simp only [h.input, h.weight]
    rw [if_neg h.positive, if_neg (by simp [h.inChannels, h.outChannels]),
      checkChannelVector?_eq_ok_iff.mpr h.bias, positions_eq_ok_iff.mpr h.outHeight,
      positions_eq_ok_iff.mpr h.outWidth, ← h.outPerGroup]
    rfl

end Window

namespace AxisParams

variable {p : AxisParams} {extent size n position tap coordinate : Nat}

theorem tap?_eq_some_iff :
    p.tap? extent position tap = some coordinate ↔
      position * p.stride + tap * p.dilation = p.padding + coordinate ∧ coordinate < extent := by
  simp only [tap?, Option.ite_none_right_eq_some, Option.some.injEq]
  omega

theorem positions?_eq_some_iff :
    p.positions? extent size = some n ↔
      0 < size ∧ p.effective size ≤ extent + 2 * p.padding ∧
        (extent + 2 * p.padding - p.effective size) / p.stride + 1 = n := by
  simp only [positions?, Option.ite_none_left_eq_some, Option.some.injEq, not_or, Nat.not_lt,
    Nat.pos_iff_ne_zero, and_assoc]

theorem pos_of_positions? (h : p.positions? extent size = some n) : 0 < size :=
  (positions?_eq_some_iff.mp h).1

/-- An axis between its padding: the coordinates of its elements, and nothing on either side. -/
def paddedAxis (p : AxisParams) (extent : Nat) : List (Option Nat) :=
  List.replicate p.padding none ++ ((List.range extent).map some ++ List.replicate p.padding none)

/-- A tap reads what the padded axis holds at its place. -/
theorem getElem?_paddedAxis
    (h : position * p.stride + tap * p.dilation < extent + 2 * p.padding) :
    (p.paddedAxis extent)[position * p.stride + tap * p.dilation]? =
      some (p.tap? extent position tap) := by
  rw [paddedAxis, tap?]
  generalize position * p.stride + tap * p.dilation = place at h ⊢
  by_cases hbefore : place < p.padding
  · rw [List.getElem?_append_left (by rwa [List.length_replicate]), if_neg (by omega),
      List.getElem?_replicate_of_lt hbefore]
  rw [List.getElem?_append_right (by rw [List.length_replicate]; omega), List.length_replicate]
  by_cases hinside : place - p.padding < extent
  · rw [List.getElem?_append_left (by simpa using hinside), if_pos ⟨by omega, hinside⟩,
      List.getElem?_map, List.getElem?_range hinside]
    rfl
  · have hlength : ((List.range extent).map some).length = extent := by simp
    rw [List.getElem?_append_right (by omega), if_neg (by omega), hlength,
      List.getElem?_replicate_of_lt (by omega)]

/-- The windows that fit are the first ones, as many as were counted. -/
theorem last_lt_iff (hstride : 0 < p.stride) (h : p.positions? extent size = some n) :
    position * p.stride + p.dilation * (size - 1) < extent + 2 * p.padding ↔ position < n := by
  obtain ⟨-, hfits, rfl⟩ := positions?_eq_some_iff.mp h
  rw [Nat.lt_succ_iff, Nat.le_div_iff_mul_le hstride]
  rw [effective] at hfits ⊢
  omega

/-- The taps of a window that fits lie between its first and its last place. -/
theorem place_lt (hstride : 0 < p.stride) (h : p.positions? extent size = some n)
    (hposition : position < n) (htap : tap < size) :
    position * p.stride + tap * p.dilation < extent + 2 * p.padding := by
  have hlast := (last_lt_iff hstride h).mpr hposition
  have htaps : tap * p.dilation ≤ p.dilation * (size - 1) := by
    rw [Nat.mul_comm]
    apply Nat.mul_le_mul_left
    exact Nat.le_sub_one_of_lt htap
  omega

/-- Windows are counted if and only if the dilated kernel fits between the ends of the padding, and
then those that fit are exactly the counted ones. Their taps stay on the padded axis, and a tap has a
coordinate where an element lies there, which is that element's. -/
theorem positions_count_windows (kernel : OperatorKind) (hstride : 0 < p.stride)
    (extent size axis : Nat) :
    ((∃ n, Window.positions kernel p extent size axis = .ok n) ↔
        0 < size ∧ p.dilation * (size - 1) + 1 ≤ extent + 2 * p.padding) ∧
      ∀ n, Window.positions kernel p extent size axis = .ok n →
        1 ≤ n ∧
        (∀ position,
          position * p.stride + p.dilation * (size - 1) < extent + 2 * p.padding ↔ position < n) ∧
        ∀ position < n, ∀ tap < size,
          (p.paddedAxis extent)[position * p.stride + tap * p.dilation]? =
              some (p.tap? extent position tap) ∧
            ∀ coordinate, p.tap? extent position tap = some coordinate ↔
              position * p.stride + tap * p.dilation = p.padding + coordinate ∧
                coordinate < extent := by
  simp only [Window.positions_eq_ok_iff]
  constructor
  · constructor
    · rintro ⟨n, h⟩
      obtain ⟨hsize, hfits, -⟩ := positions?_eq_some_iff.mp h
      exact ⟨hsize, hfits⟩
    · rintro ⟨hsize, hfits⟩
      exact ⟨_, positions?_eq_some_iff.mpr ⟨hsize, hfits, rfl⟩⟩
  · intro n h
    refine ⟨?_, fun position => last_lt_iff hstride h, fun position hposition tap htap => ?_⟩
    · obtain ⟨-, -, rfl⟩ := positions?_eq_some_iff.mp h
      exact Nat.le_add_left 1 _
    · have hplace := place_lt hstride h hposition htap
      exact ⟨getElem?_paddedAxis hplace, fun coordinate => tap?_eq_some_iff⟩

/-- A stride that does not divide the way a window has to go. -/
def skipping : AxisParams where
  stride := 3
  padding := 2
  dilation := 2

theorem positions_count_windows_skipping :
    0 < skipping.stride ∧ Window.positions .conv2d skipping 6 3 0 = .ok 2 ∧
      (∀ position, position * 3 + 4 < 10 ↔ position < 2) ∧
      skipping.tap? 6 1 1 = some 3 ∧ skipping.tap? 6 0 0 = none := by
  have hstride : 0 < skipping.stride := by decide
  have hwindows : Window.positions .conv2d skipping 6 3 0 = .ok 2 := rfl
  obtain ⟨-, hcount⟩ := positions_count_windows .conv2d hstride 6 3 0
  obtain ⟨-, hfit, htaps⟩ := hcount 2 hwindows
  have hread := (htaps 1 (by decide) 1 (by decide)).1
  have hbefore := (htaps 0 (by decide) 0 (by decide)).1
  exact ⟨hstride, hwindows, hfit, (Option.some.inj hread).symm, (Option.some.inj hbefore).symm⟩

end AxisParams

theorem Tensor.size_eq_volume (t : Tensor α) : t.data.size = Shape.volume t.shape :=
  (Shape.volume_of_numel? t.numel_eq).1.symm

theorem Shape.volume_four (a b c d : Nat) : Shape.volume [a, b, c, d] = a * b * (c * d) := by
  simp only [Shape.volume, List.foldr_cons, List.foldr_nil, Nat.mul_one, Nat.mul_assoc]

/-- The input channel that an output channel reads in a place of its group. -/
def Window.channelOf (w : Window) (outChannel local_ : Nat) : Nat :=
  outChannel / w.outPerGroup * w.inPerGroup + local_

namespace Window.Fits

variable (h : w.Fits input weight bias params)
include h

theorem size_input : input.data.size = w.batch * w.inChannels * (w.inHeight * w.inWidth) := by
  rw [Tensor.size_eq_volume, h.input, Shape.volume_four]

theorem size_weight : weight.data.size = w.outChannels * w.inPerGroup * w.taps := by
  rw [Tensor.size_eq_volume, h.weight, Shape.volume_four, Window.taps]

theorem size_bias {t : Tensor α} (ht : bias = some t) : t.data.size = w.outChannels := by
  rw [Tensor.size_eq_volume, h.bias t ht]
  exact Nat.mul_one _

theorem taps_pos : 0 < w.taps :=
  Nat.mul_pos (AxisParams.pos_of_positions? h.outHeight) (AxisParams.pos_of_positions? h.outWidth)

variable {sample channel outChannel local_ : Nat}

/-- Output channels lie in weight groups, and groups hold all input channels. -/
theorem channelOf_lt (hout : outChannel < w.outChannels) (hlocal : local_ < w.inPerGroup) :
    w.channelOf outChannel local_ < w.inChannels := by
  have hall : w.outPerGroup * params.groups = w.outChannels := by
    rw [h.outPerGroup]
    exact Nat.div_mul_cancel (Nat.dvd_of_mod_eq_zero h.outChannels)
  have hgroup : outChannel / w.outPerGroup < params.groups :=
    Nat.div_lt_of_lt_mul (by rwa [hall])
  rw [← h.inChannels, Nat.mul_comm w.inPerGroup]
  exact row_add_lt hgroup hlocal

theorem plane_add_lt {pixel : Nat} (hsample : sample < w.batch) (hchannel : channel < w.inChannels)
    (hpixel : pixel < w.inHeight * w.inWidth) :
    w.plane sample channel + pixel < input.data.size := by
  rw [h.size_input, Window.plane]
  exact row_add_lt (row_add_lt hsample hchannel) hpixel

theorem weight_lt {tap : Nat} (hout : outChannel < w.outChannels) (hlocal : local_ < w.inPerGroup)
    (htap : tap < w.taps) :
    (outChannel * w.inPerGroup + local_) * w.taps + tap < weight.data.size := by
  rw [h.size_weight]
  exact row_add_lt (row_add_lt hout hlocal) htap

end Window.Fits

namespace Window

end Window

end TensorParity
