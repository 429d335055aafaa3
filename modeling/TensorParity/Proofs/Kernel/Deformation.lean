import TensorParity.Proofs.Kernel.Entry
import TensorParity.Proofs.Kernel.Interpolation

/-!
The taps of a deformable convolution in exact arithmetic. An offset and a mask that pass the checks
hold an entry for every tap, and a tap is the bilinear sample at its place in the window moved by
its offset, scaled by the mask.
-/
namespace TensorParity

/-- Where a window's tap lies before any offset moves it, counted from the first input element. -/
def AxisParams.origin (p : AxisParams) (position tap : Nat) : ℤ :=
  position * p.stride - p.padding + tap * p.dilation

theorem AxisParams.tap?_eq_origin (p : AxisParams) (extent position tap : Nat) :
    p.tap? extent position tap =
      if 0 ≤ p.origin position tap ∧ p.origin position tap < extent then
        some (p.origin position tap).toNat
      else none := by
  have horigin : p.origin position tap =
      ((position * p.stride + tap * p.dilation : Nat) : ℤ) - p.padding := by
    rw [origin]
    push_cast
    ring
  rw [horigin]
  simp only [AxisParams.tap?]
  generalize position * p.stride + tap * p.dilation = total
  by_cases hinside : p.padding ≤ total ∧ total - p.padding < extent
  · rw [if_pos hinside, if_pos (by omega)]
    exact congrArg some (by omega)
  · rw [if_neg hinside, if_neg (by omega)]

namespace Window

variable {α : Type} (w : Window) {offset : Tensor α} {mask : Option (Tensor α)} {groups : Nat}

/-- What the checks on an offset and a mask establish. -/
structure Deforms (offset : Tensor α) (mask : Option (Tensor α)) (groups : Nat) : Prop where
  positive : 0 < groups
  divides : groups ∣ w.inChannels
  offset : offset.shape = [w.batch, 2 * groups * w.taps, w.outHeight, w.outWidth]
  mask : ∀ t, mask = some t → t.shape = [w.batch, groups * w.taps, w.outHeight, w.outWidth]

variable {w}

/-- The channels of an offset: two for each tap of a group. -/
theorem offset_channels (groups taps : Nat) : 2 * groups * taps = groups * (2 * taps) := by ring

theorem deforms_of_offsetGroups (htaps : 0 < w.taps)
    (h : w.offsetGroups offset mask = .ok groups) : w.Deforms offset mask groups := by
  have hunit : 0 < 2 * w.taps := by omega
  unfold offsetGroups at h
  split at h
  · rename_i batch channels outHeight outWidth hshape
    by_cases hchannels : channels = 0 ∨ channels % (2 * w.taps) ≠ 0
    · simp [hchannels] at h
    rw [if_neg hchannels] at h
    simp only [not_or, not_not] at hchannels
    by_cases hdivides : w.inChannels % (channels / (2 * w.taps)) ≠ 0
    · simp [hdivides] at h
    rw [if_neg hdivides] at h
    by_cases hoffset : offset.shape ≠ [w.batch, channels, w.outHeight, w.outWidth]
    · simp [hoffset] at h
    rw [if_neg hoffset] at h
    have hall : channels / (2 * w.taps) * (2 * w.taps) = channels :=
      Nat.div_mul_cancel (Nat.dvd_of_mod_eq_zero hchannels.2)
    have hfits (hgroups : channels / (2 * w.taps) = groups)
        (hmask : ∀ t, mask = some t →
          t.shape = [w.batch, groups * w.taps, w.outHeight, w.outWidth]) :
        w.Deforms offset mask groups := by
      subst hgroups
      refine ⟨Nat.div_pos (Nat.le_of_dvd (by omega) (Nat.dvd_of_mod_eq_zero hchannels.2)) hunit,
        Nat.dvd_of_mod_eq_zero (not_not.mp hdivides), ?_, hmask⟩
      rw [offset_channels, hall]
      exact not_not.mp hoffset
    cases mask with
    | none => exact hfits (Except.ok.inj h) (by simp)
    | some t =>
      by_cases hmask : t.shape ≠ [w.batch, channels / (2 * w.taps) * w.taps, w.outHeight,
        w.outWidth]
      · simp [hmask] at h
      simp only [if_neg hmask] at h
      have hgroups := Except.ok.inj h
      refine hfits hgroups fun t' ht => ?_
      obtain rfl := Option.some.inj ht
      rw [← hgroups]
      exact not_not.mp hmask
  · cases h

theorem offsetGroups_of_deforms (htaps : 0 < w.taps) (h : w.Deforms offset mask groups) :
    w.offsetGroups offset mask = .ok groups := by
  have hunit : 0 < 2 * w.taps := by omega
  have hgroups : groups * (2 * w.taps) / (2 * w.taps) = groups := Nat.mul_div_cancel _ hunit
  have hpositive : groups * (2 * w.taps) ≠ 0 := (Nat.mul_pos h.positive hunit).ne'
  unfold offsetGroups
  simp only [h.offset, offset_channels]
  rw [if_neg (by simp [hpositive]), hgroups,
    if_neg (by simp [Nat.mod_eq_zero_of_dvd h.divides]), if_neg (by simp)]
  cases mask with
  | none => rfl
  | some t =>
    simp only [h.mask t rfl]
    rw [if_neg (by simp)]
    rfl

/-- Offset groups are found exactly when the offset and the mask fit them. -/
theorem offsetGroups_eq_ok_iff (htaps : 0 < w.taps) :
    w.offsetGroups offset mask = .ok groups ↔ w.Deforms offset mask groups :=
  ⟨deforms_of_offsetGroups htaps, offsetGroups_of_deforms htaps⟩

/-- Where the mask entries of a tap stand, by planes; its two offset planes stand at twice as far. -/
def slot (w : Window) (groups sample channel tap : Nat) : Nat :=
  (sample * groups + channel / (w.inChannels / groups)) * w.taps + tap

theorem slot_lt {sample channel tap : Nat} (hdivides : groups ∣ w.inChannels)
    (hsample : sample < w.batch) (hchannel : channel < w.inChannels) (htap : tap < w.taps) :
    w.slot groups sample channel tap < w.batch * groups * w.taps := by
  have hgroup : channel / (w.inChannels / groups) < groups :=
    Nat.div_lt_of_lt_mul (by rwa [Nat.div_mul_cancel hdivides])
  exact row_add_lt (row_add_lt hsample hgroup) htap

namespace Deforms

variable {slot position : Nat} (h : w.Deforms offset mask groups)
include h

/-- Both coordinates of an offset stand in the offset. -/
theorem offset_lt (hslot : slot < w.batch * groups * w.taps) (hposition : position < w.spatial) :
    2 * slot * w.spatial + position < offset.data.size ∧
      (2 * slot + 1) * w.spatial + position < offset.data.size := by
  have hsize : offset.data.size = 2 * (w.batch * groups * w.taps) * w.spatial := by
    rw [Tensor.size_eq_volume, h.offset, Shape.volume_four, spatial]
    ring
  rw [hsize]
  exact ⟨row_add_lt (by omega) hposition, row_add_lt (by omega) hposition⟩

theorem mask_lt {t : Tensor α} (ht : mask = some t) (hslot : slot < w.batch * groups * w.taps)
    (hposition : position < w.spatial) : slot * w.spatial + position < t.data.size := by
  have hsize : t.data.size = w.batch * groups * w.taps * w.spatial := by
    rw [Tensor.size_eq_volume, h.mask t ht, Shape.volume_four, spatial]
    ring
  rw [hsize]
  exact row_add_lt hslot hposition

end Deforms

section Taps

variable [Scalar α] (w : Window) (params : ConvParams) (input : Array α) (d : Deformation α)

/-- A pixel of an input plane; none beyond its end. -/
def pixel? (sample channel : Nat) (i : Nat) : Option α :=
  if i < w.inHeight * w.inWidth then input[w.plane sample channel + i]? else none

/-- How a tap is scaled. -/
def scale (slot position : Nat) : α :=
  match d.mask with
  | some mask => read mask (slot * w.spatial + position)
  | none => Scalar.ofNat 1

/-- The row an offset moves a tap to. -/
def movedRow (sample channel tap position : Nat) : α :=
  Scalar.ofNat (position / w.outWidth * params.vertical.stride)
    - Scalar.ofNat params.vertical.padding
    + Scalar.ofNat (tap / w.kernelWidth * params.vertical.dilation)
    + read d.offset (2 * w.slot d.groups sample channel tap * w.spatial + position)

/-- The column an offset moves a tap to. -/
def movedColumn (sample channel tap position : Nat) : α :=
  Scalar.ofNat (position % w.outWidth * params.horizontal.stride)
    - Scalar.ofNat params.horizontal.padding
    + Scalar.ofNat (tap % w.kernelWidth * params.horizontal.dilation)
    + read d.offset ((2 * w.slot d.groups sample channel tap + 1) * w.spatial + position)

variable {w params} {input weight offset : Tensor α} {bias mask : Option (Tensor α)} {groups : Nat}

/-- Offset and mask hold an entry for every tap, so a tap is there if its sample is. -/
theorem deformedTap_eq_map {sample channel tap position : Nat} (hd : w.Deforms offset mask groups)
    (hsample : sample < w.batch) (hchannel : channel < w.inChannels) (htap : tap < w.taps)
    (hposition : position < w.spatial) :
    deformedTap w params input.data ⟨offset.data, mask.map (·.data), groups⟩ sample channel tap
        position =
      (bilinear (w.pixel? input.data sample channel) w.inHeight w.inWidth
        (w.movedRow params ⟨offset.data, mask.map (·.data), groups⟩ sample channel tap position)
        (w.movedColumn params ⟨offset.data, mask.map (·.data), groups⟩ sample channel tap
          position)).map
        (w.scale ⟨offset.data, mask.map (·.data), groups⟩ (w.slot groups sample channel tap) position
          * ·) := by
  have hslot := slot_lt hd.divides hsample hchannel htap
  obtain ⟨hvertical, hhorizontal⟩ := hd.offset_lt hslot hposition
  have hdy := getElem?_eq_read hvertical
  have hdx := getElem?_eq_read hhorizontal
  rw [slot] at hdy hdx
  simp only [deformedTap, hdy, hdx]
  cases hmask : mask with
  | none => rfl
  | some t =>
    have hentry := getElem?_eq_read (hd.mask_lt hmask hslot hposition)
    rw [slot] at hentry
    simp only [Option.map_some, hentry]
    rfl

section Calls

variable (h : w.Fits input weight bias params) (hd : w.Deforms offset mask groups)
include h hd

/-- Operands that fit pass every check. -/
theorem Fits.deformConv2d_eq : deformConv2d input offset mask weight bias params =
    Tensor.ofKernel .deformConv2d w.outShape (deformConv2dElements w params input.data weight.data
      bias ⟨offset.data, mask.map (·.data), groups⟩) := by
  rw [deformConv2d, resolve_eq_ok_iff.mpr h, ok_bind, (offsetGroups_eq_ok_iff h.taps_pos).mpr hd,
    ok_bind]

/-- With a value for every tap they are convolved, if a word counts the result. -/
theorem Fits.exists_deformConv2d {count : Nat} (hcount : w.outShape.numel? = some count)
    (htaps : ∀ sample < w.batch, ∀ channel < w.inChannels, ∀ tap < w.taps,
      ∀ position < w.spatial, ∃ value, deformedTap w params input.data
        ⟨offset.data, mask.map (·.data), groups⟩ sample channel tap position = some value) :
    ∃ out, deformConv2d input offset mask weight bias params = .ok out ∧
      out.shape = w.outShape := by
  have hvalues : ∀ sample < w.batch, ∀ channel < w.inChannels, ∀ tap < w.taps,
      ∀ position < w.spatial, deformedTap w params input.data
        ⟨offset.data, mask.map (·.data), groups⟩ sample channel tap position =
          some ((deformedTap w params input.data ⟨offset.data, mask.map (·.data), groups⟩ sample
            channel tap position).getD (Scalar.ofNat 0)) := by
    intro sample hsample channel hchannel tap htap position hposition
    obtain ⟨value, hvalue⟩ := htaps sample hsample channel hchannel tap htap position hposition
    rw [hvalue]
    rfl
  rw [h.deformConv2d_eq hd, h.deformConv2dElements_eq hvalues]
  exact exists_ofTable hcount _

section Results

variable {out : Tensor α} (hout : deformConv2d input offset mask weight bias params = .ok out)
include hout

theorem Fits.shape_deformConv2d : out.shape = w.outShape := by
  rw [h.deformConv2d_eq hd, ofKernel_eq_ok_iff] at hout
  exact hout.1

/-- The entries of a result are sums over the values of the taps. -/
theorem Fits.entry_of_taps {tapAt : Nat → Nat → Nat → Nat → α}
    (htaps : ∀ sample < w.batch, ∀ channel < w.inChannels, ∀ tap < w.taps,
      ∀ position < w.spatial, deformedTap w params input.data
        ⟨offset.data, mask.map (·.data), groups⟩ sample channel tap position =
          some (tapAt sample channel tap position))
    {sample outChannel row column : Nat} (hsample : sample < w.batch)
    (hchannel : outChannel < w.outChannels) (hrow : row < w.outHeight)
    (hcolumn : column < w.outWidth) :
    out.entry [sample, outChannel, row, column] =
      (w.deformConv2dTerms (tapAt sample) weight.data outChannel (row * w.outWidth + column)).foldl
        (· + ·) (biasAt bias outChannel) := by
  rw [h.deformConv2d_eq hd, ofKernel_eq_ok_iff, h.deformConv2dElements_eq htaps,
    Option.some.injEq] at hout
  exact entry_of_table (g := fun sample outChannel position =>
    (w.deformConv2dTerms (tapAt sample) weight.data outChannel position).foldl (· + ·)
      (biasAt bias outChannel)) hout.1 hout.2.symm hsample hchannel hrow hcolumn

end Results

end Calls

end Taps

section Exact

variable (w) (params : ConvParams) (input : Array ℚ) (d : Deformation ℚ)

/-- How a mask scales a tap. -/
def modulation (slot position : Nat) : ℚ :=
  match d.mask with
  | some mask => read mask (slot * w.spatial + position)
  | none => 1

end Exact

theorem Fits.pixel?_eq {params : ConvParams} {input weight : Tensor α} {bias : Option (Tensor α)}
    [Scalar α] (h : w.Fits input weight bias params) {sample channel : Nat}
    (hsample : sample < w.batch) (hchannel : channel < w.inChannels) :
    ∀ i < w.inHeight * w.inWidth, w.pixel? input.data sample channel i =
      some (read input.data (w.plane sample channel + i)) := by
  intro i hi
  rw [pixel?, if_pos hi]
  exact getElem?_eq_read (h.plane_add_lt hsample hchannel hi)

end Window

end TensorParity
