import TensorParity.Proofs.Kernel.TapBuffer

/-!
The samples of a batch under a deformable convolution. Each slice of a result is what the operands'
slices yield alone, in every arithmetic. This is so although all samples may share one buffer for
their taps: what a sample reads from it is what the same sample wrote.
-/
namespace TensorParity

variable {α : Type} [Scalar α]

section Parts

variable (w : Window) (params : ConvParams) (input offset : Tensor α) (mask : Option (Tensor α))
  (weight : Tensor α) (bias : Option (Tensor α))

/-- The deformable convolution of one sample alone. -/
def deformConv2dSample (sample : Nat) : Except KernelError (Tensor α) := do
  let input ← input.narrow 0 sample 1
  let offset ← offset.narrow 0 sample 1
  let mask ← mask.mapM fun t => t.narrow 0 sample 1
  deformConv2d input offset mask weight bias params

/-- The samples one by one, put together as a batch. -/
def Window.deformConv2dBySamples : Except KernelError (Tensor α) := do
  let parts ← (List.range w.batch).mapM (deformConv2dSample params input offset mask weight bias)
  Tensor.concat 0 w.outShape parts

end Parts

namespace Window

variable {w : Window} {params : ConvParams} {input weight offset : Tensor α}
  {bias mask : Option (Tensor α)} {groups sample : Nat}

/-- The slices of a sample's operands, and what they have of the whole. -/
structure SampleParts (w : Window) (params : ConvParams) (input offset : Tensor α)
    (mask : Option (Tensor α)) (weight : Tensor α) (bias : Option (Tensor α)) (groups sample : Nat)
    (inputPart offsetPart : Tensor α) (maskPart : Option (Tensor α)) : Prop where
  narrowInput : input.narrow 0 sample 1 = .ok inputPart
  narrowOffset : offset.narrow 0 sample 1 = .ok offsetPart
  narrowMask : mask.mapM (fun t => t.narrow 0 sample 1) = .ok maskPart
  fits : w.single.Fits inputPart weight bias params
  deforms : w.single.Deforms offsetPart maskPart groups
  taps : ∀ channel < w.inChannels, ∀ tap < w.taps, ∀ position < w.spatial,
    deformedTap w.single params inputPart.data
      ⟨offsetPart.data, maskPart.map (·.data), groups⟩ 0 channel tap position =
        deformedTap w params input.data ⟨offset.data, mask.map (·.data), groups⟩ sample channel tap
          position

/-- A slice of a tensor that counts its samples first. -/
theorem exists_slice {t : Tensor α} {batch a b c : Nat} (hshape : t.shape = [batch, a, b, c])
    (hsample : sample < batch) :
    ∃ part, t.narrow 0 sample 1 = .ok part ∧ part.shape = [1, a, b, c] ∧
      ∀ i < a * (b * c), part.data[i]? = t.data[sample * (a * (b * c)) + i]? := by
  obtain ⟨part, hpart⟩ := Tensor.exists_narrow t 0 sample (by rw [Tensor.dim?, hshape]; rfl)
    (Nat.one_le_of_lt hsample)
  have hvolume : Shape.volume [a, b, c] = a * (b * c) := by
    simp only [Shape.volume, List.foldr_cons, List.foldr_nil, Nat.mul_one]
  refine ⟨part, hpart, by rw [Tensor.shape_narrow hpart, hshape]; rfl, ?_⟩
  intro i hi
  rw [← hvolume] at hi ⊢
  exact Tensor.getElem?_narrow hshape hsample hpart (by rwa [Nat.one_mul])

/-- A slice of a mask that may be missing. -/
theorem exists_maskSlice {batch a b c : Nat}
    (hshape : ∀ t, mask = some t → t.shape = [batch, a, b, c]) (hsample : sample < batch) :
    ∃ part, mask.mapM (fun t => t.narrow 0 sample 1) = .ok part ∧
      (∀ t, part = some t → t.shape = [1, a, b, c]) ∧
      ∀ i < a * (b * c), ((part.map (·.data)).elim (some (Scalar.ofNat 1)) fun t => t[i]?) =
        (mask.map (·.data)).elim (some (Scalar.ofNat 1)) fun t => t[sample * (a * (b * c)) + i]? := by
  cases mask with
  | none => exact ⟨none, rfl, by simp, fun _ _ => rfl⟩
  | some t =>
    obtain ⟨part, hpart, hpartShape, hdata⟩ := exists_slice (hshape t rfl) hsample
    refine ⟨some part, ?_, ?_, hdata⟩
    · rw [Option.mapM_some, hpart]
      rfl
    · rintro _ ⟨⟩
      exact hpartShape

/-- A tap is decided by its pixels, its mask entry and its offsets. -/
theorem deformedTap_congr {input input' : Array α} {d d' : Deformation α}
    {sample sample' channel tap position slot slot' : Nat} (hgroups : d.groups = d'.groups)
    (hslot : (sample * d.groups + channel / (w.inChannels / d.groups)) * w.taps + tap = slot)
    (hslot' : (sample' * d'.groups + channel / (w.inChannels / d'.groups)) * w.taps + tap = slot')
    (hpixels : ∀ i < w.inHeight * w.inWidth,
      input[w.plane sample channel + i]? = input'[w.plane sample' channel + i]?)
    (hmask : (d.mask.elim (some (Scalar.ofNat 1)) fun t => t[slot * w.spatial + position]?) =
      d'.mask.elim (some (Scalar.ofNat 1)) fun t => t[slot' * w.spatial + position]?)
    (hdy : d.offset[2 * slot * w.spatial + position]? =
      d'.offset[2 * slot' * w.spatial + position]?)
    (hdx : d.offset[(2 * slot + 1) * w.spatial + position]? =
      d'.offset[(2 * slot' + 1) * w.spatial + position]?) :
    deformedTap w params input d sample channel tap position =
      deformedTap w params input' d' sample' channel tap position := by
  have hplane : (fun i => if i < w.inHeight * w.inWidth then
        input[w.plane sample channel + i]? else none) =
      fun i => if i < w.inHeight * w.inWidth then
        input'[w.plane sample' channel + i]? else none := by
    funext i
    by_cases hi : i < w.inHeight * w.inWidth
    · rw [if_pos hi, if_pos hi, hpixels i hi]
    · rw [if_neg hi, if_neg hi]
  obtain ⟨offset, mask, groups⟩ := d
  obtain ⟨offset', mask', groups'⟩ := d'
  obtain rfl : groups = groups' := hgroups
  simp only [deformedTap, hslot, hslot', hplane, hdy, hdx]
  simp only [Option.elim] at hmask
  cases mask with
  | none =>
    cases mask' with
    | none => rfl
    | some t' => simp only [← hmask]
  | some t =>
    cases mask' with
    | none => simp only [hmask]
    | some t' => simp only [hmask]

section Calls

variable (h : w.Fits input weight bias params) (hd : w.Deforms offset mask groups)
include h hd

theorem exists_sampleParts (hsample : sample < w.batch) :
    ∃ inputPart offsetPart maskPart, w.SampleParts params input offset mask weight bias groups
      sample inputPart offsetPart maskPart := by
  obtain ⟨inputPart, hinput, hinputShape, hinputData⟩ := exists_slice h.input hsample
  obtain ⟨offsetPart, hoffset, hoffsetShape, hoffsetData⟩ := exists_slice hd.offset hsample
  obtain ⟨maskPart, hmask, hmaskShape, hmaskData⟩ := exists_maskSlice hd.mask hsample
  refine ⟨inputPart, offsetPart, maskPart, hinput, hoffset, hmask, h.single hinputShape,
    ⟨hd.positive, hd.divides, hoffsetShape, hmaskShape⟩, ?_⟩
  intro channel hchannel tap htap position hposition
  change deformedTap w params inputPart.data ⟨offsetPart.data, maskPart.map (·.data), groups⟩ 0
    channel tap position = _
  have hgroup : channel / (w.inChannels / groups) < groups :=
    Nat.div_lt_of_lt_mul (by rwa [Nat.div_mul_cancel hd.divides])
  have hplace := row_add_lt hgroup htap
  have hown : (0 * groups + channel / (w.inChannels / groups)) * w.taps + tap =
      channel / (w.inChannels / groups) * w.taps + tap := by
    rw [Nat.zero_mul, Nat.zero_add]
  have hslot : (sample * groups + channel / (w.inChannels / groups)) * w.taps + tap =
      sample * (groups * w.taps) + (channel / (w.inChannels / groups) * w.taps + tap) := by ring
  generalize channel / (w.inChannels / groups) * w.taps + tap = place at *
  refine deformedTap_congr rfl hown hslot ?_ ?_ ?_ ?_
  · intro i hi
    have hpixel : w.plane 0 channel + i < w.inChannels * (w.inHeight * w.inWidth) := by
      rw [plane, Nat.zero_mul, Nat.zero_add]
      exact row_add_lt hchannel hi
    have hwhole : sample * (w.inChannels * (w.inHeight * w.inWidth)) + (w.plane 0 channel + i) =
        w.plane sample channel + i := by
      rw [plane, plane]
      ring
    rw [hinputData _ hpixel, hwhole]
  · have hwhole : sample * (groups * w.taps * w.spatial) + (place * w.spatial + position) =
        (sample * (groups * w.taps) + place) * w.spatial + position := by ring
    rw [← hwhole]
    exact hmaskData _ (row_add_lt hplace hposition)
  · have hwhole : sample * (2 * groups * w.taps * w.spatial) + (2 * place * w.spatial + position) =
        2 * (sample * (groups * w.taps) + place) * w.spatial + position := by ring
    rw [← hwhole]
    exact hoffsetData _ (row_add_lt (by rw [Nat.mul_assoc]; omega) hposition)
  · have hwhole : sample * (2 * groups * w.taps * w.spatial) +
        ((2 * place + 1) * w.spatial + position) =
          (2 * (sample * (groups * w.taps) + place) + 1) * w.spatial + position := by ring
    rw [← hwhole]
    exact hoffsetData _ (row_add_lt (by rw [Nat.mul_assoc]; omega) hposition)

end Calls

section Slices

variable {inputPart offsetPart : Tensor α} {maskPart : Option (Tensor α)}
  (hp : w.SampleParts params input offset mask weight bias groups sample inputPart offsetPart
    maskPart)
include hp

/-- The taps of a sample alone have values where its taps in the batch do. -/
theorem SampleParts.sampled_iff :
    w.single.Sampled params inputPart.data ⟨offsetPart.data, maskPart.map (·.data), groups⟩ 0 ↔
      w.Sampled params input.data ⟨offset.data, mask.map (·.data), groups⟩ sample := by
  refine forall₂_congr fun channel hchannel => forall₂_congr fun tap htap =>
    forall₂_congr fun position hposition => ?_
  rw [hp.taps channel hchannel tap htap position hposition]

theorem SampleParts.deformConv2dSample_eq :
    deformConv2dSample params input offset mask weight bias sample =
      deformConv2d inputPart offsetPart maskPart weight bias params := by
  rw [deformConv2dSample, hp.narrowInput, ok_bind, hp.narrowOffset, ok_bind, hp.narrowMask, ok_bind]

end Slices

section Whole

variable (h : w.Fits input weight bias params) (hd : w.Deforms offset mask groups)
include h hd

/-- A result calls for values of all taps. -/
theorem sampled_of_ok {out : Tensor α}
    (hout : deformConv2d input offset mask weight bias params = .ok out) :
    ∀ sample < w.batch,
      w.Sampled params input.data ⟨offset.data, mask.map (·.data), groups⟩ sample := by
  intro sample hsample
  by_contra hnot
  rw [h.deformConv2d_of_not_sampled hd hsample hnot] at hout
  cases hout

/-- A slice of a result is the result of the slices. -/
theorem deformConv2dSample_eq_narrow {out : Tensor α}
    (hout : deformConv2d input offset mask weight bias params = .ok out)
    (hsample : sample < w.batch) :
    ∃ part, deformConv2dSample params input offset mask weight bias sample = .ok part ∧
      out.narrow 0 sample 1 = .ok part := by
  obtain ⟨inputPart, offsetPart, maskPart, hp⟩ := exists_sampleParts h hd hsample
  have hsampled := sampled_of_ok h hd hout
  have hshape := h.shape_deformConv2d hd hout
  have hcount := out.numel_eq
  rw [hshape] at hcount
  obtain ⟨_, hpartCount⟩ := w.exists_numel_single hcount hsample
  have htaps : ∀ one < w.single.batch, ∀ channel < w.inChannels, ∀ tap < w.taps,
      ∀ position < w.spatial, deformedTap w.single params inputPart.data
        ⟨offsetPart.data, maskPart.map (·.data), groups⟩ one channel tap position =
          some (w.tapValue params input.data ⟨offset.data, mask.map (·.data), groups⟩ sample channel
            tap position) := by
    intro one hone channel hchannel tap htap position hposition
    obtain rfl : one = 0 := Nat.lt_one_iff.mp hone
    rw [hp.taps channel hchannel tap htap position hposition]
    exact (hsampled sample hsample).eq_tapValue channel hchannel tap htap position hposition
  obtain ⟨part, hpart, hpartShape⟩ := hp.fits.exists_deformConv2d hp.deforms hpartCount
    fun one hone channel hchannel tap htap position hposition =>
      ⟨_, htaps one hone channel hchannel tap htap position hposition⟩
  refine ⟨part, by rw [hp.deformConv2dSample_eq, hpart], ?_⟩
  refine Tensor.ofEntries_eq_ok_iff.mpr ⟨by rw [hpartShape, hshape]; rfl, ?_⟩
  intro index hinside
  rw [hshape] at hinside
  obtain ⟨one, outChannel, row, column, rfl, hone, hchannel, hrow, hcolumn⟩ :=
    Shape.exists_of_inside_four hinside
  obtain rfl : one = 0 := Nat.lt_one_iff.mp hone
  have hwhole : out.entry [sample, outChannel, row, column] = _ :=
    h.entry_of_taps hd hout (fun sample hsample => (hsampled sample hsample).eq_tapValue) hsample
      hchannel hrow hcolumn
  exact (hp.fits.entry_of_taps hp.deforms hpart htaps Nat.one_pos hchannel hrow hcolumn).trans
    hwhole.symm

/-- A result is its samples one after the other. -/
theorem deformConv2dBySamples_eq {out : Tensor α}
    (hout : deformConv2d input offset mask weight bias params = .ok out) :
    w.deformConv2dBySamples params input offset mask weight bias = .ok out := by
  have hshape := h.shape_deformConv2d hd hout
  have hbatch : out.dim? 0 = some (w.batch * 1) := by
    rw [Tensor.dim?, hshape, Nat.mul_one]
    rfl
  rw [deformConv2dBySamples, ← hshape]
  apply Tensor.mapM_concat_narrow hbatch
  intro sample hsample
  rw [Nat.mul_one]
  exact deformConv2dSample_eq_narrow h hd hout hsample

/-- A sample alone is refused exactly when a tap of it has no value. -/
theorem deformConv2dSample_cases {count : Nat} (hcount : w.outShape.numel? = some count)
    (hsample : sample < w.batch) :
    (w.Sampled params input.data ⟨offset.data, mask.map (·.data), groups⟩ sample →
        ∃ part, deformConv2dSample params input offset mask weight bias sample = .ok part) ∧
      (¬w.Sampled params input.data ⟨offset.data, mask.map (·.data), groups⟩ sample →
        deformConv2dSample params input offset mask weight bias sample =
          .error (.outsideBuffer .deformConv2d)) := by
  obtain ⟨inputPart, offsetPart, maskPart, hp⟩ := exists_sampleParts h hd hsample
  obtain ⟨_, hpartCount⟩ := w.exists_numel_single hcount hsample
  rw [hp.deformConv2dSample_eq, ← hp.sampled_iff]
  constructor
  · intro hsampled
    obtain ⟨part, hpart, -⟩ := hp.fits.deformConv2d_of_sampled hp.deforms hpartCount
      fun one hone => Nat.lt_one_iff.mp hone ▸ hsampled
    exact ⟨part, hpart⟩
  · exact hp.fits.deformConv2d_of_not_sampled hp.deforms Nat.one_pos

/-- A batch is refused exactly for a sample that is refused alone. -/
theorem deformConv2d_eq_bySamples {count : Nat} (hcount : w.outShape.numel? = some count) :
    deformConv2d input offset mask weight bias params =
      w.deformConv2dBySamples params input offset mask weight bias := by
  by_cases hall : ∀ sample < w.batch,
      w.Sampled params input.data ⟨offset.data, mask.map (·.data), groups⟩ sample
  · obtain ⟨out, hout, -⟩ := h.deformConv2d_of_sampled hd hcount hall
    rw [hout, deformConv2dBySamples_eq h hd hout]
  · push Not at hall
    obtain ⟨sample, hsample, hnot⟩ := hall
    have hrefused := (deformConv2dSample_cases h hd hcount hsample).2 hnot
    have honly : ∀ other ∈ List.range w.batch, ∀ e,
        deformConv2dSample params input offset mask weight bias other = .error e →
          e = .outsideBuffer .deformConv2d := by
      intro other hother e he
      have hcases := deformConv2dSample_cases h hd hcount (List.mem_range.mp hother)
      by_cases hsampled : w.Sampled params input.data
          ⟨offset.data, mask.map (·.data), groups⟩ other
      · obtain ⟨part, hpart⟩ := hcases.1 hsampled
        rw [hpart] at he
        cases he
      · rw [hcases.2 hsampled] at he
        exact (Except.error.inj he).symm
    rw [h.deformConv2d_of_not_sampled hd hsample hnot, deformConv2dBySamples,
      mapM_eq_error honly ⟨sample, List.mem_range.mpr hsample, _, hrefused⟩, error_bind]

end Whole

end Window

/-- In a batch that passes the checks every sample yields what it yields alone, and the batch is
refused exactly where one of its samples is. A buffer for the taps that is handed on from sample to
sample changes nothing: filling it for a sample does not depend on what it held, and leaves the taps
of that sample in every place a sum reads. -/
theorem deformConv2d_isolates {input offset weight : Tensor α} {mask bias : Option (Tensor α)}
    {params : ConvParams} {w : Window} {groups : Nat}
    (hresolve : Window.resolve .deformConv2d input weight bias params = .ok w)
    (hgroups : w.offsetGroups offset mask = .ok groups) :
    (∀ out, deformConv2d input offset mask weight bias params = .ok out →
      ∀ sample < w.batch, ∃ part,
        deformConv2dSample params input offset mask weight bias sample = .ok part ∧
          out.narrow 0 sample 1 = .ok part) ∧
    (∀ count, w.outShape.numel? = some count →
      deformConv2d input offset mask weight bias params =
        w.deformConv2dBySamples params input offset mask weight bias) ∧
    ∀ stale : Array α, stale.size = w.places →
      let d : Deformation α := ⟨offset.data, mask.map (·.data), groups⟩
      deformConv2d input offset mask weight bias params =
        Tensor.ofKernel .deformConv2d w.outShape
          (w.elementsThrough params input.data weight.data bias d stale) ∧
      ∀ sample < w.batch,
        (∀ other : Array α, other.size = w.places →
          w.fillBuffer params input.data d sample stale =
            w.fillBuffer params input.data d sample other) ∧
        ∀ filled, w.fillBuffer params input.data d sample stale = some filled →
          ∀ channel < w.inChannels, ∀ tap < w.taps, ∀ position < w.spatial,
            filled[w.place channel tap position]? =
              deformedTap w params input.data d sample channel tap position := by
  have hfits := Window.resolve_eq_ok_iff.mp hresolve
  have hdeforms := (Window.offsetGroups_eq_ok_iff hfits.taps_pos).mp hgroups
  refine ⟨?_, ?_, ?_⟩
  · intro out hout sample hsample
    exact Window.deformConv2dSample_eq_narrow hfits hdeforms hout hsample
  · intro count hcount
    exact Window.deformConv2d_eq_bySamples hfits hdeforms hcount
  · intro stale hstale d
    refine ⟨?_, fun sample hsample => ⟨?_, ?_⟩⟩
    · rw [hfits.deformConv2d_eq hdeforms, hfits.elementsThrough_eq hdeforms hstale]
    · intro other hother
      exact Window.fillBuffer_forgets hdeforms hsample hstale hother
    · intro filled hfilled channel hchannel tap htap position hposition
      exact Window.getElem?_fillBuffer hdeforms hsample hstale hfilled hchannel htap hposition

/-- Two samples of two channels in doubles, an offset group and mask entries for each channel, and a
buffer that holds other numbers at first. -/
theorem deformConv2d_isolates_pairs :
    let input : Tensor Float := ⟨[2, 2, 1, 2], #[1, 2, 3, 4, 5, 6, 7, 8], rfl⟩
    let weight : Tensor Float := ⟨[1, 2, 1, 1], #[1, 10], rfl⟩
    let offset : Tensor Float :=
      ⟨[2, 4, 1, 2], #[0, 0.5, 0.5, 0, 0, 0, 0, -0.25, 0, 0, 0.5, 0, 0, 0, 1, -1], rfl⟩
    let mask : Tensor Float := ⟨[2, 2, 1, 2], #[1, 2, 1, 1, 1, 1, 2, 1], rfl⟩
    let w : Window := ⟨2, 2, 1, 2, 1, 2, 1, 1, 1, 1, 2⟩
    let out : Tensor Float := ⟨[2, 1, 1, 2], #[31.5, 39.5, 165.5, 76], rfl⟩
    let last : Tensor Float := ⟨[1, 1, 1, 2], #[165.5, 76], rfl⟩
    Window.resolve .deformConv2d input weight none {} = .ok w ∧
      w.offsetGroups offset (some mask) = .ok 2 ∧
      deformConv2d input offset (some mask) weight none {} = .ok out ∧
      deformConv2dSample {} input offset (some mask) weight none 1 = .ok last ∧
      w.deformConv2dBySamples {} input offset (some mask) weight none = .ok out ∧
      Tensor.ofKernel .deformConv2d w.outShape (w.elementsThrough {} input.data weight.data none
        ⟨offset.data, some mask.data, 2⟩ #[7, 7, 7, 7]) = .ok out := by
  intro input weight offset mask w out last
  have hresolve : Window.resolve .deformConv2d input weight none {} = .ok w := by decide
  have hgroups : w.offsetGroups offset (some mask) = .ok 2 := by decide
  have hout : deformConv2d input offset (some mask) weight none {} = .ok out := by decide +kernel
  obtain ⟨hslices, hsamples, hbuffer⟩ := deformConv2d_isolates hresolve hgroups
  obtain ⟨part, hpart, hslice⟩ := hslices out hout 1 (by decide)
  have hlast : out.narrow 0 1 1 = .ok last := by decide +kernel
  obtain rfl : part = last := Except.ok.inj (hslice.symm.trans hlast)
  have hcount : w.outShape.numel? = some 4 := by decide
  have hstale := (hbuffer #[7, 7, 7, 7] rfl).1
  exact ⟨hresolve, hgroups, hout, hpart, (hsamples 4 hcount).symm.trans hout,
    hstale.symm.trans hout⟩

end TensorParity
