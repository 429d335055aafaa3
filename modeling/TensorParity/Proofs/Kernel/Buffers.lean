import TensorParity.Proofs.Kernel.Accumulation
import TensorParity.Proofs.Kernel.Border

/-!
Where both convolutions read and write. A convolution whose operands pass the checks stays inside
every buffer. A deformable one leaves none either, except where it samples an empty input plane at a
coordinate that is no number.
-/
namespace TensorParity

variable {α : Type} [Scalar α]

namespace Window

variable {w : Window} {params : ConvParams}

/-- A tap without a value leaves its sample without taps. -/
theorem deformedTaps_eq_none {input : Array α} {d : Deformation α}
    {sample channel tap position : Nat} (hchannel : channel < w.inChannels) (htap : tap < w.taps)
    (hposition : position < w.spatial)
    (hnone : deformedTap w params input d sample channel tap position = none) :
    deformedTaps w params input d sample = none := by
  have hrow : position * w.inChannels + channel < w.spatial * w.inChannels :=
    row_add_lt hposition hchannel
  apply tabulate?_eq_none (row_add_lt hrow htap)
  simp only [row_add_div htap, row_add_mod htap, row_add_div hchannel, row_add_mod hchannel]
  exact hnone

/-- A tap without a value leaves a deformable convolution without elements. -/
theorem deformConv2dElements_eq_none {input weight : Array α} {bias : Option (Tensor α)}
    {d : Deformation α} {sample channel tap position : Nat} (hsample : sample < w.batch)
    (hchannel : channel < w.inChannels) (htap : tap < w.taps) (hposition : position < w.spatial)
    (hnone : deformedTap w params input d sample channel tap position = none) :
    deformConv2dElements w params input weight bias d = none := by
  apply foldRange?_eq_none (i := sample) _ (Nat.zero_le _) (by omega)
  intro acc
  simp only [deformedTaps_eq_none hchannel htap hposition hnone]

section Sampled

variable (w : Window) (params : ConvParams) (input : Array α) (d : Deformation α)

/-- Whether every tap of a sample has a value. -/
def Sampled (sample : Nat) : Prop :=
  ∀ channel < w.inChannels, ∀ tap < w.taps, ∀ position < w.spatial,
    deformedTap w params input d sample channel tap position ≠ none

/-- The value of a tap that has one. -/
def tapValue (sample channel tap position : Nat) : α :=
  (deformedTap w params input d sample channel tap position).getD (Scalar.ofNat 0)

end Sampled

theorem Sampled.eq_tapValue {input : Array α} {d : Deformation α} {sample : Nat}
    (h : w.Sampled params input d sample) :
    ∀ channel < w.inChannels, ∀ tap < w.taps, ∀ position < w.spatial,
      deformedTap w params input d sample channel tap position =
        some (w.tapValue params input d sample channel tap position) := by
  intro channel hchannel tap htap position hposition
  obtain ⟨value, hvalue⟩ :=
    Option.ne_none_iff_exists'.mp (h channel hchannel tap htap position hposition)
  rw [tapValue, hvalue, Option.getD_some]

theorem not_sampled_iff {input : Array α} {d : Deformation α} {sample : Nat} :
    ¬w.Sampled params input d sample ↔
      ∃ channel < w.inChannels, ∃ tap < w.taps, ∃ position < w.spatial,
        deformedTap w params input d sample channel tap position = none := by
  simp only [Sampled, not_forall, exists_prop, not_not]

/-- What positions are divided by is positive wherever something is divided. -/
structure Divides (w : Window) (params : ConvParams) : Prop where
  strides : 0 < params.vertical.stride ∧ 0 < params.horizontal.stride
  groups : 0 < params.groups
  taps : 0 < w.taps
  outPerGroup : 0 < w.outChannels → 0 < w.outPerGroup

/-- Whether the sample of some tap reads beyond its plane. -/
def SampleLeaves (w : Window) (params : ConvParams) (input : Array α) (d : Deformation α) : Prop :=
  ∃ sample < w.batch, ∃ channel < w.inChannels, ∃ tap < w.taps, ∃ position < w.spatial,
    bilinear (w.pixel? input sample channel) w.inHeight w.inWidth
      (w.movedRow params d sample channel tap position)
      (w.movedColumn params d sample channel tap position) = none

section Calls

variable {input weight offset : Tensor α} {bias mask : Option (Tensor α)} {groups : Nat}

omit [Scalar α] in
theorem Fits.divides (h : w.Fits input weight bias params) : w.Divides params := by
  have hpositive := h.positive
  refine ⟨by omega, h.groups_pos, h.taps_pos, ?_⟩
  intro hchannels
  rw [← h.outPerGroup_mul] at hchannels
  exact Nat.pos_of_mul_pos_left hchannels

omit [Scalar α] in
theorem Deforms.channels_pos (hd : w.Deforms offset mask groups) (hchannels : 0 < w.inChannels) :
    0 < w.inChannels / groups :=
  Nat.div_pos (Nat.le_of_dvd hchannels hd.divides) hd.positive

section Deformed

variable (h : w.Fits input weight bias params) (hd : w.Deforms offset mask groups)
include h hd

/-- A sample with a tap that has no value is refused. -/
theorem Fits.deformConv2d_of_not_sampled {sample : Nat} (hsample : sample < w.batch)
    (hnot : ¬w.Sampled params input.data ⟨offset.data, mask.map (·.data), groups⟩ sample) :
    deformConv2d input offset mask weight bias params = .error (.outsideBuffer .deformConv2d) := by
  obtain ⟨channel, hchannel, tap, htap, position, hposition, hnone⟩ := not_sampled_iff.mp hnot
  rw [h.deformConv2d_eq hd, deformConv2dElements_eq_none hsample hchannel htap hposition hnone]
  rfl

/-- Samples whose taps all have values make a result. -/
theorem Fits.deformConv2d_of_sampled {count : Nat} (hcount : w.outShape.numel? = some count)
    (hall : ∀ sample < w.batch,
      w.Sampled params input.data ⟨offset.data, mask.map (·.data), groups⟩ sample) :
    ∃ out, deformConv2d input offset mask weight bias params = .ok out ∧
      out.shape = w.outShape := by
  apply h.exists_deformConv2d hd hcount
  intro sample hsample channel hchannel tap htap position hposition
  exact ⟨_, (hall sample hsample).eq_tapValue channel hchannel tap htap position hposition⟩

/-- A sample that leaves its plane is refused. -/
theorem Fits.deformConv2d_of_leaves
    (hleaves : w.SampleLeaves params input.data ⟨offset.data, mask.map (·.data), groups⟩) :
    deformConv2d input offset mask weight bias params = .error (.outsideBuffer .deformConv2d) := by
  obtain ⟨sample, hsample, channel, hchannel, tap, htap, position, hposition, hnone⟩ := hleaves
  apply h.deformConv2d_of_not_sampled hd hsample
  refine not_sampled_iff.mpr ⟨channel, hchannel, tap, htap, position, hposition, ?_⟩
  rw [deformedTap_eq_map hd hsample hchannel htap hposition, hnone, Option.map_none]

/-- Samples that stay in their planes make a result. -/
theorem Fits.deformConv2d_of_stays {count : Nat} (hcount : w.outShape.numel? = some count)
    (hstays : ¬w.SampleLeaves params input.data ⟨offset.data, mask.map (·.data), groups⟩) :
    ∃ out, deformConv2d input offset mask weight bias params = .ok out ∧
      out.shape = w.outShape := by
  apply h.deformConv2d_of_sampled hd hcount
  intro sample hsample channel hchannel tap htap position hposition
  rw [deformedTap_eq_map hd hsample hchannel htap hposition, Ne, Option.map_eq_none_iff]
  intro hnone
  exact hstays ⟨sample, hsample, channel, hchannel, tap, htap, position, hposition, hnone⟩

end Deformed

end Calls

/-- Some tap of an empty plane is sampled where each coordinate lies inside or nowhere. Inside an
empty axis there is nothing, so one of the two is no number. -/
def Hollow (w : Window) (params : ConvParams) (d : Deformation Float) : Prop :=
  w.inHeight * w.inWidth = 0 ∧ ∃ sample < w.batch, ∃ channel < w.inChannels, ∃ tap < w.taps,
    ∃ position < w.spatial, Passes w.inHeight (w.movedRow params d sample channel tap position) ∧
      Passes w.inWidth (w.movedColumn params d sample channel tap position)

/-- Planes with sides that doubles count exactly are left only if they are empty. -/
theorem Fits.sampleLeaves_iff {input weight : Tensor Float} {bias : Option (Tensor Float)}
    (h : w.Fits input weight bias params) (hheight : w.inHeight < 2 ^ 53)
    (hwidth : w.inWidth < 2 ^ 53) (d : Deformation Float) :
    w.SampleLeaves params input.data d ↔ w.Hollow params d := by
  have hsample {sample channel : Nat} (hs : sample < w.batch) (hc : channel < w.inChannels)
      (y x : Float) :
      bilinear (w.pixel? input.data sample channel) w.inHeight w.inWidth y x = none ↔
        w.inHeight * w.inWidth = 0 ∧ Passes w.inHeight y ∧ Passes w.inWidth x := by
    apply bilinear_eq_none_iff _ _ hheight hwidth
    · intro i hi
      rw [h.pixel?_eq hs hc i hi]
      rfl
    · intro i hi
      rw [pixel?, if_neg (Nat.not_lt.mpr hi)]
  constructor
  · rintro ⟨sample, hs, channel, hc, tap, htap, position, hposition, hnone⟩
    obtain ⟨hempty, hpasses⟩ := (hsample hs hc _ _).mp hnone
    exact ⟨hempty, sample, hs, channel, hc, tap, htap, position, hposition, hpasses⟩
  · rintro ⟨hempty, sample, hs, channel, hc, tap, htap, position, hposition, hpasses⟩
    exact ⟨sample, hs, channel, hc, tap, htap, position, hposition,
      (hsample hs hc _ _).mpr ⟨hempty, hpasses⟩⟩

end Window

/-- Operands that pass the checks, with a result whose elements a word counts, are convolved inside
their buffers, and nothing is divided by zero. With an offset and a mask that pass theirs a
deformable convolution yields a result of the same shape unless one of its samples leaves an input
plane; it is the only access that can. Where doubles count the sides of a plane exactly, the plane is
empty then and the sample is taken at a coordinate that is no number. -/
theorem convolutions_stay_inside {input weight : Tensor Float} {bias : Option (Tensor Float)}
    {params : ConvParams} {kernel : OperatorKind} {w : Window} {count : Nat}
    (hresolve : Window.resolve kernel input weight bias params = .ok w)
    (hcount : w.outShape.numel? = some count) :
    w.Divides params ∧
      (∃ out, conv2d input weight bias params = .ok out ∧ out.shape = w.outShape) ∧
      ∀ offset mask groups, w.offsetGroups offset mask = .ok groups →
        let d : Deformation Float := ⟨offset.data, mask.map (·.data), groups⟩
        (0 < groups ∧ (0 < w.inChannels → 0 < w.inChannels / groups)) ∧
        (w.SampleLeaves params input.data d ∧
            deformConv2d input offset mask weight bias params =
              .error (.outsideBuffer .deformConv2d) ∨
          ¬w.SampleLeaves params input.data d ∧
            ∃ out, deformConv2d input offset mask weight bias params = .ok out ∧
              out.shape = w.outShape) ∧
        (w.inHeight < 2 ^ 53 → w.inWidth < 2 ^ 53 →
          (w.SampleLeaves params input.data d ↔ w.Hollow params d)) := by
  have hfits := Window.resolve_eq_ok_iff.mp hresolve
  refine ⟨hfits.divides, hfits.exists_conv2d hcount, ?_⟩
  intro offset mask groups hgroups d
  have hdeforms := (Window.offsetGroups_eq_ok_iff hfits.taps_pos).mp hgroups
  refine ⟨⟨hdeforms.positive, hdeforms.channels_pos⟩, ?_, ?_⟩
  · by_cases hleaves : w.SampleLeaves params input.data d
    · exact .inl ⟨hleaves, hfits.deformConv2d_of_leaves hdeforms hleaves⟩
    · exact .inr ⟨hleaves, hfits.deformConv2d_of_stays hdeforms hcount hleaves⟩
  · intro hheight hwidth
    exact hfits.sampleLeaves_iff hheight hwidth d

namespace HollowPlane

theorem numel_input : Shape.numel? [1, 1, 0, 2] = some (#[] : Array Float).size := by
  decide

/-- An input without rows, and so without pixels. -/
def input : Tensor Float := ⟨[1, 1, 0, 2], #[], numel_input⟩

theorem numel_weight : Shape.numel? [1, 1, 1, 1] = some #[(0.5 : Float)].size := by
  decide

def weight : Tensor Float := ⟨[1, 1, 1, 1], #[0.5], numel_weight⟩

theorem words_side :
    1 < Shape.wordLimit ∧ 1 < Shape.wordLimit ∧ 1 < Shape.wordLimit := by
  decide

def side : AxisParams := ⟨1, 1, 1, words_side⟩

/-- Padding on all sides, so that there are taps to sample all the same. -/
def params : ConvParams := ⟨side, side, 1, Shape.one_lt_wordLimit⟩

theorem numel_offsets (value : Float) :
    Shape.numel? [1, 2, 2, 4] = some (Array.replicate 16 value).size := by
  rw [Array.size_replicate]
  decide

/-- The same offset for all taps. -/
def offsets (value : Float) : Tensor Float :=
  ⟨[1, 2, 2, 4], Array.replicate 16 value, numel_offsets value⟩

def window : Window := ⟨1, 1, 0, 2, 1, 1, 1, 1, 1, 2, 4⟩

theorem resolve_window : Window.resolve .deformConv2d input weight none params = .ok window := by
  decide

/-- Offsets of zero read the padding only; where offsets are no numbers, taps leave the plane. -/
theorem deformConv2d_offsets :
    (∃ out, deformConv2d input (offsets 0.0) none weight none params = .ok out) ∧
      deformConv2d input (offsets (0.0 / 0.0)) none weight none params =
        .error (.outsideBuffer .deformConv2d) := by
  have hzero : deformConv2d input (offsets 0.0) none weight none params =
      .ok ⟨[1, 1, 2, 4], Array.replicate 8 0, by rw [Array.size_replicate]; decide⟩ := by
    decide +kernel
  exact ⟨⟨_, hzero⟩, by decide +kernel⟩

end HollowPlane

open HollowPlane in
/-- Over a plane without rows offsets of zero stay inside, and offsets that are no numbers leave
it. -/
theorem convolutions_stay_inside_hollow :
    Window.resolve .deformConv2d input weight none params = .ok window ∧
      window.outShape.numel? = some 8 ∧
      (∃ out, conv2d input weight none params = .ok out ∧ out.shape = [1, 1, 2, 4]) ∧
      ¬window.Hollow params ⟨(offsets 0.0).data, none, 1⟩ ∧
      window.Hollow params ⟨(offsets (0.0 / 0.0)).data, none, 1⟩ := by
  have hcount : window.outShape.numel? = some 8 := by decide
  obtain ⟨-, hconv, hdeformed⟩ := convolutions_stay_inside resolve_window hcount
  refine ⟨resolve_window, hcount, hconv, ?_, ?_⟩
  · intro hhollow
    obtain ⟨-, hcases, hleaves⟩ := hdeformed (offsets 0.0) none 1 (by decide)
    have hleave := (hleaves (by decide) (by decide)).mpr hhollow
    rcases hcases with ⟨-, hrefused⟩ | ⟨hstays, -⟩
    · obtain ⟨out, hout⟩ := deformConv2d_offsets.1
      rw [hout] at hrefused
      cases hrefused
    · exact hstays hleave
  · obtain ⟨-, hcases, hleaves⟩ := hdeformed (offsets (0.0 / 0.0)) none 1 (by decide)
    apply (hleaves (by decide) (by decide)).mp
    rcases hcases with ⟨hleave, -⟩ | ⟨-, out, hout, -⟩
    · exact hleave
    · rw [deformConv2d_offsets.2] at hout
      cases hout

/-- Not every deformable convolution of operands that pass the checks has a result. -/
theorem deformConv2d_leaves_plane :
    ¬ ∀ (input offset weight : Tensor Float) (mask bias : Option (Tensor Float))
      (params : ConvParams) (w : Window) (groups count : Nat),
      Window.resolve .deformConv2d input weight bias params = .ok w →
      w.offsetGroups offset mask = .ok groups → w.outShape.numel? = some count →
        ∃ out, deformConv2d input offset mask weight bias params = .ok out ∧
          out.shape = w.outShape := by
  intro hall
  obtain ⟨out, hout, -⟩ := hall HollowPlane.input (HollowPlane.offsets (0.0 / 0.0))
    HollowPlane.weight none none HollowPlane.params HollowPlane.window 1 8
    HollowPlane.resolve_window (by decide) (by decide)
  rw [HollowPlane.deformConv2d_offsets.2] at hout
  cases hout

end TensorParity
