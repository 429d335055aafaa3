import TensorParity.Kernel.Pointwise
import TensorParity.Proofs.Kernel.Slice
import TensorParity.Proofs.Rounding.Numbers

/-!
Batch normalisation, entry by entry. Elements are visited in order and their channel is found by
division alone; for every number of inner axes it is the second coordinate. An entry depends on the
vectors' entries for that channel only, so each channel of a result is what its slice yields alone.
-/
namespace TensorParity

section Vectors

variable (mean var : Tensor Float) (weight bias : Option (Tensor Float)) (eps : Float)

/-- What a normalisation asks of its vectors and its stability term. -/
structure Normalises (channels : Nat) : Prop where
  finite : eps.isFinite = true
  nonneg : 0.0 ≤ eps
  mean : mean.shape = [channels]
  var : var.shape = [channels]
  weight : ∀ t, weight = some t → t.shape = [channels]
  bias : ∀ t, bias = some t → t.shape = [channels]

/-- An element of a channel, normalised. -/
def normalised (x : Float) (channel : Nat) : Float :=
  (x - mean.entry [channel]) *
      (Tensor.entryOr weight 1.0 [channel] / (var.entry [channel] + eps).sqrt) +
    Tensor.entryOr bias 0.0 [channel]

variable (input : Tensor Float)

/-- The normalisation of one channel alone. -/
def batchNormChannel (channel : Nat) : Except KernelError (Tensor Float) := do
  let input ← input.narrow 1 channel 1
  let mean ← mean.narrow 0 channel 1
  let var ← var.narrow 0 channel 1
  let weight ← weight.mapM fun t => t.narrow 0 channel 1
  let bias ← bias.mapM fun t => t.narrow 0 channel 1
  batchNorm input mean var weight bias eps

/-- The channels one by one, put together. -/
def batchNormByChannels (channels : Nat) : Except KernelError (Tensor Float) := do
  let parts ← (List.range channels).mapM (batchNormChannel mean var weight bias eps input)
  Tensor.concat 1 input.shape parts

end Vectors

/-- Finite numbers that are not below zero are those from zero on. -/
theorem stable_iff {eps : Float} :
    ¬(!eps.isFinite || decide (eps < 0.0)) = true ↔ eps.isFinite = true ∧ 0.0 ≤ eps := by
  rw [Bool.or_eq_true, not_or, Bool.not_eq_true', Bool.not_eq_false, decide_eq_true_iff]
  refine and_congr_right fun hfinite => ?_
  obtain ⟨n, hn⟩ := exists_isNumber_of_isFinite hfinite
  exact hn.not_lt_iff (by decide +kernel : IsNumber 0.0 0)

namespace Shape

variable {batch channels sample channel : Nat} {rest : Shape} {place : List Nat}

theorem inside_cons_cons : Shape.Inside (batch :: channels :: rest) (sample :: channel :: place) ↔
    sample < batch ∧ channel < channels ∧ Shape.Inside rest place := by
  rw [Inside, Inside, List.forall₂_cons, List.forall₂_cons]

theorem exists_of_inside_cons_cons {index : List Nat}
    (h : Shape.Inside (batch :: channels :: rest) index) :
    ∃ sample channel place, index = sample :: channel :: place ∧
      sample < batch ∧ channel < channels ∧ Shape.Inside rest place := by
  match index, h with
  | sample :: channel :: place, .cons hsample (.cons hchannel hplace) =>
    exact ⟨sample, channel, place, rfl, hsample, hchannel, hplace⟩

/-- The second coordinate of a position, by the number of elements that lie below it. -/
theorem channel_of_position (hchannel : channel < channels) (hplace : Shape.Inside rest place) :
    position (batch :: channels :: rest) (sample :: channel :: place) / volume rest % channels =
      channel := by
  have hposition : position (batch :: channels :: rest) (sample :: channel :: place) =
      (sample * channels + channel) * volume rest + position rest place := by
    simp only [position, volume_cons]
    ring
  rw [hposition, row_add_div (position_lt hplace), row_add_mod hchannel]

/-- Where a shape has room for an element, its inner axes are counted by a word. -/
theorem numel?_inner {count : Nat} (h : numel? (batch :: channels :: rest) = some count)
    (hbatch : 0 < batch) (hchannels : 0 < channels) : rest.numel? = some rest.volume := by
  rw [numel?, List.foldlM_cons] at h
  obtain ⟨samples, hsamples, h⟩ := Option.bind_eq_some_iff.mp h
  rw [List.foldlM_cons] at h
  obtain ⟨planes, hplanes, h⟩ := Option.bind_eq_some_iff.mp h
  obtain ⟨rfl, -⟩ := mulWord?_eq_some hsamples
  obtain ⟨rfl, -⟩ := mulWord?_eq_some hplanes
  have hsame : List.Forall₂ (· ≤ ·) rest rest := List.forall₂_same.mpr fun _ _ => le_rfl
  have hone : 1 ≤ 1 * batch * channels := Nat.mul_pos (Nat.mul_pos Nat.one_pos hbatch) hchannels
  obtain ⟨inner, hinner⟩ := numel?_mono hsame hone h
  rw [(volume_of_numel? hinner).1]
  exact hinner

end Shape

section Checks

variable {input mean var out : Tensor Float} {weight bias : Option (Tensor Float)} {eps : Float}
  {batch channels : Nat} {rest : Shape}
variable (hshape : input.shape = batch :: channels :: rest)
include hshape

/-- Operands pass the checks exactly when the vectors are right. -/
theorem batchNorm_eq_ok_iff : batchNorm input mean var weight bias eps = .ok out ↔
    Normalises mean var weight bias eps channels ∧
      Tensor.ofKernel .batchNorm input.shape
        (batchNormElements channels rest.volume input.data mean.data var.data weight bias eps) =
          .ok out := by
  constructor
  · intro h
    unfold batchNorm at h
    simp only [hshape] at h
    split at h
    · cases h
    · rename_i hstable
      obtain ⟨hfinite, hnonneg⟩ := stable_iff.mp hstable
      obtain ⟨_, hmean, h⟩ := bind_eq_ok.mp h
      obtain ⟨_, hvar, h⟩ := bind_eq_ok.mp h
      obtain ⟨_, hweight, h⟩ := bind_eq_ok.mp h
      obtain ⟨_, hbias, h⟩ := bind_eq_ok.mp h
      rw [← hshape] at h
      exact ⟨⟨hfinite, hnonneg, checkChannelVector_eq_ok_iff.mp hmean,
        checkChannelVector_eq_ok_iff.mp hvar, checkChannelVector?_eq_ok_iff.mp hweight,
        checkChannelVector?_eq_ok_iff.mp hbias⟩, h⟩
  · rintro ⟨h, hout⟩
    rw [hshape] at hout
    unfold batchNorm
    simp only [hshape]
    rw [if_neg (stable_iff.mpr ⟨h.finite, h.nonneg⟩), checkChannelVector_eq_ok_iff.mpr h.mean,
      checkChannelVector_eq_ok_iff.mpr h.var, checkChannelVector?_eq_ok_iff.mpr h.weight,
      checkChannelVector?_eq_ok_iff.mpr h.bias]
    exact hout

/-- Elements have their channel's entries in place, and are normalised by them. -/
theorem batchNormElements_eq (h : Normalises mean var weight bias eps channels) :
    batchNormElements channels rest.volume input.data mean.data var.data weight bias eps =
      some ((Array.range input.data.size).map fun flat =>
        normalised mean var weight bias eps (read input.data flat)
          (flat / rest.volume % channels)) := by
  unfold batchNormElements
  generalize hfound : tabulate? _ channels = scales
  have hscales : scales = some ((Array.range channels).map fun c =>
      batchNormScale (var.entry [c]) (Tensor.entryOr weight 1.0 [c]) eps) := by
    rw [← hfound]
    apply tabulate?_eq_some
    intro c hc
    simp only [Tensor.entry?_eq_entryOr h.weight _ hc, Tensor.getElem?_eq_entry h.var hc]
  rw [hscales]
  apply tabulate?_eq_some
  intro flat hflat
  have hchannels : 0 < channels := by
    rw [Tensor.size_eq_volume, hshape, Shape.volume_cons, Shape.volume_cons] at hflat
    exact Nat.pos_of_mul_pos_right (Nat.pos_of_mul_pos_left (Nat.zero_lt_of_lt hflat))
  have hc : flat / rest.volume % channels < channels := Nat.mod_lt _ hchannels
  simp only [getElem?_eq_read hflat, Tensor.getElem?_eq_entry h.mean hc, Array.getElem?_map,
    Array.getElem?_range, if_pos hc, Option.map_some, Tensor.entry?_eq_entryOr h.bias _ hc]
  rfl

/-- Operands that pass the checks are normalised entry by entry. -/
theorem Normalises.exists_batchNorm (h : Normalises mean var weight bias eps channels) :
    ∃ out, batchNorm input mean var weight bias eps = .ok out ∧ out.shape = input.shape ∧
      ∀ sample channel place, input.shape.Inside (sample :: channel :: place) →
        out.entry (sample :: channel :: place) = normalised mean var weight bias eps
          (input.entry (sample :: channel :: place)) channel := by
  have helements := batchNormElements_eq hshape h
  generalize htable : (Array.range input.data.size).map _ = table at helements
  have hsize : input.shape.numel? = some table.size := by
    rw [← htable, Array.size_map, Array.size_range, input.numel_eq]
  obtain ⟨out, hout⟩ := Tensor.exists_ofArray hsize
  obtain ⟨houtShape, houtData⟩ := Tensor.ofArray_eq_ok hout
  refine ⟨out, (batchNorm_eq_ok_iff hshape).mpr ⟨h, ?_⟩, houtShape, ?_⟩
  · rw [helements]
    exact mapError_eq_ok.mpr hout
  · intro sample channel place hinside
    have hposition : input.shape.position (sample :: channel :: place) < input.data.size := by
      rw [Tensor.size_eq_volume]
      exact Shape.position_lt hinside
    obtain ⟨-, hchannel, hplace⟩ := Shape.inside_cons_cons.mp (hshape ▸ hinside)
    rw [Tensor.entry_of_inside (houtShape ▸ hinside), Tensor.entry_of_inside hinside, houtShape,
      houtData, ← htable, read, Array.getElem?_map, Array.getElem?_range, if_pos hposition,
      Option.map_some, Option.getD_some]
    congr 1
    rw [hshape]
    exact Shape.channel_of_position hchannel hplace

/-- What a result says of its operands, and what it is. -/
theorem entries_of_batchNorm (hout : batchNorm input mean var weight bias eps = .ok out) :
    Normalises mean var weight bias eps channels ∧ out.shape = input.shape ∧
      ∀ sample channel place, input.shape.Inside (sample :: channel :: place) →
        out.entry (sample :: channel :: place) = normalised mean var weight bias eps
          (input.entry (sample :: channel :: place)) channel := by
  have h := ((batchNorm_eq_ok_iff hshape).mp hout).1
  obtain ⟨whole, hwhole, hentries⟩ := h.exists_batchNorm hshape
  obtain rfl : out = whole := Except.ok.inj (hout.symm.trans hwhole)
  exact ⟨h, hentries⟩

/-- One channel alone is normalised, and its entries are those of the channel among the others. -/
theorem Normalises.exists_batchNormChannel (h : Normalises mean var weight bias eps channels)
    {channel : Nat} (hchannel : channel < channels) :
    ∃ part, batchNormChannel mean var weight bias eps input channel = .ok part ∧
      part.shape = batch :: 1 :: rest ∧
      ∀ sample place, sample < batch → Shape.Inside rest place →
        part.entry (sample :: 0 :: place) = normalised mean var weight bias eps
          (input.entry (sample :: channel :: place)) channel := by
  obtain ⟨inputPart, hinput⟩ := Tensor.exists_narrow input 1 channel
    (by rw [Tensor.dim?, hshape]; rfl) (Nat.one_le_of_lt hchannel)
  obtain ⟨meanPart, hmean, hmeanShape, hmeanEntry⟩ :=
    Tensor.exists_narrow_vector h.mean channel (Nat.one_le_of_lt hchannel)
  obtain ⟨varPart, hvar, hvarShape, hvarEntry⟩ :=
    Tensor.exists_narrow_vector h.var channel (Nat.one_le_of_lt hchannel)
  obtain ⟨weightPart, hweight, hweightShape, hweightEntry⟩ :=
    Tensor.exists_narrow? h.weight channel (Nat.one_le_of_lt hchannel)
  obtain ⟨biasPart, hbias, hbiasShape, hbiasEntry⟩ :=
    Tensor.exists_narrow? h.bias channel (Nat.one_le_of_lt hchannel)
  have hinputShape : inputPart.shape = batch :: 1 :: rest := by
    rw [Tensor.shape_narrow hinput, hshape]
    rfl
  have hparts : Normalises meanPart varPart weightPart biasPart eps 1 :=
    ⟨h.finite, h.nonneg, hmeanShape, hvarShape, hweightShape, hbiasShape⟩
  obtain ⟨part, hpart, hpartShape, hentries⟩ := hparts.exists_batchNorm hinputShape
  refine ⟨part, ?_, hpartShape.trans hinputShape, ?_⟩
  · rw [batchNormChannel, hinput, ok_bind, hmean, ok_bind, hvar, ok_bind, hweight, ok_bind, hbias,
      ok_bind, hpart]
  · intro sample place hsample hplace
    have hinside : inputPart.shape.Inside (sample :: 0 :: place) := by
      rw [hinputShape, Shape.inside_cons_cons]
      exact ⟨hsample, Nat.one_pos, hplace⟩
    rw [hentries sample 0 place hinside, normalised, Tensor.entry_narrow hinput hinside,
      hmeanEntry 0 Nat.one_pos, hvarEntry 0 Nat.one_pos, hweightEntry _ 0 Nat.one_pos,
      hbiasEntry _ 0 Nat.one_pos]
    rfl

/-- A channel of a result is what its slice yields alone. -/
theorem batchNormChannel_eq_narrow (hout : batchNorm input mean var weight bias eps = .ok out)
    {channel : Nat} (hchannel : channel < channels) :
    ∃ part, batchNormChannel mean var weight bias eps input channel = .ok part ∧
      out.narrow 1 channel 1 = .ok part := by
  obtain ⟨h, houtShape, hentries⟩ := entries_of_batchNorm hshape hout
  obtain ⟨part, hpart, hpartShape, hpartEntries⟩ := h.exists_batchNormChannel hshape hchannel
  have hsliceShape : out.shape.set 1 1 = batch :: 1 :: rest := by
    rw [houtShape, hshape]
    rfl
  refine ⟨part, hpart, Tensor.ofEntries_eq_ok_iff.mpr ⟨hpartShape.trans hsliceShape.symm, ?_⟩⟩
  intro index hinside
  rw [hsliceShape] at hinside
  obtain ⟨sample, own, place, rfl, hsample, hown, hplace⟩ :=
    Shape.exists_of_inside_cons_cons hinside
  obtain rfl : own = 0 := Nat.lt_one_iff.mp hown
  rw [hpartEntries sample place hsample hplace]
  refine (hentries sample channel place ?_).symm
  rw [hshape, Shape.inside_cons_cons]
  exact ⟨hsample, hchannel, hplace⟩

end Checks

/-- A tensor of at least two axes is normalised exactly when the stability term is a number from
zero on and every vector has one entry for each channel. The result then has the shape of the input,
each of its entries is the one there scaled and moved by its channel's entries, and its channels
are what their slices yield alone. No count of inner axes leaves the words where there is an
element to visit. -/
theorem batchNorm_by_channel {input mean var : Tensor Float} {weight bias : Option (Tensor Float)}
    {eps : Float} {batch channels : Nat} {rest : Shape}
    (hshape : input.shape = batch :: channels :: rest) :
    ((∃ out, batchNorm input mean var weight bias eps = .ok out) ↔
      Normalises mean var weight bias eps channels) ∧
    (∀ out, batchNorm input mean var weight bias eps = .ok out →
      out.shape = input.shape ∧
      (∀ sample channel place, input.shape.Inside (sample :: channel :: place) →
        out.entry (sample :: channel :: place) = normalised mean var weight bias eps
          (input.entry (sample :: channel :: place)) channel) ∧
      (∀ channel < channels, ∃ part,
        batchNormChannel mean var weight bias eps input channel = .ok part ∧
          out.narrow 1 channel 1 = .ok part) ∧
      batchNormByChannels mean var weight bias eps input channels = .ok out) ∧
    (0 < batch → 0 < channels → rest.numel? = some rest.volume) := by
  refine ⟨⟨?_, ?_⟩, ?_, ?_⟩
  · rintro ⟨out, hout⟩
    exact (entries_of_batchNorm hshape hout).1
  · intro h
    obtain ⟨out, hout, -⟩ := h.exists_batchNorm hshape
    exact ⟨out, hout⟩
  · intro out hout
    obtain ⟨-, houtShape, hentries⟩ := entries_of_batchNorm hshape hout
    have hslices := fun channel (hchannel : channel < channels) =>
      batchNormChannel_eq_narrow hshape hout hchannel
    have haxis : out.dim? 1 = some (channels * 1) := by
      rw [Tensor.dim?, houtShape, hshape, Nat.mul_one]
      rfl
    refine ⟨houtShape, hentries, hslices, ?_⟩
    rw [batchNormByChannels, ← houtShape]
    apply Tensor.mapM_concat_narrow haxis
    intro channel hchannel
    rw [Nat.mul_one]
    exact hslices channel hchannel
  · exact Shape.numel?_inner (hshape ▸ input.numel_eq)

/-- Two samples of two channels of two elements, with weights and without a bias. -/
theorem batchNorm_by_channel_pairs :
    let input : Tensor Float := ⟨[2, 2, 2], #[1, 2, 3, 4, 5, 6, 7, 8], rfl⟩
    let mean : Tensor Float := ⟨[2], #[1, 2], rfl⟩
    let var : Tensor Float := ⟨[2], #[3, 15], rfl⟩
    let weight : Tensor Float := ⟨[2], #[2, 3], rfl⟩
    let out : Tensor Float := ⟨[2, 2, 2], #[0, 1, 0.75, 1.5, 4, 5, 3.75, 4.5], rfl⟩
    let second : Tensor Float := ⟨[2, 1, 2], #[0.75, 1.5, 3.75, 4.5], rfl⟩
    input.shape = 2 :: 2 :: [2] ∧
      batchNorm input mean var (some weight) none 1 = .ok out ∧
      Normalises mean var (some weight) none 1 2 ∧
      out.entry [1, 1, 0] = normalised mean var (some weight) none 1 7 1 ∧
      batchNormChannel mean var (some weight) none 1 input 1 = .ok second ∧
      batchNormByChannels mean var (some weight) none 1 input 2 = .ok out := by
  intro input mean var weight out second
  have hout : batchNorm input mean var (some weight) none 1 = .ok out := by decide +kernel
  obtain ⟨hnormalises, hresult, -⟩ :=
    @batchNorm_by_channel input mean var (some weight) none 1 2 2 [2] rfl
  obtain ⟨-, hentries, hslices, hchannels⟩ := hresult out hout
  obtain ⟨part, hpart, hslice⟩ := hslices 1 (by decide)
  have hsecond : out.narrow 1 1 1 = .ok second := by decide +kernel
  obtain rfl : part = second := Except.ok.inj (hslice.symm.trans hsecond)
  have hentry := hentries 1 1 [0] (by decide)
  have helement : input.entry [1, 1, 0] = 7 := by decide +kernel
  rw [helement] at hentry
  exact ⟨rfl, hout, hnormalises.mp ⟨out, hout⟩, hentry, hpart, hchannels⟩

end TensorParity
