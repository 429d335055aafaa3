import TensorParity.Proofs.Kernel.Deformation
import TensorParity.Proofs.Kernel.Slice

/-!
The elements of a convolution, entry by entry. Each is the bias with the products of its taps added
one after the other, by channel, kernel row and kernel column; taps that fall into the padding are
passed over. Since the order is fixed, a convolution in groups is the convolutions of its groups side
by side, and a batch is its samples one after the other, for every arithmetic.
-/
namespace TensorParity

variable {α : Type} [Scalar α]

theorem Shape.one_lt_wordLimit : 1 < Shape.wordLimit := by
  decide

/-- The same strides, paddings and dilations with all channels in one group. -/
def ConvParams.ungrouped (params : ConvParams) : ConvParams :=
  ⟨params.vertical, params.horizontal, 1, Shape.one_lt_wordLimit⟩

namespace Window

variable (w : Window) (params : ConvParams) (input weight : Tensor α) (bias : Option (Tensor α))

/-- Taps of one output element by channel of the group, kernel row and kernel column. -/
def tapOrder : List (Nat × Nat × Nat) :=
  List.range w.inPerGroup ×ˢ List.range w.kernelHeight ×ˢ List.range w.kernelWidth

/-- The input channel of a weight group that an output channel reads in this place. -/
def groupChannel (outChannel local_ : Nat) : Nat :=
  outChannel / (w.outChannels / params.groups) * (w.inChannels / params.groups) + local_

/-- One step of an accumulation: the product of a tap, unless the tap lies in the padding. -/
def addTap (sample outChannel row column : Nat) (acc : α) : Nat × Nat × Nat → α
  | (local_, tapRow, tapColumn) =>
    let y := params.vertical.origin row tapRow
    let x := params.horizontal.origin column tapColumn
    if (0 ≤ y ∧ y < w.inHeight) ∧ 0 ≤ x ∧ x < w.inWidth then
      acc + weight.entry [outChannel, local_, tapRow, tapColumn] *
        input.entry [sample, w.groupChannel params outChannel local_, y.toNat, x.toNat]
    else acc

/-- The bias with all taps added from left to right. -/
def accumulate (sample outChannel row column : Nat) : α :=
  w.tapOrder.foldl (w.addTap params input weight sample outChannel row column)
    (Tensor.entryOr bias (Scalar.ofNat 0) [outChannel])

variable {w params input weight bias}

theorem foldl_tapOrder {β : Type} (f : β → Nat × Nat × Nat → β) (b : β) :
    w.tapOrder.foldl f b =
      (List.range w.inPerGroup).foldl (fun acc local_ =>
        (List.range w.kernelHeight).foldl (fun acc tapRow =>
          (List.range w.kernelWidth).foldl (fun acc tapColumn =>
            f acc (local_, tapRow, tapColumn)) acc) acc) b := by
  simp only [tapOrder, SProd.sprod, List.product, List.foldl_flatMap, List.foldl_map]

theorem mem_tapOrder {local_ tapRow tapColumn : Nat} :
    (local_, tapRow, tapColumn) ∈ w.tapOrder ↔
      local_ < w.inPerGroup ∧ tapRow < w.kernelHeight ∧ tapColumn < w.kernelWidth := by
  rw [tapOrder, List.mem_product, List.mem_product, List.mem_range, List.mem_range, List.mem_range]

namespace Fits

variable (h : w.Fits input weight bias params)
include h

omit [Scalar α] in
theorem groups_pos : 0 < params.groups := by
  have hpositive := h.positive
  omega

omit [Scalar α] in
theorem outPerGroup_mul : params.groups * w.outPerGroup = w.outChannels := by
  rw [h.outPerGroup]
  exact Nat.mul_div_cancel' (Nat.dvd_of_mod_eq_zero h.outChannels)

omit [Scalar α] in
theorem groupChannel_eq (outChannel local_ : Nat) :
    w.groupChannel params outChannel local_ = w.channelOf outChannel local_ := by
  rw [groupChannel, channelOf, h.outPerGroup, ← h.inChannels, Nat.mul_div_cancel _ h.groups_pos]

/-- Terms in the order of their addition are the steps of an accumulation. -/
theorem accumulate_eq {sample outChannel row column : Nat} (hsample : sample < w.batch)
    (hout : outChannel < w.outChannels) :
    w.accumulate params input weight bias sample outChannel row column =
      (w.conv2dTerms params input.data weight.data sample outChannel row column).foldl (· + ·)
        (biasAt bias outChannel) := by
  rw [accumulate, h.entry_bias hout, foldl_tapOrder, conv2dTerms, List.foldl_flatMap]
  apply List.foldl_ext
  intro acc local_ hlocal
  rw [List.foldl_flatMap]
  apply List.foldl_ext
  intro acc tapRow hrow
  rw [List.foldl_flatMap]
  apply List.foldl_ext
  intro acc tapColumn hcolumn
  rw [List.mem_range] at hlocal hrow hcolumn
  have hchannel : w.channelOf outChannel local_ < w.inChannels := h.channelOf_lt hout hlocal
  have hweight := h.entry_weight hout hlocal hrow hcolumn
  simp only [addTap, h.groupChannel_eq, inputTap?, AxisParams.tap?_eq_origin, hweight]
  generalize params.vertical.origin row tapRow = y
  generalize params.horizontal.origin column tapColumn = x
  by_cases hy : 0 ≤ y ∧ y < w.inHeight
  · by_cases hx : 0 ≤ x ∧ x < w.inWidth
    · have hinput := h.entry_input hsample hchannel (y := y.toNat) (x := x.toNat) (by omega)
        (by omega)
      rw [if_pos ⟨hy, hx⟩, if_pos hy, if_pos hx, hinput, ← Nat.add_assoc]
      rfl
    · rw [if_neg (fun hboth => hx hboth.2), if_pos hy, if_neg hx]
      rfl
  · rw [if_neg (fun hboth => hy hboth.1), if_neg hy]
    rfl

/-- Operands that fit pass every check. -/
theorem conv2d_eq : conv2d input weight bias params =
    Tensor.ofKernel .conv2d w.outShape (conv2dElements w params input.data weight.data bias) := by
  rw [conv2d, resolve_eq_ok_iff.mpr h, ok_bind]

theorem entry_conv2d {out : Tensor α} (hout : conv2d input weight bias params = .ok out)
    {sample outChannel row column : Nat} (hsample : sample < w.batch)
    (hchannel : outChannel < w.outChannels) (hrow : row < w.outHeight)
    (hcolumn : column < w.outWidth) :
    out.entry [sample, outChannel, row, column] =
      w.accumulate params input weight bias sample outChannel row column := by
  rw [h.conv2d_eq, ofKernel_eq_ok_iff, h.conv2dElements_eq, Option.some.injEq] at hout
  obtain ⟨hshape, hdata⟩ := hout
  have htable : out.data = (Array.range (w.batch * w.outChannels * w.spatial)).map fun flat =>
      (w.conv2dTerms params input.data weight.data (flat / w.spatial / w.outChannels)
        (flat / w.spatial % w.outChannels) (flat % w.spatial / w.outWidth)
        (flat % w.spatial % w.outWidth)).foldl (· + ·)
        (biasAt bias (flat / w.spatial % w.outChannels)) := by
    simp only [← hdata, spatial, Nat.mod_mul_left_div_self, Nat.mod_mul_left_mod]
  have hentry := entry_of_table (g := fun sample outChannel position =>
    (w.conv2dTerms params input.data weight.data sample outChannel (position / w.outWidth)
      (position % w.outWidth)).foldl (· + ·) (biasAt bias outChannel)) hshape htable hsample hchannel
      hrow hcolumn
  rw [hentry, row_add_div hcolumn, row_add_mod hcolumn, h.accumulate_eq hsample hchannel]

/-- Operands that fit are convolved if a word counts the result. -/
theorem exists_conv2d {count : Nat} (hcount : w.outShape.numel? = some count) :
    ∃ out, conv2d input weight bias params = .ok out ∧ out.shape = w.outShape := by
  rw [h.conv2d_eq, h.conv2dElements_eq]
  exact exists_ofTable hcount _

end Fits

section Parts

variable (w params input weight bias)

/-- The window of one weight group. -/
def group : Window := { w with inChannels := w.inPerGroup, outChannels := w.outPerGroup }

/-- The window of one sample. -/
def single : Window := { w with batch := 1 }

omit [Scalar α] in
/-- If a word counts the elements of a batch, one counts those of a sample. -/
theorem exists_numel_single {count sample : Nat} (hcount : w.outShape.numel? = some count)
    (hsample : sample < w.batch) : ∃ one, w.single.outShape.numel? = some one := by
  have hsmaller : List.Forall₂ (· ≤ ·) w.single.outShape w.outShape :=
    .cons (Nat.one_le_of_lt hsample) (.cons le_rfl (.cons le_rfl (.cons le_rfl .nil)))
  exact Shape.numel?_mono hsmaller le_rfl hcount

/-- The convolution of one weight group alone. -/
def conv2dGroup (g : Nat) : Except KernelError (Tensor α) := do
  let input ← input.narrow 1 (g * w.inPerGroup) w.inPerGroup
  let weight ← weight.narrow 0 (g * w.outPerGroup) w.outPerGroup
  let bias ← bias.mapM fun t => t.narrow 0 (g * w.outPerGroup) w.outPerGroup
  conv2d input weight bias params.ungrouped

/-- The weight groups one by one, put together by channels. -/
def conv2dByGroups : Except KernelError (Tensor α) := do
  let parts ← (List.range params.groups).mapM (w.conv2dGroup params input weight bias)
  Tensor.concat 1 w.outShape parts

/-- The convolution of one sample alone. -/
def conv2dSample (sample : Nat) : Except KernelError (Tensor α) := do
  let input ← input.narrow 0 sample 1
  conv2d input weight bias params

/-- The samples one by one, put together as a batch. -/
def conv2dBySamples : Except KernelError (Tensor α) := do
  let parts ← (List.range w.batch).mapM (conv2dSample params input weight bias)
  Tensor.concat 0 w.outShape parts

end Parts

/-- Accumulations over the same taps agree where their operands do. -/
theorem accumulate_congr {v : Window} {params' : ConvParams} {input' weight' : Tensor α}
    {bias' : Option (Tensor α)} {sample sample' outChannel outChannel' : Nat}
    (hheight : v.inHeight = w.inHeight) (hwidth : v.inWidth = w.inWidth)
    (htaps : v.tapOrder = w.tapOrder) (hvertical : params'.vertical = params.vertical)
    (hhorizontal : params'.horizontal = params.horizontal)
    (hbias : Tensor.entryOr bias' (Scalar.ofNat 0) [outChannel'] =
      Tensor.entryOr bias (Scalar.ofNat 0) [outChannel])
    (hweight : ∀ local_ < w.inPerGroup, ∀ tapRow < w.kernelHeight, ∀ tapColumn < w.kernelWidth,
      weight'.entry [outChannel', local_, tapRow, tapColumn] =
        weight.entry [outChannel, local_, tapRow, tapColumn])
    (hinput : ∀ local_ < w.inPerGroup, ∀ y < w.inHeight, ∀ x < w.inWidth,
      input'.entry [sample', v.groupChannel params' outChannel' local_, y, x] =
        input.entry [sample, w.groupChannel params outChannel local_, y, x]) (row column : Nat) :
    v.accumulate params' input' weight' bias' sample' outChannel' row column =
      w.accumulate params input weight bias sample outChannel row column := by
  rw [accumulate, accumulate, htaps, hbias]
  apply List.foldl_ext
  rintro acc ⟨local_, tapRow, tapColumn⟩ htap
  obtain ⟨hlocal, hrow, hcolumn⟩ := mem_tapOrder.mp htap
  simp only [addTap, hheight, hwidth, hvertical, hhorizontal, hweight _ hlocal _ hrow _ hcolumn]
  generalize params.vertical.origin row tapRow = y
  generalize params.horizontal.origin column tapColumn = x
  by_cases hinside : (0 ≤ y ∧ y < w.inHeight) ∧ 0 ≤ x ∧ x < w.inWidth
  · rw [if_pos hinside, if_pos hinside,
      hinput _ hlocal y.toNat (by omega) x.toNat (by omega)]
  · rw [if_neg hinside, if_neg hinside]

/-- In the window of one group every output channel reads all channels. -/
theorem groupChannel_group {outChannel : Nat} (hout : outChannel < w.outPerGroup) (local_ : Nat) :
    w.group.groupChannel params.ungrouped outChannel local_ = local_ := by
  change outChannel / (w.outPerGroup / 1) * (w.inPerGroup / 1) + local_ = local_
  rw [Nat.div_one, Nat.div_eq_of_lt hout, Nat.zero_mul, Nat.zero_add]

namespace Fits

variable (h : w.Fits input weight bias params)
include h

omit [Scalar α] in
theorem outPerGroup_le : w.outPerGroup ≤ w.outChannels := by
  rw [← h.outPerGroup_mul]
  exact Nat.le_mul_of_pos_left _ h.groups_pos

omit [Scalar α] in
theorem inPerGroup_le : w.inPerGroup ≤ w.inChannels := by
  rw [← h.inChannels]
  exact Nat.le_mul_of_pos_right _ h.groups_pos

omit [Scalar α] in
/-- Operands of one weight group fit its window. -/
theorem group {inputPart weightPart : Tensor α} {biasPart : Option (Tensor α)}
    (hinput : inputPart.shape = [w.batch, w.inPerGroup, w.inHeight, w.inWidth])
    (hweight : weightPart.shape = [w.outPerGroup, w.inPerGroup, w.kernelHeight, w.kernelWidth])
    (hbias : ∀ t, biasPart = some t → t.shape = [w.outPerGroup]) :
    w.group.Fits inputPart weightPart biasPart params.ungrouped := by
  have hpositive := h.positive
  exact {
    input := hinput
    weight := hweight
    positive := by simp only [ConvParams.ungrouped]; omega
    inChannels := Nat.mul_one _
    outChannels := Nat.mod_one _
    outPerGroup := (Nat.div_one _).symm
    bias := hbias
    outHeight := h.outHeight
    outWidth := h.outWidth }

omit [Scalar α] in
/-- One sample fits the window of a single one. -/
theorem single {inputPart : Tensor α}
    (hinput : inputPart.shape = [1, w.inChannels, w.inHeight, w.inWidth]) :
    w.single.Fits inputPart weight bias params :=
  { h with input := hinput }

/-- A weight group alone is convolved, and accumulates what the whole convolution does. -/
theorem exists_conv2dGroup {count : Nat} (hcount : w.outShape.numel? = some count) (g : Nat) :
    ∃ part, w.conv2dGroup params input weight bias g = .ok part ∧
      part.shape = [w.batch, w.outPerGroup, w.outHeight, w.outWidth] ∧
      ∀ sample < w.batch, ∀ local_ < w.outPerGroup, ∀ row < w.outHeight, ∀ column < w.outWidth,
        part.entry [sample, local_, row, column] =
          w.accumulate params input weight bias sample (g * w.outPerGroup + local_) row column := by
  obtain ⟨inputPart, hinput⟩ := Tensor.exists_narrow input 1 (g * w.inPerGroup)
    (by rw [Tensor.dim?, h.input]; rfl) h.inPerGroup_le
  obtain ⟨weightPart, hweight⟩ := Tensor.exists_narrow weight 0 (g * w.outPerGroup)
    (by rw [Tensor.dim?, h.weight]; rfl) h.outPerGroup_le
  obtain ⟨biasPart, hbias, hbiasShape, hbiasEntry⟩ :=
    Tensor.exists_narrow? h.bias (g * w.outPerGroup) h.outPerGroup_le
  have hinputShape : inputPart.shape = [w.batch, w.inPerGroup, w.inHeight, w.inWidth] := by
    rw [Tensor.shape_narrow hinput, h.input]
    rfl
  have hweightShape :
      weightPart.shape = [w.outPerGroup, w.inPerGroup, w.kernelHeight, w.kernelWidth] := by
    rw [Tensor.shape_narrow hweight, h.weight]
    rfl
  have hfits := h.group hinputShape hweightShape hbiasShape
  have hsmaller : List.Forall₂ (· ≤ ·) w.group.outShape w.outShape :=
    .cons le_rfl (.cons h.outPerGroup_le (.cons le_rfl (.cons le_rfl .nil)))
  obtain ⟨_, hpartCount⟩ := Shape.numel?_mono hsmaller le_rfl hcount
  obtain ⟨part, hpart, hshape⟩ := hfits.exists_conv2d hpartCount
  refine ⟨part, ?_, hshape, ?_⟩
  · rw [conv2dGroup, hinput, ok_bind, hweight, ok_bind, hbias, ok_bind, hpart]
  · intro sample hsample local_ hlocal row hrow column hcolumn
    rw [hfits.entry_conv2d hpart hsample hlocal hrow hcolumn]
    refine accumulate_congr (by rfl) (by rfl) (by rfl) (by rfl) (by rfl)
      (hbiasEntry _ local_ hlocal) ?_ ?_ row column
    · intro place hplace tapRow htapRow tapColumn htapColumn
      apply Tensor.entry_narrow hweight
      rw [hweightShape]
      exact Shape.inside_four hlocal hplace htapRow htapColumn
    · intro place hplace y hy x hx
      have hchannel : w.groupChannel params (g * w.outPerGroup + local_) place =
          g * w.inPerGroup + place := by
        rw [h.groupChannel_eq, channelOf, row_add_div hlocal]
      rw [groupChannel_group hlocal, hchannel]
      apply Tensor.entry_narrow hinput
      rw [hinputShape]
      exact Shape.inside_four hsample hplace hy hx

/-- A sample alone is convolved, and accumulates what the whole convolution does. -/
theorem exists_conv2dSample {count sample : Nat} (hcount : w.outShape.numel? = some count)
    (hsample : sample < w.batch) :
    ∃ part, conv2dSample params input weight bias sample = .ok part ∧
      part.shape = [1, w.outChannels, w.outHeight, w.outWidth] ∧
      ∀ outChannel < w.outChannels, ∀ row < w.outHeight, ∀ column < w.outWidth,
        part.entry [0, outChannel, row, column] =
          w.accumulate params input weight bias sample outChannel row column := by
  obtain ⟨inputPart, hinput⟩ := Tensor.exists_narrow input 0 sample
    (by rw [Tensor.dim?, h.input]; rfl) (Nat.one_le_of_lt hsample)
  have hinputShape : inputPart.shape = [1, w.inChannels, w.inHeight, w.inWidth] := by
    rw [Tensor.shape_narrow hinput, h.input]
    rfl
  have hfits := h.single hinputShape
  obtain ⟨_, hpartCount⟩ := w.exists_numel_single hcount hsample
  obtain ⟨part, hpart, hshape⟩ := hfits.exists_conv2d hpartCount
  refine ⟨part, ?_, hshape, ?_⟩
  · rw [conv2dSample, hinput, ok_bind, hpart]
  · intro outChannel hout row hrow column hcolumn
    rw [hfits.entry_conv2d hpart Nat.one_pos hout hrow hcolumn]
    refine accumulate_congr (by rfl) (by rfl) (by rfl) (by rfl) (by rfl) (by rfl)
      (fun _ _ _ _ _ _ => by rfl) ?_ row column
    intro place hplace y hy x hx
    have hchannel : w.groupChannel params outChannel place < w.inChannels := by
      rw [h.groupChannel_eq]
      exact h.channelOf_lt hout hplace
    apply Tensor.entry_narrow hinput
    rw [hinputShape]
    exact Shape.inside_four Nat.one_pos hchannel hy hx

section Whole

variable {out : Tensor α} (hout : conv2d input weight bias params = .ok out)
include hout

theorem shape_conv2d : out.shape = w.outShape := by
  rw [h.conv2d_eq, ofKernel_eq_ok_iff] at hout
  exact hout.1

/-- A convolution is those of its weight groups side by side. -/
theorem conv2dByGroups_eq : w.conv2dByGroups params input weight bias = .ok out := by
  have hshape := h.shape_conv2d hout
  have hcount := out.numel_eq
  rw [hshape] at hcount
  obtain ⟨parts, hparts, hlength, heach⟩ :=
    Tensor.exists_parts fun g (_ : g < params.groups) => h.exists_conv2dGroup hcount g
  rw [conv2dByGroups, hparts, ok_bind]
  apply Tensor.concat_eq_ok w.outPerGroup (Nat.one_lt_succ_succ 2)
  · intro part hmem
    obtain ⟨g, hg⟩ := List.getElem?_of_mem hmem
    rw [Tensor.dim?, (heach g part hg).1]
    rfl
  · rw [hshape, hlength, h.outPerGroup_mul]
    rfl
  · intro g part i index hpart hi haxis hinside
    rw [hshape] at hinside
    obtain ⟨sample, outChannel, row, column, rfl, hsample, hchannel, hrow, hcolumn⟩ :=
      Shape.exists_of_inside_four hinside
    obtain rfl : outChannel = g * w.outPerGroup + i := Option.some.inj haxis
    rw [h.entry_conv2d hout hsample hchannel hrow hcolumn]
    exact ((heach g part hpart).2 sample hsample i hi row hrow column hcolumn).symm

/-- A convolution of a batch is those of its samples one after the other. -/
theorem conv2dBySamples_eq : w.conv2dBySamples params input weight bias = .ok out := by
  have hshape := h.shape_conv2d hout
  have hcount := out.numel_eq
  rw [hshape] at hcount
  obtain ⟨parts, hparts, hlength, heach⟩ :=
    Tensor.exists_parts fun sample hsample => h.exists_conv2dSample hcount hsample
  rw [conv2dBySamples, hparts, ok_bind]
  apply Tensor.concat_eq_ok 1 (Nat.succ_pos 3)
  · intro part hmem
    obtain ⟨sample, hsample⟩ := List.getElem?_of_mem hmem
    rw [Tensor.dim?, (heach sample part hsample).1]
    rfl
  · rw [hshape, hlength, Nat.mul_one]
    rfl
  · intro g part i index hpart hi haxis hinside
    rw [hshape] at hinside
    obtain ⟨sample, outChannel, row, column, rfl, hsample, hchannel, hrow, hcolumn⟩ :=
      Shape.exists_of_inside_four hinside
    obtain rfl : i = 0 := by omega
    obtain rfl : sample = g := by
      have hsplit : sample = g * 1 + 0 := Option.some.inj haxis
      omega
    rw [h.entry_conv2d hout hsample hchannel hrow hcolumn]
    exact ((heach sample part hpart).2 outChannel hchannel row hrow column hcolumn).symm

end Whole

end Fits

end Window

/-- Every element of a convolution is its bias with the products of its taps added from left to
right, by channel of its weight group, kernel row and kernel column, without those that fall into the
padding. So the whole is its weight groups convolved alone and put side by side, and its samples
convolved alone and put one after the other, whatever the arithmetic. -/
theorem conv2d_accumulates {input weight : Tensor α} {bias : Option (Tensor α)}
    {params : ConvParams} {out : Tensor α} (hout : conv2d input weight bias params = .ok out) :
    ∃ w : Window, w.Fits input weight bias params ∧ out.shape = w.outShape ∧
      (∀ sample < w.batch, ∀ outChannel < w.outChannels, ∀ row < w.outHeight,
        ∀ column < w.outWidth, out.entry [sample, outChannel, row, column] =
          w.accumulate params input weight bias sample outChannel row column) ∧
      w.conv2dByGroups params input weight bias = .ok out ∧
      w.conv2dBySamples params input weight bias = .ok out := by
  have hcall := hout
  rw [conv2d, bind_eq_ok] at hcall
  obtain ⟨w, hresolve, -⟩ := hcall
  have hfits := Window.resolve_eq_ok_iff.mp hresolve
  refine ⟨w, hfits, hfits.shape_conv2d hout, ?_, hfits.conv2dByGroups_eq hout,
    hfits.conv2dBySamples_eq hout⟩
  intro sample hsample outChannel hchannel row hrow column hcolumn
  exact hfits.entry_conv2d hout hsample hchannel hrow hcolumn

/-- Two samples of two channels in doubles, a weight group for each channel and a column of padding
on either side. -/
theorem conv2d_accumulates_pairs :
    let input : Tensor Float := ⟨[2, 2, 1, 2], #[1, 2, 3, 4, 5, 6, 7, 8], rfl⟩
    let weight : Tensor Float := ⟨[2, 1, 1, 2], #[1, 2, 3, 4], rfl⟩
    let bias : Tensor Float := ⟨[2], #[0.5, -1], rfl⟩
    let params : ConvParams := { horizontal := { padding := 1 }, groups := 2 }
    let out : Tensor Float :=
      ⟨[2, 2, 1, 3], #[2.5, 5.5, 2.5, 11, 24, 11, 10.5, 17.5, 6.5, 27, 52, 23], rfl⟩
    conv2d input weight (some bias) params = .ok out ∧
      ∃ w : Window, w.Fits input weight (some bias) params ∧
        (∀ sample < 2, ∀ outChannel < 2, ∀ column < 3,
          out.entry [sample, outChannel, 0, column] =
            w.accumulate params input weight (some bias) sample outChannel 0 column) ∧
        w.conv2dByGroups params input weight (some bias) = .ok out ∧
        w.conv2dBySamples params input weight (some bias) = .ok out := by
  intro input weight bias params out
  have hout : conv2d input weight (some bias) params = .ok out := by decide +kernel
  obtain ⟨w, hfits, hshape, hentries, hgroups, hsamples⟩ := conv2d_accumulates hout
  obtain ⟨hbatch, hchannels, hheight, hwidth⟩ :
      2 = w.batch ∧ 2 = w.outChannels ∧ 1 = w.outHeight ∧ 3 = w.outWidth := by
    simpa [out, Window.outShape] using hshape
  rw [← hbatch, ← hchannels, ← hheight, ← hwidth] at hentries
  refine ⟨hout, w, hfits, ?_, hgroups, hsamples⟩
  intro sample hsample outChannel hchannel column hcolumn
  exact hentries sample hsample outChannel hchannel 0 Nat.one_pos column hcolumn

end TensorParity
