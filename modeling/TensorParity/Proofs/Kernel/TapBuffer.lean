import TensorParity.Proofs.Kernel.Buffers
import TensorParity.Proofs.Kernel.Shapes

/-!
A deformable convolution that keeps the taps of all its samples in one buffer. Those of a sample are
written by offset group, kernel tap, output position and channel of the group, over whatever the
sample before has left. Offset groups divide the channels, so every place is written anew before it
is read, and what a buffer held makes no difference.
-/
namespace TensorParity

section Writing

variable {α : Type}

/-- A buffer with one element replaced, if it has that element. -/
def replace? (buffer : Array α) (i : Nat) (value : α) : Option (Array α) :=
  if h : i < buffer.size then some (buffer.set i value h) else none

/-- Whether a step brings a buffer to `target` in a region and leaves it as it is elsewhere. -/
def Writes (target : Array α) (region : Nat → Prop) (step : Array α → Option (Array α)) : Prop :=
  ∀ buffer, buffer.size = target.size → ∃ next, step buffer = some next ∧
    next.size = target.size ∧
    ∀ i, (region i → next[i]? = target[i]?) ∧ (¬region i → next[i]? = buffer[i]?)

/-- Whether some step of a counted loop holds a place in its region. -/
def During (start count : Nat) (region : Nat → Nat → Prop) (i : Nat) : Prop :=
  ∃ k, start ≤ k ∧ k < start + count ∧ region k i

variable {target : Array α}

theorem writes_replace? {place : Nat} {value : α} (h : target[place]? = some value) :
    Writes target (· = place) (replace? · place value) := by
  intro buffer hsize
  obtain ⟨hplace, -⟩ := Array.getElem?_eq_some_iff.mp h
  have hinside : place < buffer.size := hsize ▸ hplace
  refine ⟨_, dif_pos hinside, by rw [Array.size_set, hsize], fun i => ⟨?_, fun hi => ?_⟩⟩
  · rintro rfl
    rw [Array.getElem?_set_self, h]
  · exact Array.getElem?_set_ne hinside (Ne.symm hi)

/-- A loop writes what its steps write. -/
theorem writes_foldRange? {region : Nat → Nat → Prop} {f : Nat → Array α → Option (Array α)}
    {start count : Nat}
    (hstep : ∀ k, start ≤ k → k < start + count → Writes target (region k) (f k)) :
    Writes target (During start count region) (foldRange? f start count) := by
  induction count generalizing start with
  | zero =>
    intro buffer hsize
    refine ⟨buffer, rfl, hsize, fun i => ⟨?_, fun _ => rfl⟩⟩
    rintro ⟨k, hfirst, hlast, -⟩
    omega
  | succ count ih =>
    intro buffer hsize
    obtain ⟨middle, hmiddle, hmiddleSize, hfirst⟩ := hstep start le_rfl (by omega) buffer hsize
    have hothers : ∀ k, start + 1 ≤ k → k < start + 1 + count → Writes target (region k) (f k) :=
      fun k hk hlast => hstep k (by omega) (by omega)
    obtain ⟨next, hnext, hnextSize, hrest⟩ := ih hothers middle hmiddleSize
    refine ⟨next, by rwa [foldRange?, hmiddle], hnextSize, fun i => ?_⟩
    by_cases hlater : During (start + 1) count region i
    · refine ⟨fun _ => (hrest i).1 hlater, fun hnone => absurd ?_ hnone⟩
      obtain ⟨k, hk, hlast, hregion⟩ := hlater
      exact ⟨k, by omega, by omega, hregion⟩
    rw [(hrest i).2 hlater]
    constructor
    · rintro ⟨k, hk, hlast, hregion⟩
      rcases Nat.eq_or_lt_of_le hk with rfl | hk
      · exact (hfirst i).1 hregion
      · exact absurd ⟨k, hk, by omega, hregion⟩ hlater
    · intro hnone
      exact (hfirst i).2 fun hregion => hnone ⟨start, le_rfl, by omega, hregion⟩

/-- A step that writes everywhere forgets what was there. -/
theorem Writes.eq_target {region : Nat → Prop} {step : Array α → Option (Array α)}
    (h : Writes target region step) (hall : ∀ i < target.size, region i) {buffer : Array α}
    (hsize : buffer.size = target.size) : step buffer = some target := by
  obtain ⟨next, hnext, hnextSize, hplaces⟩ := h buffer hsize
  rw [hnext, Option.some.injEq]
  apply Array.ext_getElem?
  intro i
  by_cases hi : i < target.size
  · exact (hplaces i).1 (hall i hi)
  · rw [Array.getElem?_eq_none (by omega), Array.getElem?_eq_none (by omega)]

/-- Loops over the same steps are the same. -/
theorem foldRange?_congr {β : Type} {f g : Nat → β → Option β} {start count : Nat}
    (h : ∀ i, start ≤ i → i < start + count → ∀ b, f i b = g i b) (b : β) :
    foldRange? f start count b = foldRange? g start count b := by
  induction count generalizing start b with
  | zero => rfl
  | succ count ih =>
    rw [foldRange?, foldRange?, h start le_rfl (by omega) b]
    cases g start b with
    | none => rfl
    | some next => exact ih (fun i hi hlast => h i (by omega) (by omega)) next

end Writing

variable {α : Type} [Scalar α]

namespace Window

section Loops

variable (w : Window) (params : ConvParams) (input weight : Array α) (bias : Option (Tensor α))
  (d : Deformation α)

/-- Where the buffer holds a tap. -/
def place (channel tap position : Nat) : Nat := (channel * w.taps + tap) * w.spatial + position

/-- Elements of the buffer. -/
def places : Nat := w.inChannels * w.taps * w.spatial

/-- Samples one kernel tap at one output position in every channel of an offset group. -/
def writeTap (sample group tapRow tapColumn row column : Nat) (buffer : Array α) :
    Option (Array α) :=
  let tap := tapRow * w.kernelWidth + tapColumn
  let position := row * w.outWidth + column
  let plane := (sample * (2 * d.groups * w.taps) + group * 2 * w.taps + 2 * tap) * w.spatial
  let modulation? :=
    match d.mask with
    | some mask =>
      mask[(sample * d.groups * w.taps + group * w.taps + tap) * w.spatial + position]?
    | none => some (Scalar.ofNat 1)
  match modulation?, d.offset[plane + position]?, d.offset[plane + w.spatial + position]? with
  | some modulation, some dy, some dx =>
    let y : α := Scalar.ofNat (row * params.vertical.stride)
      - Scalar.ofNat params.vertical.padding + Scalar.ofNat (tapRow * params.vertical.dilation) + dy
    let x : α := Scalar.ofNat (column * params.horizontal.stride)
      - Scalar.ofNat params.horizontal.padding
      + Scalar.ofNat (tapColumn * params.horizontal.dilation) + dx
    let perGroup := w.inChannels / d.groups
    foldRange? (fun channel buffer =>
      match bilinear (w.pixel? input sample channel) w.inHeight w.inWidth y x with
      | some value => replace? buffer (w.place channel tap position) (modulation * value)
      | none => none) (group * perGroup) perGroup buffer
  | _, _, _ => none

/-- Samples all taps of a sample into the buffer. -/
def fillBuffer (sample : Nat) : Array α → Option (Array α) :=
  foldRange? (fun group =>
    foldRange? (fun tapRow =>
      foldRange? (fun tapColumn =>
        foldRange? (fun row =>
          foldRange? (fun column =>
            w.writeTap params input d sample group tapRow tapColumn row column)
            0 w.outWidth) 0 w.outHeight) 0 w.kernelWidth) 0 w.kernelHeight) 0 d.groups

/-- One output element from the buffer: the bias, then the taps by channel and tap. -/
def addBuffer (buffer : Array α) (outChannel position : Nat) : Option α :=
  match entry? bias (Scalar.ofNat 0) outChannel with
  | none => none
  | some start =>
    foldRange? (fun local_ acc =>
      foldRange? (fun tap acc =>
        match weight[(outChannel * w.inPerGroup + local_) * w.taps + tap]?,
          buffer[w.place (w.channelOf outChannel local_) tap position]? with
        | some a, some b => some (acc + a * b)
        | _, _ => none) 0 w.taps acc) 0 w.inPerGroup start

/-- The output elements of one sample, appended to those of the samples before it. -/
def appendSample (buffer acc : Array α) : Option (Array α) :=
  foldRange? (fun flat (acc : Array α) =>
    match w.addBuffer weight bias buffer (flat / w.spatial) (flat % w.spatial) with
    | some value => some (acc.push value)
    | none => none) 0 (w.outChannels * w.spatial) acc

/-- All output elements, with one buffer handed on from sample to sample. -/
def elementsThrough (buffer : Array α) : Option (Array α) :=
  (foldRange? (fun sample (state : Array α × Array α) =>
    match w.fillBuffer params input d sample state.2 with
    | none => none
    | some buffer => (w.appendSample weight bias buffer state.1).map (·, buffer)) 0 w.batch
    (#[], buffer)).map (·.1)

/-- The places that the loops of a filling come to. -/
def written (groups : Nat) : Nat → Prop :=
  During 0 groups fun group =>
    During 0 w.kernelHeight fun tapRow =>
      During 0 w.kernelWidth fun tapColumn =>
        During 0 w.outHeight fun row =>
          During 0 w.outWidth fun column =>
            During (group * (w.inChannels / groups)) (w.inChannels / groups) fun channel i =>
              i = w.place channel (tapRow * w.kernelWidth + tapColumn) (row * w.outWidth + column)

/-- The buffer that holds these taps. -/
def bufferOf (tapAt : Nat → Nat → Nat → α) : Array α :=
  (Array.range w.places).map fun i =>
    tapAt (i / w.spatial / w.taps) (i / w.spatial % w.taps) (i % w.spatial)

end Loops

variable {w : Window} {params : ConvParams} {input weight offset : Tensor α}
  {bias mask : Option (Tensor α)} {groups : Nat}

omit [Scalar α] in
theorem place_lt {channel tap position : Nat} (hchannel : channel < w.inChannels)
    (htap : tap < w.taps) (hposition : position < w.spatial) :
    w.place channel tap position < w.places :=
  row_add_lt (row_add_lt hchannel htap) hposition

omit [Scalar α] in
theorem getElem?_bufferOf (tapAt : Nat → Nat → Nat → α) {channel tap position : Nat}
    (hchannel : channel < w.inChannels) (htap : tap < w.taps) (hposition : position < w.spatial) :
    (w.bufferOf tapAt)[w.place channel tap position]? = some (tapAt channel tap position) := by
  rw [bufferOf, Array.getElem?_map, Array.getElem?_range,
    if_pos (place_lt hchannel htap hposition), Option.map_some, place, row_add_div hposition,
    row_add_mod hposition, row_add_div htap, row_add_mod htap]

omit [Scalar α] in
theorem size_bufferOf (tapAt : Nat → Nat → Nat → α) : (w.bufferOf tapAt).size = w.places := by
  rw [bufferOf, Array.size_map, Array.size_range]

omit [Scalar α] in
/-- Channels of an offset group are those between its first and the first of the next. -/
theorem Deforms.channel_bounds (hd : w.Deforms offset mask groups) {group channel : Nat}
    (hgroup : group < groups) (hfirst : group * (w.inChannels / groups) ≤ channel)
    (hlast : channel < group * (w.inChannels / groups) + w.inChannels / groups) :
    channel < w.inChannels ∧ channel / (w.inChannels / groups) = group := by
  obtain ⟨place, rfl⟩ := Nat.exists_eq_add_of_le hfirst
  have hplace : place < w.inChannels / groups := by omega
  have hbelow := row_add_lt hgroup hplace
  rw [Nat.mul_div_cancel' hd.divides] at hbelow
  exact ⟨hbelow, row_add_div hplace⟩

omit [Scalar α] in
/-- Every element of a plane lies in one of its rows. -/
theorem exists_row {i rows columns : Nat} (hi : i < rows * columns) :
    ∃ row < rows, ∃ column < columns, i = row * columns + column := by
  have hcolumns : 0 < columns := Nat.pos_of_mul_pos_left (Nat.zero_lt_of_lt hi)
  refine ⟨i / columns, Nat.div_lt_of_lt_mul (by rwa [Nat.mul_comm]), i % columns,
    Nat.mod_lt _ hcolumns, ?_⟩
  rw [Nat.mul_comm]
  exact (Nat.div_add_mod _ _).symm

omit [Scalar α] in
/-- Offset groups, kernel taps and output positions between them come to every place. -/
theorem Deforms.written_of_lt (hd : w.Deforms offset mask groups) {i : Nat} (hi : i < w.places) :
    w.written groups i := by
  obtain ⟨plane, hplane, position, hposition, rfl⟩ := exists_row hi
  obtain ⟨channel, hchannel, tap, htap, rfl⟩ := exists_row hplane
  obtain ⟨tapRow, htapRow, tapColumn, htapColumn, rfl⟩ := exists_row htap
  obtain ⟨row, hrow, column, hcolumn, rfl⟩ := exists_row hposition
  rw [← Nat.mul_div_cancel' hd.divides] at hchannel
  obtain ⟨group, hgroup, member, hmember, rfl⟩ := exists_row hchannel
  exact ⟨group, Nat.zero_le _, by omega, tapRow, Nat.zero_le _, by omega, tapColumn,
    Nat.zero_le _, by omega, row, Nat.zero_le _, by omega, column, Nat.zero_le _, by omega,
    group * (w.inChannels / groups) + member, by omega, by omega, rfl⟩

section Fill

variable {sample : Nat} (hd : w.Deforms offset mask groups) (hsample : sample < w.batch)
include hd hsample

/-- A kernel tap at a position is written channel by channel. -/
theorem writeTap_eq {group tapRow tapColumn row column : Nat} (hgroup : group < groups)
    (htapRow : tapRow < w.kernelHeight) (htapColumn : tapColumn < w.kernelWidth)
    (hrow : row < w.outHeight) (hcolumn : column < w.outWidth) (buffer : Array α) :
    w.writeTap params input.data ⟨offset.data, mask.map (·.data), groups⟩ sample group tapRow
        tapColumn row column buffer =
      foldRange? (fun channel buffer =>
        match deformedTap w params input.data ⟨offset.data, mask.map (·.data), groups⟩ sample
          channel (tapRow * w.kernelWidth + tapColumn) (row * w.outWidth + column) with
        | some value => replace? buffer (w.place channel (tapRow * w.kernelWidth + tapColumn)
          (row * w.outWidth + column)) value
        | none => none) (group * (w.inChannels / groups)) (w.inChannels / groups) buffer := by
  have htap := row_add_lt htapRow htapColumn
  have hposition := row_add_lt hrow hcolumn
  have htapRowEq := row_add_div (i := tapRow) htapColumn
  have htapColumnEq := row_add_mod (i := tapRow) htapColumn
  have hrowEq := row_add_div (i := row) hcolumn
  have hcolumnEq := row_add_mod (i := row) hcolumn
  simp only [writeTap]
  generalize tapRow * w.kernelWidth + tapColumn = tap at *
  generalize row * w.outWidth + column = position at *
  obtain ⟨slot, hslotEq⟩ : ∃ slot, slot = (sample * groups + group) * w.taps + tap := ⟨_, rfl⟩
  have hslot : slot < w.batch * groups * w.taps :=
    hslotEq ▸ row_add_lt (row_add_lt hsample hgroup) htap
  have hmaskPlace : sample * groups * w.taps + group * w.taps + tap = slot := by
    rw [hslotEq]
    ring
  have hplane : sample * (2 * groups * w.taps) + group * 2 * w.taps + 2 * tap = 2 * slot := by
    rw [hslotEq]
    ring
  have hmask : (match mask.map (·.data) with
      | some mask => mask[slot * w.spatial + position]?
      | none => some (Scalar.ofNat 1)) =
        some (w.scale ⟨offset.data, mask.map (·.data), groups⟩ slot position) := by
    cases hpresent : mask with
    | none => rfl
    | some t => exact getElem?_eq_read (hd.mask_lt hpresent hslot hposition)
  obtain ⟨hvertical, hhorizontal⟩ := hd.offset_lt hslot hposition
  have hdy := getElem?_eq_read hvertical
  have hdx := getElem?_eq_read hhorizontal
  rw [Nat.succ_mul] at hdx
  simp only [hmaskPlace, hplane, hmask, hdy, hdx]
  apply foldRange?_congr
  intro channel hfirst hlast buffer
  obtain ⟨hchannel, hdivided⟩ := hd.channel_bounds hgroup hfirst hlast
  have hown : w.slot groups sample channel tap = slot := by
    rw [Window.slot, hdivided, hslotEq]
  rw [deformedTap_eq_map hd hsample hchannel htap hposition, movedRow, movedColumn, hown,
    htapRowEq, htapColumnEq, hrowEq, hcolumnEq, Nat.succ_mul (2 * slot)]
  cases bilinear (w.pixel? input.data sample channel) w.inHeight w.inWidth _ _ <;> rfl

/-- Taps that all have a value fill the buffer, whatever it held. -/
theorem fillBuffer_eq {tapAt : Nat → Nat → Nat → α}
    (htaps : ∀ channel < w.inChannels, ∀ tap < w.taps, ∀ position < w.spatial,
      deformedTap w params input.data ⟨offset.data, mask.map (·.data), groups⟩ sample channel tap
        position = some (tapAt channel tap position)) {buffer : Array α}
    (hsize : buffer.size = w.places) :
    w.fillBuffer params input.data ⟨offset.data, mask.map (·.data), groups⟩ sample buffer =
      some (w.bufferOf tapAt) := by
  have hwrites : Writes (w.bufferOf tapAt) (w.written groups)
      (w.fillBuffer params input.data ⟨offset.data, mask.map (·.data), groups⟩ sample) := by
    refine writes_foldRange? fun group _ hgroup => ?_
    refine writes_foldRange? fun tapRow _ htapRow => ?_
    refine writes_foldRange? fun tapColumn _ htapColumn => ?_
    refine writes_foldRange? fun row _ hrow => ?_
    refine writes_foldRange? fun column _ hcolumn => ?_
    rw [Nat.zero_add] at hgroup htapRow htapColumn hrow hcolumn
    have htap := row_add_lt htapRow htapColumn
    have hposition := row_add_lt hrow hcolumn
    rw [funext (writeTap_eq hd hsample hgroup htapRow htapColumn hrow hcolumn)]
    refine writes_foldRange? fun channel hfirst hlast => ?_
    obtain ⟨hchannel, -⟩ := hd.channel_bounds hgroup hfirst hlast
    rw [htaps channel hchannel _ htap _ hposition]
    exact writes_replace? (getElem?_bufferOf tapAt hchannel htap hposition)
  rw [← size_bufferOf tapAt] at hsize
  apply hwrites.eq_target _ hsize
  intro i hi
  rw [size_bufferOf] at hi
  exact hd.written_of_lt hi

/-- A tap without a value stops the filling. -/
theorem fillBuffer_eq_none {channel tap position : Nat} (hchannel : channel < w.inChannels)
    (htap : tap < w.taps) (hposition : position < w.spatial)
    (hnone : deformedTap w params input.data ⟨offset.data, mask.map (·.data), groups⟩ sample channel
      tap position = none) (buffer : Array α) :
    w.fillBuffer params input.data ⟨offset.data, mask.map (·.data), groups⟩ sample buffer =
      none := by
  obtain ⟨tapRow, htapRow, tapColumn, htapColumn, rfl⟩ := exists_row htap
  obtain ⟨row, hrow, column, hcolumn, rfl⟩ := exists_row hposition
  have hall : channel < groups * (w.inChannels / groups) := by
    rwa [Nat.mul_div_cancel' hd.divides]
  obtain ⟨group, hgroup, member, hmember, rfl⟩ := exists_row hall
  refine foldRange?_eq_none (i := group) (fun buffer => ?_) (Nat.zero_le _)
    (by rwa [Nat.zero_add]) buffer
  refine foldRange?_eq_none (i := tapRow) (fun buffer => ?_) (Nat.zero_le _) (by omega) buffer
  refine foldRange?_eq_none (i := tapColumn) (fun buffer => ?_) (Nat.zero_le _) (by omega) buffer
  refine foldRange?_eq_none (i := row) (fun buffer => ?_) (Nat.zero_le _) (by omega) buffer
  refine foldRange?_eq_none (i := column) (fun buffer => ?_) (Nat.zero_le _) (by omega) buffer
  rw [writeTap_eq hd hsample hgroup htapRow htapColumn hrow hcolumn]
  refine foldRange?_eq_none (i := group * (w.inChannels / groups) + member) (fun buffer => ?_)
    (by omega) (by omega) buffer
  rw [hnone]

end Fill

section Forgets

variable {sample : Nat} (hd : w.Deforms offset mask groups) (hsample : sample < w.batch)
  {buffer : Array α} (hsize : buffer.size = w.places)
include hd hsample hsize

/-- What a filling leaves does not depend on what was there. -/
theorem fillBuffer_forgets {buffer' : Array α} (hsize' : buffer'.size = w.places) :
    w.fillBuffer params input.data ⟨offset.data, mask.map (·.data), groups⟩ sample buffer =
      w.fillBuffer params input.data ⟨offset.data, mask.map (·.data), groups⟩ sample buffer' := by
  by_cases hsampled : w.Sampled params input.data ⟨offset.data, mask.map (·.data), groups⟩ sample
  · rw [fillBuffer_eq hd hsample hsampled.eq_tapValue hsize,
      fillBuffer_eq hd hsample hsampled.eq_tapValue hsize']
  · obtain ⟨channel, hchannel, tap, htap, position, hposition, hnone⟩ := not_sampled_iff.mp hsampled
    rw [fillBuffer_eq_none hd hsample hchannel htap hposition hnone,
      fillBuffer_eq_none hd hsample hchannel htap hposition hnone]

/-- A filled buffer holds the taps of the sample it was filled for. -/
theorem getElem?_fillBuffer {filled : Array α}
    (hfilled : w.fillBuffer params input.data ⟨offset.data, mask.map (·.data), groups⟩ sample
      buffer = some filled) {channel tap position : Nat} (hchannel : channel < w.inChannels)
    (htap : tap < w.taps) (hposition : position < w.spatial) :
    filled[w.place channel tap position]? =
      deformedTap w params input.data ⟨offset.data, mask.map (·.data), groups⟩ sample channel tap
        position := by
  by_cases hsampled : w.Sampled params input.data ⟨offset.data, mask.map (·.data), groups⟩ sample
  · rw [fillBuffer_eq hd hsample hsampled.eq_tapValue hsize] at hfilled
    obtain rfl := Option.some.inj hfilled
    rw [getElem?_bufferOf _ hchannel htap hposition,
      hsampled.eq_tapValue channel hchannel tap htap position hposition]
  · obtain ⟨channel, hchannel, tap, htap, position, hposition, hnone⟩ := not_sampled_iff.mp hsampled
    rw [fillBuffer_eq_none hd hsample hchannel htap hposition hnone] at hfilled
    cases hfilled

end Forgets

section Sums

variable (h : w.Fits input weight bias params)
include h

/-- Sums over the buffer are sums over the taps it holds. -/
theorem Fits.addBuffer_eq (tapAt : Nat → Nat → Nat → α) {outChannel position : Nat}
    (hout : outChannel < w.outChannels) (hposition : position < w.spatial) :
    w.addBuffer weight.data bias (w.bufferOf tapAt) outChannel position =
      deformConv2dAt w (w.tapTable tapAt) weight.data bias outChannel position := by
  rw [addBuffer, deformConv2dAt, h.entry?_bias hout]
  refine foldRange?_congr (fun local_ _ hlocal acc => ?_) _
  refine foldRange?_congr (fun tap _ htap acc => ?_) _
  rw [Nat.zero_add] at hlocal htap
  have hchannel := h.channelOf_lt hout hlocal
  have hbuffer := getElem?_bufferOf tapAt hchannel htap hposition
  have htable := getElem?_tapTable tapAt hposition hchannel htap
  rw [channelOf] at hbuffer htable
  simp only [channelOf]
  cases weight.data[(outChannel * w.inPerGroup + local_) * w.taps + tap]? with
  | none => rfl
  | some a => simp only [hbuffer, htable]

theorem Fits.appendSample_eq (tapAt : Nat → Nat → Nat → α) (acc : Array α) :
    w.appendSample weight.data bias (w.bufferOf tapAt) acc =
      foldRange? (fun flat (acc : Array α) =>
        match deformConv2dAt w (w.tapTable tapAt) weight.data bias (flat / w.spatial)
          (flat % w.spatial) with
        | some value => some (acc.push value)
        | none => none) 0 (w.outChannels * w.spatial) acc := by
  refine foldRange?_congr (fun flat _ hflat acc => ?_) acc
  rw [Nat.zero_add] at hflat
  have hspatial : 0 < w.spatial := Nat.pos_of_mul_pos_left (Nat.zero_lt_of_lt hflat)
  have hout : flat / w.spatial < w.outChannels := Nat.div_lt_of_lt_mul (by rwa [Nat.mul_comm])
  rw [h.addBuffer_eq tapAt hout (Nat.mod_lt _ hspatial)]

/-- A buffer handed on from sample to sample yields the elements that separate tables of taps do,
whatever it held at first. -/
theorem Fits.elementsThrough_eq (hd : w.Deforms offset mask groups) {buffer : Array α}
    (hsize : buffer.size = w.places) :
    w.elementsThrough params input.data weight.data bias ⟨offset.data, mask.map (·.data), groups⟩
        buffer =
      deformConv2dElements w params input.data weight.data bias
        ⟨offset.data, mask.map (·.data), groups⟩ := by
  have hrel : Option.Rel (fun (acc : Array α) (state : Array α × Array α) =>
      state.1 = acc ∧ state.2.size = w.places)
      (deformConv2dElements w params input.data weight.data bias
        ⟨offset.data, mask.map (·.data), groups⟩)
      (foldRange? (fun sample (state : Array α × Array α) =>
        match w.fillBuffer params input.data ⟨offset.data, mask.map (·.data), groups⟩ sample
          state.2 with
        | none => none
        | some buffer => (w.appendSample weight.data bias buffer state.1).map (·, buffer)) 0 w.batch
        (#[], buffer)) := by
    refine foldRange?_rel (fun sample _ hsample acc state hstate => ?_) ⟨rfl, hsize⟩
    obtain ⟨rfl, hstateSize⟩ := hstate
    rw [Nat.zero_add] at hsample
    by_cases hsampled : w.Sampled params input.data ⟨offset.data, mask.map (·.data), groups⟩ sample
    · rw [deformedTaps_eq hsampled.eq_tapValue,
        fillBuffer_eq hd hsample hsampled.eq_tapValue hstateSize]
      simp only [h.appendSample_eq]
      generalize foldRange? _ 0 (w.outChannels * w.spatial) state.1 = elements
      cases elements with
      | none => exact .none
      | some acc => exact .some ⟨rfl, size_bufferOf _⟩
    · obtain ⟨channel, hchannel, tap, htap, position, hposition, hnone⟩ :=
        not_sampled_iff.mp hsampled
      rw [deformedTaps_eq_none hchannel htap hposition hnone,
        fillBuffer_eq_none hd hsample hchannel htap hposition hnone]
      exact .none
  rw [elementsThrough]
  generalize deformConv2dElements w params input.data weight.data bias _ = elements at hrel ⊢
  generalize foldRange? _ 0 w.batch (#[], buffer) = states at hrel ⊢
  cases hrel with
  | none => rfl
  | some hsame => rw [Option.map_some, hsame.1]

end Sums

end Window

end TensorParity
