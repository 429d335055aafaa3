import TensorParity.Proofs.Except
import TensorParity.Proofs.Kernel.Elements

/-!
Entries of tensors at coordinates. Operands that fit a window are read at coordinates inside their
shapes, and a tensor is given by its shape and the entries inside it, so a kernel is described once
every entry of its result is.
-/
namespace TensorParity

instance (s : Shape) (index : List Nat) : Decidable (s.Inside index) :=
  inferInstanceAs (Decidable (List.Forall₂ (· < ·) index s))

theorem Shape.inside_four {a b c d i j k l : Nat} (hi : i < a) (hj : j < b) (hk : k < c)
    (hl : l < d) : Shape.Inside [a, b, c, d] [i, j, k, l] :=
  .cons hi (.cons hj (.cons hk (.cons hl .nil)))

theorem Shape.exists_of_inside_four {a b c d : Nat} {index : List Nat}
    (h : Shape.Inside [a, b, c, d] index) :
    ∃ i j k l, index = [i, j, k, l] ∧ i < a ∧ j < b ∧ k < c ∧ l < d := by
  match index, h with
  | [i, j, k, l], .cons hi (.cons hj (.cons hk (.cons hl .nil))) =>
    exact ⟨i, j, k, l, rfl, hi, hj, hk, hl⟩

/-- Two outer axes count planes, two inner ones the elements of a plane. -/
theorem Shape.position_four (a b c d i j k l : Nat) :
    Shape.position [a, b, c, d] [i, j, k, l] = (i * b + j) * (c * d) + (k * d + l) := by
  simp only [position, volume, List.foldr_cons, List.foldr_nil]
  ring

variable {α : Type} [Scalar α]

namespace Tensor

/-- The entry at coordinates; zero outside the shape. -/
def entry (t : Tensor α) (index : List Nat) : α :=
  if t.shape.Inside index then read t.data (t.shape.position index) else Scalar.ofNat 0

/-- The entry of an operand that may be absent, with what an absent one stands for. -/
def entryOr (operand : Option (Tensor α)) (absent : α) (index : List Nat) : α :=
  operand.elim absent fun t => t.entry index

variable {t u : Tensor α}

theorem entry_of_inside {index : List Nat} (h : t.shape.Inside index) :
    t.entry index = read t.data (t.shape.position index) :=
  if_pos h

theorem entry_four {a b c d i j k l : Nat} (hshape : t.shape = [a, b, c, d]) (hi : i < a)
    (hj : j < b) (hk : k < c) (hl : l < d) :
    t.entry [i, j, k, l] = read t.data ((i * b + j) * (c * d) + (k * d + l)) := by
  have hinside : t.shape.Inside [i, j, k, l] := by
    rw [hshape]
    exact Shape.inside_four hi hj hk hl
  rw [entry_of_inside hinside, hshape, Shape.position_four]

theorem entry_one {a i : Nat} (hshape : t.shape = [a]) (hi : i < a) :
    t.entry [i] = read t.data i := by
  have hinside : t.shape.Inside [i] := by
    rw [hshape]
    exact .cons hi .nil
  rw [entry_of_inside hinside, hshape]
  simp [Shape.position, Shape.volume]

/-- The elements of a vector are its entries. -/
theorem getElem?_eq_entry {n i : Nat} (hshape : t.shape = [n]) (hi : i < n) :
    t.data[i]? = some (t.entry [i]) := by
  have hsize : t.data.size = n := by
    rw [size_eq_volume, hshape]
    exact Nat.mul_one n
  rw [entry_one hshape hi]
  exact getElem?_eq_read (hsize ▸ hi)

theorem entry?_eq_entryOr {operand : Option (Tensor α)} {n i : Nat}
    (hshape : ∀ t, operand = some t → t.shape = [n]) (absent : α) (hi : i < n) :
    entry? operand absent i = some (entryOr operand absent [i]) := by
  cases hoperand : operand with
  | none => rfl
  | some t => exact getElem?_eq_entry (hshape t hoperand) hi

/-- The coordinates of a position lie inside, and its element is the entry there. -/
theorem entry_coordinates {flat : Nat} (hflat : flat < t.data.size) :
    t.shape.Inside (t.shape.coordinates flat) ∧
      t.entry (t.shape.coordinates flat) = read t.data flat := by
  obtain ⟨hvolume, hword⟩ := Shape.volume_of_numel? t.numel_eq
  obtain ⟨hinside, hposition⟩ :=
    (Shape.eq_coordinates_iff (hvolume ▸ hword) (hvolume.symm ▸ hflat)).mp rfl
  refine ⟨hinside, ?_⟩
  rw [entry_of_inside hinside, hposition]

/-- A tensor is its shape and the entries inside it. -/
theorem eq_of_entries (hshape : t.shape = u.shape)
    (h : ∀ index, t.shape.Inside index → t.entry index = u.entry index) : t = u := by
  have hsize : t.data.size = u.data.size := by
    rw [Tensor.size_eq_volume, Tensor.size_eq_volume, hshape]
  have hdata : t.data = u.data := by
    apply Array.ext hsize
    intro flat ht hu
    obtain ⟨hinside, hentry⟩ := entry_coordinates ht
    obtain ⟨-, hentry'⟩ := entry_coordinates hu
    rw [h _ hinside, hshape, hentry'] at hentry
    simpa only [read, Array.getElem?_eq_getElem ht, Array.getElem?_eq_getElem hu,
      Option.getD_some] using hentry.symm
  obtain ⟨shape, data, _⟩ := t
  obtain ⟨shape', data', _⟩ := u
  subst hshape hdata
  rfl

end Tensor

omit [Scalar α] in
/-- A kernel yields the elements it has computed, in the shape it has announced. -/
theorem ofKernel_eq_ok_iff {kernel : OperatorKind} {shape : Shape} {elements : Option (Array α)}
    {out : Tensor α} : Tensor.ofKernel kernel shape elements = .ok out ↔
      out.shape = shape ∧ elements = some out.data := by
  constructor
  · intro h
    cases elements with
    | none => cases h
    | some data =>
      obtain ⟨hshape, hdata⟩ := Tensor.ofArray_eq_ok (mapError_eq_ok.mp h)
      exact ⟨hshape, congrArg some hdata.symm⟩
  · rintro ⟨rfl, rfl⟩
    exact mapError_eq_ok.mpr (Tensor.ofArray_data out)

namespace Window

variable {w : Window}

namespace Fits

variable {params : ConvParams} {input weight : Tensor α} {bias : Option (Tensor α)}
variable (h : w.Fits input weight bias params)
include h

theorem entry_input {sample channel y x : Nat} (hsample : sample < w.batch)
    (hchannel : channel < w.inChannels) (hy : y < w.inHeight) (hx : x < w.inWidth) :
    input.entry [sample, channel, y, x] =
      read input.data (w.plane sample channel + (y * w.inWidth + x)) :=
  Tensor.entry_four h.input hsample hchannel hy hx

theorem entry_weight {outChannel local_ tapRow tapColumn : Nat} (hout : outChannel < w.outChannels)
    (hlocal : local_ < w.inPerGroup) (hrow : tapRow < w.kernelHeight)
    (hcolumn : tapColumn < w.kernelWidth) :
    weight.entry [outChannel, local_, tapRow, tapColumn] =
      w.weightAt weight.data outChannel local_ (tapRow * w.kernelWidth + tapColumn) :=
  Tensor.entry_four h.weight hout hlocal hrow hcolumn

theorem entry_bias {outChannel : Nat} (hout : outChannel < w.outChannels) :
    Tensor.entryOr bias (Scalar.ofNat 0) [outChannel] = biasAt bias outChannel := by
  cases hbias : bias with
  | none => rfl
  | some t => exact Tensor.entry_one (h.bias t hbias) hout

end Fits

/-- Results are tables by sample, output channel and position. -/
theorem entry_of_table {out : Tensor α} {g : Nat → Nat → Nat → α} (hshape : out.shape = w.outShape)
    (hdata : out.data = (Array.range (w.batch * w.outChannels * w.spatial)).map fun flat =>
      g (flat / w.spatial / w.outChannels) (flat / w.spatial % w.outChannels) (flat % w.spatial))
    {sample outChannel row column : Nat} (hsample : sample < w.batch)
    (hout : outChannel < w.outChannels) (hrow : row < w.outHeight) (hcolumn : column < w.outWidth) :
    out.entry [sample, outChannel, row, column] =
      g sample outChannel (row * w.outWidth + column) := by
  have hposition : row * w.outWidth + column < w.spatial := row_add_lt hrow hcolumn
  have hplane : sample * w.outChannels + outChannel < w.batch * w.outChannels :=
    row_add_lt hsample hout
  rw [Tensor.entry_four hshape hsample hout hrow hcolumn]
  change read out.data ((sample * w.outChannels + outChannel) * w.spatial +
    (row * w.outWidth + column)) = _
  rw [hdata, read, Array.getElem?_map, Array.getElem?_range, if_pos (row_add_lt hplane hposition),
    Option.map_some, Option.getD_some, row_add_div hposition, row_add_mod hposition,
    row_add_div hout, row_add_mod hout]

end Window

end TensorParity
