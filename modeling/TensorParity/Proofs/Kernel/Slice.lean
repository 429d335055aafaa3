import TensorParity.Proofs.Kernel.Entry

/-!
Parts of a tensor along an axis, and tensors put next to each other along an axis. Both are given by
their entries, so they are found wherever their element counts are words; a part of a tensor always
is.
-/
namespace TensorParity

variable {α : Type} [Scalar α]

theorem Shape.Inside.set {s : Shape} {index : List Nat} (h : s.Inside index) (axis : Nat)
    {size i : Nat} (hi : i < size) : Shape.Inside (s.set axis size) (index.set axis i) := by
  induction h generalizing axis with
  | nil => exact .nil
  | cons hc hrest ih =>
    cases axis with
    | zero => exact .cons hi hrest
    | succ axis => exact .cons hc (ih axis)

namespace Tensor

/-- The tensor with these entries. -/
def ofEntries (shape : Shape) (f : List Nat → α) : Except KernelError (Tensor α) :=
  (ofArray shape ((Array.range shape.volume).map fun flat => f (shape.coordinates flat))).mapError
    .tensor

/-- The part of a tensor that starts at a coordinate along an axis. -/
def narrow (t : Tensor α) (axis start count : Nat) : Except KernelError (Tensor α) :=
  ofEntries (t.shape.set axis count) fun index => t.entry (index.modify axis (start + ·))

/-- The entry at coordinates of tensors that lie next to each other along an axis. -/
def entryAmong (axis : Nat) : List (Tensor α) → List Nat → α
  | [], _ => Scalar.ofNat 0
  | part :: parts, index =>
    let extent := (part.dim? axis).getD 0
    let i := index[axis]?.getD 0
    if i < extent then part.entry index else entryAmong axis parts (index.set axis (i - extent))

/-- Tensors put next to each other along an axis; the shape gives the sizes of the other axes. -/
def concat (axis : Nat) (shape : Shape) (parts : List (Tensor α)) :
    Except KernelError (Tensor α) :=
  ofEntries (shape.set axis (parts.map fun part => (part.dim? axis).getD 0).sum)
    (entryAmong axis parts)

variable {shape : Shape} {f : List Nat → α} {t : Tensor α}

omit [Scalar α] in
theorem exists_ofEntries {count : Nat} (hcount : shape.numel? = some count) (f : List Nat → α) :
    ∃ t, ofEntries shape f = .ok t := by
  have hsize : shape.numel? =
      some ((Array.range shape.volume).map fun flat => f (shape.coordinates flat)).size := by
    rw [Array.size_map, Array.size_range, (Shape.volume_of_numel? hcount).1, hcount]
  obtain ⟨t, ht⟩ := exists_ofArray hsize
  exact ⟨t, mapError_eq_ok.mpr ht⟩

omit [Scalar α] in
theorem shape_of_ofEntries (h : ofEntries shape f = .ok t) : t.shape = shape ∧
    t.data = (Array.range shape.volume).map fun flat => f (shape.coordinates flat) :=
  ofArray_eq_ok (mapError_eq_ok.mp h)

theorem entry_ofEntries (h : ofEntries shape f = .ok t) {index : List Nat}
    (hinside : shape.Inside index) : t.entry index = f index := by
  obtain ⟨hshape, hdata⟩ := shape_of_ofEntries h
  have hcount := t.numel_eq
  rw [hshape] at hcount
  obtain ⟨hvolume, hword⟩ := Shape.volume_of_numel? hcount
  have hbelow := Shape.position_lt hinside
  have hcoordinates : index = shape.coordinates (shape.position index) :=
    (Shape.eq_coordinates_iff (hvolume ▸ hword) hbelow).mpr ⟨hinside, rfl⟩
  rw [entry_of_inside (hshape ▸ hinside), hshape, hdata, read, Array.getElem?_map,
    Array.getElem?_range, if_pos hbelow, Option.map_some, Option.getD_some, ← hcoordinates]

/-- Entries determine the tensor that has them. -/
theorem ofEntries_eq_ok_iff : ofEntries shape f = .ok t ↔
    t.shape = shape ∧ ∀ index, shape.Inside index → t.entry index = f index := by
  constructor
  · intro h
    exact ⟨(shape_of_ofEntries h).1, fun index hinside => entry_ofEntries h hinside⟩
  · rintro ⟨rfl, hentries⟩
    obtain ⟨u, hu⟩ := exists_ofEntries t.numel_eq f
    have hshape := (shape_of_ofEntries hu).1
    have hequal : u = t := by
      apply eq_of_entries hshape
      intro index hinside
      rw [hshape] at hinside
      rw [entry_ofEntries hu hinside, hentries index hinside]
    rw [hu, hequal]

/-- A part that lies inside a tensor along an axis is found. -/
theorem exists_narrow {count d : Nat} (t : Tensor α) (axis start : Nat)
    (haxis : t.dim? axis = some d) (hd : count ≤ d) : ∃ part, t.narrow axis start count = .ok part := by
  have hsmaller : List.Forall₂ (· ≤ ·) (t.shape.set axis count) t.shape := by
    rw [List.forall₂_iff_get]
    refine ⟨List.length_set, fun i h h' => ?_⟩
    simp only [List.get_eq_getElem, List.getElem_set]
    split
    · rename_i hi
      obtain ⟨_, hget⟩ := List.getElem?_eq_some_iff.mp haxis
      subst hi
      omega
    · exact le_rfl
  obtain ⟨count', hcount'⟩ := Shape.numel?_mono hsmaller le_rfl t.numel_eq
  exact exists_ofEntries hcount' _

theorem shape_narrow {axis start count : Nat} {part : Tensor α}
    (h : t.narrow axis start count = .ok part) : part.shape = t.shape.set axis count :=
  (shape_of_ofEntries h).1

theorem entry_narrow {axis start count : Nat} {part : Tensor α}
    (h : t.narrow axis start count = .ok part) {index : List Nat}
    (hinside : part.shape.Inside index) :
    part.entry index = t.entry (index.modify axis (start + ·)) := by
  rw [shape_narrow h] at hinside
  exact entry_ofEntries h hinside

theorem exists_narrow_vector {n count : Nat} (hshape : t.shape = [n]) (start : Nat)
    (hcount : count ≤ n) :
    ∃ part, t.narrow 0 start count = .ok part ∧ part.shape = [count] ∧
      ∀ i < count, part.entry [i] = t.entry [start + i] := by
  obtain ⟨part, hpart⟩ := exists_narrow t 0 start (by rw [dim?, hshape]; rfl) hcount
  have hpartShape : part.shape = [count] := by
    rw [shape_narrow hpart, hshape]
    rfl
  refine ⟨part, hpart, hpartShape, ?_⟩
  intro i hi
  apply entry_narrow hpart
  rw [hpartShape]
  exact .cons hi .nil

/-- A part of a vector that may be absent. -/
theorem exists_narrow? {operand : Option (Tensor α)} {n count : Nat}
    (hshape : ∀ t, operand = some t → t.shape = [n]) (start : Nat) (hcount : count ≤ n) :
    ∃ part, operand.mapM (fun t => t.narrow 0 start count) = .ok part ∧
      (∀ t, part = some t → t.shape = [count]) ∧
      ∀ absent : α, ∀ i < count, entryOr part absent [i] = entryOr operand absent [start + i] := by
  cases hoperand : operand with
  | none => exact ⟨none, rfl, by simp, fun _ _ _ => rfl⟩
  | some t =>
    obtain ⟨part, hpart, hpartShape, hentry⟩ :=
      exists_narrow_vector (hshape t hoperand) start hcount
    refine ⟨some part, ?_, ?_, fun _ => hentry⟩
    · rw [Option.mapM_some, hpart]
      rfl
    · rintro _ ⟨⟩
      exact hpartShape

/-- A part along the outermost axis is a block of elements. -/
theorem getElem?_narrow {d start count i : Nat} {inner : Shape} {part : Tensor α}
    (hshape : t.shape = d :: inner) (hbound : start + count ≤ d)
    (h : t.narrow 0 start count = .ok part) (hi : i < count * inner.volume) :
    part.data[i]? = t.data[start * inner.volume + i]? := by
  have hpartShape : part.shape = count :: inner := by
    rw [shape_narrow h, hshape]
    rfl
  have hpartSize : part.data.size = count * inner.volume := by
    rw [size_eq_volume, hpartShape, Shape.volume_cons]
  have hsize : t.data.size = d * inner.volume := by
    rw [size_eq_volume, hshape, Shape.volume_cons]
  have hpart : i < part.data.size := hpartSize ▸ hi
  have hwhole : start * inner.volume + i < t.data.size := by
    have hblock : (start + count) * inner.volume ≤ d * inner.volume :=
      Nat.mul_le_mul_right _ hbound
    rw [Nat.add_mul] at hblock
    omega
  have hrow : 0 < inner.volume := Nat.pos_of_mul_pos_left (Nat.zero_lt_of_lt hi)
  have hspan : inner.span = inner.volume := by
    obtain ⟨hvolume, hword⟩ := Shape.volume_of_numel? t.numel_eq
    rw [hshape, Shape.volume_cons] at hvolume
    have hcount : 0 < count := Nat.pos_of_mul_pos_right (Nat.zero_lt_of_lt hi)
    have hbelow : inner.volume ≤ d * inner.volume := Nat.le_mul_of_pos_left _ (by omega)
    rw [Shape.span_eq]
    omega
  have hcoordinates : (Shape.coordinates (count :: inner) i).modify 0 (start + ·) =
      Shape.coordinates (d :: inner) (start * inner.volume + i) := by
    rw [Shape.coordinates, Shape.coordinates, hspan, Nat.mul_comm start, Nat.mul_add_div hrow,
      Nat.mul_add_mod]
    rfl
  obtain ⟨hinside, hentry⟩ := entry_coordinates hpart
  obtain ⟨-, hentry'⟩ := entry_coordinates hwhole
  rw [entry_narrow h hinside, hpartShape, hcoordinates, ← hshape, hentry'] at hentry
  rw [getElem?_eq_read hpart, getElem?_eq_read hwhole, hentry]

/-- Among parts of one size along the axis, a coordinate is divided into the part and the
coordinate in it. -/
theorem entryAmong_eq {axis size : Nat} {parts : List (Tensor α)} {index : List Nat}
    (hsize : ∀ part ∈ parts, part.dim? axis = some size) {g i : Nat} (hi : i < size)
    (haxis : index[axis]? = some (g * size + i)) {part : Tensor α} (hpart : parts[g]? = some part) :
    entryAmong axis parts index = part.entry (index.set axis i) := by
  induction parts generalizing g index with
  | nil => cases hpart
  | cons first parts ih =>
    have hfirst := hsize first List.mem_cons_self
    simp only [entryAmong, hfirst, haxis, Option.getD_some]
    cases g with
    | zero =>
      obtain rfl := Option.some.inj hpart
      rw [Nat.zero_mul, Nat.zero_add] at haxis ⊢
      obtain ⟨hlt, hget⟩ := List.getElem?_eq_some_iff.mp haxis
      rw [if_pos hi, ← hget, List.set_getElem_self]
    | succ g =>
      have hbeyond : ¬(g + 1) * size + i < size := by
        rw [Nat.succ_mul]
        omega
      have hrest : (g + 1) * size + i - size = g * size + i := by
        rw [Nat.succ_mul]
        omega
      obtain ⟨hlt, -⟩ := List.getElem?_eq_some_iff.mp haxis
      rw [if_neg hbeyond, hrest, ih (fun part hmem => hsize part (List.mem_cons_of_mem _ hmem))
        (by rw [List.getElem?_set_self hlt]) hpart, List.set_set]

omit [Scalar α] in
/-- Parts that are all found, in order. -/
theorem exists_parts {f : Nat → Except KernelError (Tensor α)} {holds : Nat → Tensor α → Prop}
    {n : Nat} (h : ∀ i < n, ∃ part, f i = .ok part ∧ holds i part) :
    ∃ parts, (List.range n).mapM f = .ok parts ∧ parts.length = n ∧
      ∀ i part, parts[i]? = some part → holds i part := by
  have hfound : ∀ i ∈ List.range n, ∃ part, f i = .ok part := by
    intro i hi
    obtain ⟨part, hpart, -⟩ := h i (List.mem_range.mp hi)
    exact ⟨part, hpart⟩
  obtain ⟨parts, hparts⟩ := mapM_total hfound
  obtain ⟨hlength, heach⟩ := List.forall₂_iff_get.mp (mapM_eq_ok_iff.mp hparts)
  rw [List.length_range] at hlength
  refine ⟨parts, hparts, hlength.symm, ?_⟩
  intro i part hpart
  obtain ⟨hi, hget⟩ := List.getElem?_eq_some_iff.mp hpart
  have hvalue := heach i (by rwa [List.length_range, hlength]) hi
  simp only [List.get_eq_getElem, List.getElem_range, hget] at hvalue
  obtain ⟨part', hpart', hholds⟩ := h i (hlength ▸ hi)
  rw [hvalue] at hpart'
  obtain rfl := Except.ok.inj hpart'
  exact hholds

/-- Parts of one size along the axis make the tensor that holds their entries side by side. -/
theorem concat_eq_ok {axis : Nat} (size : Nat) {parts : List (Tensor α)} {out : Tensor α}
    (haxis : axis < shape.length) (hsize : ∀ part ∈ parts, part.dim? axis = some size)
    (hshape : out.shape = shape.set axis (parts.length * size))
    (hentries : ∀ g part i index, parts[g]? = some part → i < size →
      index[axis]? = some (g * size + i) → out.shape.Inside index →
        out.entry index = part.entry (index.set axis i)) :
    concat axis shape parts = .ok out := by
  have hsum : (parts.map fun part => (part.dim? axis).getD 0).sum = parts.length * size := by
    rw [List.map_congr_left (g := fun _ => size) (fun part hmem => by rw [hsize part hmem]; rfl),
      List.map_const', List.sum_replicate, smul_eq_mul]
  rw [concat, hsum, ← hshape]
  apply ofEntries_eq_ok_iff.mpr
  refine ⟨rfl, ?_⟩
  intro index hinside
  obtain ⟨hlength, hbelow⟩ := List.forall₂_iff_get.mp hinside
  have hdims : axis < out.shape.length := by rwa [hshape, List.length_set]
  have hindex : axis < index.length := by rwa [hlength]
  have hcoordinate : index[axis] < parts.length * size := by
    have hlt := hbelow axis hindex hdims
    simpa only [List.get_eq_getElem, hshape, List.getElem_set_self] using hlt
  have hpositive : 0 < size := Nat.pos_of_mul_pos_left (Nat.zero_lt_of_lt hcoordinate)
  have hpart : index[axis] / size < parts.length :=
    Nat.div_lt_of_lt_mul (by rwa [Nat.mul_comm])
  have hrest : index[axis] % size < size := Nat.mod_lt _ hpositive
  have hsplit : index[axis]? = some (index[axis] / size * size + index[axis] % size) := by
    rw [Nat.div_add_mod', List.getElem?_eq_getElem hindex]
  have hget := List.getElem?_eq_getElem hpart
  rw [hentries _ _ _ index hget hrest hsplit hinside, entryAmong_eq hsize hrest hsplit hget]

/-- A tensor is its parts of one size along an axis, put together again. -/
theorem concat_narrow {axis size count : Nat} {parts : List (Tensor α)}
    (haxis : t.dim? axis = some (count * size))
    (hparts : (List.range count).mapM (fun g => t.narrow axis (g * size) size) = .ok parts) :
    concat axis t.shape parts = .ok t := by
  obtain ⟨hdim, hget⟩ := List.getElem?_eq_some_iff.mp haxis
  obtain ⟨hlength, heach⟩ := List.forall₂_iff_get.mp (mapM_eq_ok_iff.mp hparts)
  rw [List.length_range] at hlength
  have hpart : ∀ g part, parts[g]? = some part → t.narrow axis (g * size) size = .ok part := by
    intro g part hg
    obtain ⟨hlt, hvalue⟩ := List.getElem?_eq_some_iff.mp hg
    have hnarrow := heach g (by rwa [List.length_range, hlength]) hlt
    simpa only [List.get_eq_getElem, List.getElem_range, hvalue] using hnarrow
  apply concat_eq_ok size hdim
  · intro part hmem
    obtain ⟨g, hg⟩ := List.getElem?_of_mem hmem
    rw [dim?, shape_narrow (hpart g part hg), List.getElem?_set_self hdim]
  · rw [← hlength, ← hget, List.set_getElem_self]
  · intro g part i index hg hi hindex hinside
    obtain ⟨hlt, hcoordinate⟩ := List.getElem?_eq_some_iff.mp hindex
    have hinsidePart : part.shape.Inside (index.set axis i) := by
      rw [shape_narrow (hpart g part hg)]
      exact hinside.set axis hi
    have hback : (index.set axis i).modify axis (g * size + ·) = index := by
      rw [List.modify_eq_set_getElem?, List.getElem?_set_self hlt]
      change (index.set axis i).set axis (g * size + i) = index
      rw [List.set_set, ← hcoordinate, List.set_getElem_self]
    rw [entry_narrow (hpart g part hg) hinsidePart, hback]

/-- Parts found one by one make the tensor they are parts of. -/
theorem mapM_concat_narrow {axis size count : Nat} {f : Nat → Except KernelError (Tensor α)}
    (haxis : t.dim? axis = some (count * size))
    (hparts : ∀ g < count, ∃ part, f g = .ok part ∧ t.narrow axis (g * size) size = .ok part) :
    (List.range count).mapM f >>= concat axis t.shape = .ok t := by
  obtain ⟨parts, hnarrow⟩ := mapM_total (f := fun g => t.narrow axis (g * size) size)
    fun g hg => (hparts g (List.mem_range.mp hg)).imp fun _ hpart => hpart.2
  have hfound : (List.range count).mapM f = .ok parts := by
    rw [← hnarrow]
    apply mapM_congr
    intro g hg
    obtain ⟨part, hpart, hslice⟩ := hparts g (List.mem_range.mp hg)
    rw [hpart, hslice]
  rw [hfound, ok_bind]
  exact concat_narrow haxis hnarrow

end Tensor

end TensorParity
