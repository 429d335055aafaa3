import TensorParity.Record.Tensor
import TensorParity.Proofs.Json.Readable
import TensorParity.Proofs.Shape

/-!
What makes a tensor. A shape and elements do, if the product of the sizes is the number of elements
and the sizes before the first empty axis have a product that is a word. Tensors of one value and
records are settled alike: a record says a shape and elements, and nothing else.
-/
namespace TensorParity

open Json

namespace Tensor

/-- The trees that say a shape and elements: an object with the two fields in any order, or an array
of the two. -/
inductive Says (shape : Shape) (data : List Float) : Json → Prop where
  | fields {v w : Json} (hshape : asShape v = .ok shape) (hdata : asList asFloat w = .ok data) :
      Says shape data (.record [("shape", v), ("data", w)])
  | fieldsReversed {v w : Json} (hshape : asShape v = .ok shape)
      (hdata : asList asFloat w = .ok data) :
      Says shape data (.record [("data", w), ("shape", v)])
  | items {v w : Json} (hshape : asShape v = .ok shape) (hdata : asList asFloat w = .ok data) :
      Says shape data (.array [v, w])

/-- A step reads one of the two fields that was not read before. -/
theorem Slots.field_eq_ok {s s' : Slots} {name : String} {v : Json}
    (h : s.field name v = .ok s') :
    (name = "shape" ∧ s.shape = none ∧
        ∃ shape, asShape v = .ok shape ∧ s' = { s with shape := some shape }) ∨
      (name = "data" ∧ s.data = none ∧
        ∃ data, asList asFloat v = .ok data ∧ s' = { s with data := some data }) := by
  unfold Slots.field at h
  split at h
  · obtain ⟨slot, hfill, hs'⟩ := bind_eq_ok.mp h
    obtain ⟨hnew, shape, hread, rfl⟩ := fill_eq_ok.mp hfill
    exact .inl ⟨rfl, hnew, shape, hread, (Except.ok.inj hs').symm⟩
  · obtain ⟨slot, hfill, hs'⟩ := bind_eq_ok.mp h
    obtain ⟨hnew, data, hread, rfl⟩ := fill_eq_ok.mp hfill
    exact .inr ⟨rfl, hnew, data, hread, (Except.ok.inj hs').symm⟩
  · exact absurd h throw_ne_ok

/-- Two steps fill the slots, and there is no third. -/
theorem eq_pair_of_fold {entries : List (String × Json)} {shape : Shape} {data : List Float}
    (h : entries.foldlM (fun s (name, value) => Slots.field s name value) ({} : Slots) =
      .ok ⟨some shape, some data⟩) :
    ∃ v w, asShape v = .ok shape ∧ asList asFloat w = .ok data ∧
      (entries = [("shape", v), ("data", w)] ∨ entries = [("data", w), ("shape", v)]) := by
  obtain _ | ⟨⟨name, v⟩, entries⟩ := entries
  · cases h
  rw [List.foldlM_cons] at h
  obtain ⟨first, hfirst, h⟩ := bind_eq_ok.mp h
  obtain _ | ⟨⟨name', w⟩, entries⟩ := entries
  · obtain rfl := Except.ok.inj h
    rcases Slots.field_eq_ok hfirst with ⟨-, -, _, -, heq⟩ | ⟨-, -, _, -, heq⟩ <;> cases heq
  rw [List.foldlM_cons] at h
  obtain ⟨second, hsecond, h⟩ := bind_eq_ok.mp h
  have hfull : ∃ shape' data', second = ⟨some shape', some data'⟩ ∧
      ((name = "shape" ∧ name' = "data" ∧ asShape v = .ok shape' ∧
          asList asFloat w = .ok data') ∨
        (name = "data" ∧ name' = "shape" ∧ asShape w = .ok shape' ∧
          asList asFloat v = .ok data')) := by
    rcases Slots.field_eq_ok hfirst with ⟨rfl, -, shape', hshape, rfl⟩ | ⟨rfl, -, data', hdata, rfl⟩
    · rcases Slots.field_eq_ok hsecond with ⟨-, hnew, -⟩ | ⟨rfl, -, data', hdata, rfl⟩
      · cases hnew
      · exact ⟨shape', data', rfl, .inl ⟨rfl, rfl, hshape, hdata⟩⟩
    · rcases Slots.field_eq_ok hsecond with ⟨rfl, -, shape', hshape, rfl⟩ | ⟨-, hnew, -⟩
      · exact ⟨shape', data', rfl, .inr ⟨rfl, rfl, hshape, hdata⟩⟩
      · cases hnew
  obtain ⟨shape', data', rfl, hreads⟩ := hfull
  obtain _ | ⟨⟨name'', u⟩, entries⟩ := entries
  · cases h
    rcases hreads with ⟨rfl, rfl, hshape, hdata⟩ | ⟨rfl, rfl, hshape, hdata⟩
    · exact ⟨v, w, hshape, hdata, .inl rfl⟩
    · exact ⟨w, v, hshape, hdata, .inr rfl⟩
  · rw [List.foldlM_cons] at h
    obtain ⟨third, hthird, -⟩ := bind_eq_ok.mp h
    rcases Slots.field_eq_ok hthird with ⟨-, hnew, -⟩ | ⟨-, hnew, -⟩ <;> cases hnew

theorem says_of_walk {shape : Shape} {data : List Float} {j : Json}
    (h : walkRecord ["shape", "data"] Slots.field {} j = .ok ⟨some shape, some data⟩) :
    Says shape data j := by
  cases j with
  | object fields closed =>
    obtain ⟨last, hfold, hclosed⟩ := bind_eq_ok.mp h
    cases closed with
    | false => exact absurd hclosed throw_ne_ok
    | true =>
      obtain rfl := Except.ok.inj hclosed
      obtain ⟨v, w, hshape, hdata, rfl | rfl⟩ := eq_pair_of_fold hfold
      · exact .fields hshape hdata
      · exact .fieldsReversed hshape hdata
  | array items =>
    obtain ⟨last, hfold, hlength⟩ := bind_eq_ok.mp h
    split at hlength
    · rename_i hshort
      obtain rfl := Except.ok.inj hlength
      obtain ⟨v, w, hshape, hdata, hentries⟩ := eq_pair_of_fold hfold
      obtain _ | ⟨first, _ | ⟨second, _ | ⟨third, items⟩⟩⟩ := items
      · simp at hentries
      · simp at hentries
      · obtain ⟨rfl, rfl⟩ : first = v ∧ second = w := by simpa using hentries
        exact .items hshape hdata
      · simp at hshort
    · exact absurd hlength throw_ne_ok
  | _ => simp [walkRecord, wrongType, throw, throwThe, MonadExceptOf.throw] at h

theorem ofJson_eq_ofArray {shape : Shape} {data : List Float} {j : Json} (h : Says shape data j) :
    ofJson j = (ofArray shape data.toArray).mapError .inconsistent := by
  cases h with
  | fields hshape hdata =>
    simp [ofJson, Json.record, walkRecord, walkFields, Slots.field, fill, required, hshape, hdata]
  | fieldsReversed hshape hdata =>
    simp [ofJson, Json.record, walkRecord, walkFields, Slots.field, fill, required, hshape, hdata]
  | items hshape hdata =>
    simp [ofJson, walkRecord, Slots.field, fill, required, hshape, hdata]

/-- What is read as a tensor says its shape and elements. -/
theorem says_of_ofJson {j : Json} {t : Tensor Float} (h : ofJson j = .ok t) :
    Says t.shape t.data.toList j := by
  obtain ⟨s, hwalk, h⟩ := bind_eq_ok.mp h
  obtain ⟨shape, hshape, h⟩ := bind_eq_ok.mp h
  obtain ⟨data, hdata, h⟩ := bind_eq_ok.mp h
  obtain ⟨slot, slot'⟩ := s
  obtain rfl := required_eq_ok.mp hshape
  obtain rfl := required_eq_ok.mp hdata
  obtain ⟨hsame, hdata⟩ := ofArray_eq_ok (mapError_eq_ok.mp h)
  rw [hsame, hdata]
  exact says_of_walk hwalk

section Accepted

variable {α : Type} {shape : Shape}

/-- A shape and data make a tensor exactly if the product of the sizes is the length of the data,
unless the sizes before the first empty axis have a product that is no word. -/
theorem exists_ofArray_iff (hwords : shape.InWords) {data : Array α} :
    (∃ t, ofArray shape data = .ok t) ↔
      Shape.volume shape = data.size ∧ Shape.volume shape.leading < Shape.wordLimit := by
  constructor
  · rintro ⟨t, hmade⟩
    obtain ⟨rfl, rfl⟩ := ofArray_eq_ok hmade
    obtain ⟨-, hleading, hvolume⟩ := Shape.numel?_eq_some_iff.mp t.numel_eq
    exact ⟨hvolume.symm, hleading⟩
  · rintro ⟨hvolume, hleading⟩
    exact exists_ofArray (Shape.numel?_eq_some_iff.mpr ⟨hwords, hleading, hvolume.symm⟩)

theorem ofArray_eq_overflow_iff (hwords : shape.InWords) {data : Array α} :
    ofArray shape data = .error (.countOverflow shape) ↔
      Shape.wordLimit ≤ Shape.volume shape.leading := by
  rw [← Shape.numel?_eq_none_iff hwords]
  unfold ofArray
  split
  · rename_i hnone
    simp [hnone]
  · rename_i count hsome
    simp only [hsome, reduceCtorEq, iff_false]
    split <;> simp

/-- A tensor of one value is made as from an array of so many copies of it. -/
theorem full_eq_ofArray (shape : Shape) (value : α) :
    full shape value = ofArray shape (Array.replicate (Shape.volume shape) value) := by
  unfold full ofArray
  split
  · rfl
  · rename_i count hsome
    obtain ⟨hvolume, -⟩ := Shape.volume_of_numel? hsome
    split
    · simp [hvolume]
    · rename_i hsize
      exact absurd (by rw [Array.size_replicate, hvolume]) hsize

/-- The order of the axes plays no part, unless there is no data, an axis is empty and the others
have a product that is no word. -/
theorem ofArray_perm_iff (hwords : shape.InWords) {data : Array α} :
    (∀ shape' : Shape, shape'.Perm shape →
        ((∃ t, ofArray shape' data = .ok t) ↔ ∃ t, ofArray shape data = .ok t)) ↔
      (0 ∈ shape → data.size = 0 → Shape.volume shape.occupied < Shape.wordLimit) := by
  have hperm {shape' : Shape} (h : shape'.Perm shape) : shape'.InWords := fun d hd =>
    hwords d (h.mem_iff.mp hd)
  constructor
  · intro hsame hzero hnone
    by_contra hlimit
    -- With an empty axis in front the shape is accepted, with all of them at the end it is not.
    obtain ⟨last, hlast, hleading⟩ := Shape.exists_perm_leading shape
    have hfirst : ((0 :: shape.erase 0 : Shape)).Perm shape := (List.perm_cons_erase hzero).symm
    have haccepted : ∃ t, ofArray (0 :: shape.erase 0) data = .ok t := by
      apply (exists_ofArray_iff (hperm hfirst)).mpr
      constructor
      · rw [hnone, Shape.volume_cons, Nat.zero_mul]
      · rw [Shape.leading_zero]
        decide
    obtain ⟨-, hword⟩ := (exists_ofArray_iff (hperm hlast)).mp
      ((hsame last hlast).mpr ((hsame _ hfirst).mp haccepted))
    rw [hleading] at hword
    exact hlimit hword
  · intro hcounted shape' h
    rw [exists_ofArray_iff (hperm h), exists_ofArray_iff hwords, Shape.volume_perm h]
    apply and_congr_right
    intro hvolume
    by_cases hzero : 0 ∈ shape
    · have hword := hcounted hzero (by rw [← hvolume, Shape.volume_eq_zero hzero])
      have hword' : Shape.volume shape'.occupied < Shape.wordLimit := by
        rwa [Shape.occupied, Shape.volume_perm (h.filter _)]
      have hle := Shape.volume_leading_le shape
      have hle' := Shape.volume_leading_le shape'
      constructor
      · intro _
        omega
      · intro _
        omega
    · have hzero' : 0 ∉ shape' := fun hmem => hzero (h.mem_iff.mp hmem)
      rw [Shape.leading_eq_self hzero, Shape.leading_eq_self hzero', Shape.volume_perm h]

end Accepted

/-- Whether a shape and data make a tensor is settled by the product of the sizes, as long as those
before the first empty axis have a product that is a word; otherwise the count is refused, although
the product of all sizes is zero if an axis is empty. Tensors of one value and records are settled
alike. -/
theorem ofArray_settled_by_leading {shape : Shape} (hwords : shape.InWords) (data : List Float)
    (value : Float) :
    ((∃ t, ofArray shape data.toArray = .ok t) ↔
        Shape.volume shape = data.length ∧ Shape.volume shape.leading < Shape.wordLimit) ∧
      (ofArray shape data.toArray = .error (.countOverflow shape) ↔
        Shape.wordLimit ≤ Shape.volume shape.leading) ∧
      ((∀ shape' : Shape, shape'.Perm shape → ((∃ t, ofArray shape' data.toArray = .ok t) ↔
          ∃ t, ofArray shape data.toArray = .ok t)) ↔
        (0 ∈ shape → data = [] → Shape.volume shape.occupied < Shape.wordLimit)) ∧
      full shape value = ofArray shape (Array.replicate (Shape.volume shape) value) ∧
      ∀ j, (Says shape data j → ofJson j = (ofArray shape data.toArray).mapError .inconsistent) ∧
        ∀ t, ofJson j = .ok t → Says t.shape t.data.toList j := by
  refine ⟨?_, ofArray_eq_overflow_iff hwords, ?_, full_eq_ofArray shape value,
    fun j => ⟨ofJson_eq_ofArray, fun t => says_of_ofJson⟩⟩
  · rw [exists_ofArray_iff hwords, List.size_toArray]
  · rw [ofArray_perm_iff hwords, List.size_toArray, List.length_eq_zero_iff]

/-- Two sizes whose product is no word, and an empty axis after them. -/
def lateEmpty : Shape := [4294967296, 4294967296, 0]

/-- A shape that calls for no elements is not filled with copies of one. -/
theorem full_lateEmpty : full lateEmpty (0.0 : Float) = .error (.countOverflow lateEmpty) := by
  have hwords : lateEmpty.InWords := by
    unfold Shape.InWords
    decide
  obtain ⟨-, hoverflow, -, hfull, -⟩ := ofArray_settled_by_leading hwords [] 0.0
  rw [hfull]
  exact hoverflow.mpr (by decide)

/-- A count is refused as too large although the product of the sizes is zero, and in another order
the same sizes are accepted. -/
theorem ofArray_lateEmpty : Shape.volume lateEmpty = 0 ∧
    ofArray lateEmpty (#[] : Array Float) = .error (.countOverflow lateEmpty) ∧
    ∃ t, ofArray lateEmpty.reverse (#[] : Array Float) = .ok t := by
  refine ⟨by decide, by decide, ⟨lateEmpty.reverse, #[], by decide⟩, by decide⟩

end Tensor

end TensorParity
