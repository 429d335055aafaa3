import TensorParity.Backend.Loopback
import TensorParity.Proofs.Artifact.Writable
import TensorParity.Proofs.Rounding.Bits

/-!
The weights of a converted model. The blob holds every element of every constant once, rounded to
single precision, and each slot says where its constant lies, so the constants that are read back
are the rounded ones.
-/
namespace TensorParity

/-- The elements of all constants, one after the other. -/
def elementsOf (constants : List FrozenConstant) : List Float :=
  constants.flatMap fun c => c.tensor.data.toList

/-- What stands in the middle of one of many blocks of one size. -/
theorem getElem?_flatMap_block {α : Type} {f : α → List UInt8} {size : Nat}
    (hsize : ∀ a, (f a).length = size) (items : List α) (i : Nat) {k : Nat} (hk : k < size) :
    (items.flatMap f)[size * i + k]? = items[i]?.bind fun a => (f a)[k]? := by
  induction items generalizing i with
  | nil => simp
  | cons a items ih =>
    rw [List.flatMap_cons]
    cases i with
    | zero => rw [Nat.mul_zero, Nat.zero_add, List.getElem?_append_left (by rwa [hsize])]; rfl
    | succ i =>
      rw [List.getElem?_append_right (by rw [hsize, Nat.mul_succ]; omega), hsize, Nat.mul_succ,
        show size * i + size + k - size = size * i + k by omega, ih i]
      rfl

namespace Weights

theorem data_encode (constants : List FrozenConstant) :
    (encode constants).data.toList = (elementsOf constants).flatMap encodeElement := by
  have hbytes (bytes : List UInt8) (blob : ByteArray) :
      (bytes.foldl ByteArray.push blob).data.toList = blob.data.toList ++ bytes := by
    induction bytes generalizing blob with
    | nil => simp
    | cons b bytes ih => simp [ih]
  have helements (xs : List Float) (blob : ByteArray) :
      (xs.foldl (fun blob x => (encodeElement x).foldl ByteArray.push blob) blob).data.toList =
        blob.data.toList ++ xs.flatMap encodeElement := by
    induction xs generalizing blob with
    | nil => simp
    | cons x xs ih => simp [ih, hbytes]
  have hconstants (cs : List FrozenConstant) (blob : ByteArray) :
      (cs.foldl (fun blob c => c.tensor.data.foldl
        (fun blob x => (encodeElement x).foldl ByteArray.push blob) blob) blob).data.toList =
        blob.data.toList ++ (elementsOf cs).flatMap encodeElement := by
    induction cs generalizing blob with
    | nil => simp [elementsOf]
    | cons c cs ih =>
      rw [List.foldl_cons, ih, ← Array.foldl_toList, helements]
      simp [elementsOf]
  exact (hconstants constants .empty).trans (by simp)

theorem length_encodeElement (x : Float) : (encodeElement x).length = 4 := length_littleEndian 4 _

theorem size_encode (constants : List FrozenConstant) :
    (encode constants).size = 4 * (elementsOf constants).length := by
  rw [← ByteArray.size_data, ← Array.length_toList, data_encode, List.length_flatMap]
  simp [length_encodeElement, Nat.mul_comm]

theorem getElem?_blob (blob : ByteArray) (i : Nat) : blob[i]? = blob.data.toList[i]? := by
  rw [Array.getElem?_toList]
  by_cases hi : i < blob.size
  · rw [getElem?_pos blob i hi, getElem?_pos blob.data i hi]
    rfl
  · rw [getElem?_neg blob i hi, getElem?_neg blob.data i hi]

/-- The bytes of an element spell its rounding. -/
theorem decodeElement_encode (constants : List FrozenConstant) {i : Nat}
    (hi : i < (elementsOf constants).length) :
    decodeElement (encode constants) i = roundToSingle (elementsOf constants)[i] := by
  have hbyte {k : Nat} (hk : k < 4) : ((encode constants)[4 * i + k]?.getD 0) =
      (encodeElement (elementsOf constants)[i])[k]?.getD 0 := by
    rw [getElem?_blob, data_encode, getElem?_flatMap_block length_encodeElement _ _ hk,
      List.getElem?_eq_getElem hi, Option.bind_some]
  generalize (elementsOf constants)[i] = x at hbyte ⊢
  have hword := SignedBits.toWord_lt (singleOf_bits_lt x)
  have hspelled : ofLittleEndian (encodeElement x) = (singleOf x).toWord 31 :=
    ofLittleEndian_littleEndian (by simpa using hword)
  have hbytes : ((encode constants)[4 * i + 0]?.getD 0).toNat +
      256 * (((encode constants)[4 * i + 1]?.getD 0).toNat +
      256 * (((encode constants)[4 * i + 2]?.getD 0).toNat +
      256 * ((encode constants)[4 * i + 3]?.getD 0).toNat)) = (singleOf x).toWord 31 := by
    rw [← hspelled, hbyte (by decide), hbyte (by decide), hbyte (by decide), hbyte (by decide)]
    rfl
  have hdecoded : decodeElement (encode constants) i =
      ofSingle (.ofWord 31 ((singleOf x).toWord 31)) :=
    congrArg (fun word => ofSingle (.ofWord 31 word)) hbytes
  rw [hdecoded, SignedBits.ofWord_toWord (singleOf_bits_lt x)]
  rfl

/-- The blob is read back as the rounded elements. -/
theorem decode_blob (constants : List FrozenConstant) :
    decode (encode constants) = .ok ((elementsOf constants).map roundToSingle).toArray := by
  have hcount : (encode constants).size / 4 = (elementsOf constants).length := by
    rw [size_encode]
    omega
  rw [decode, if_neg (by rw [size_encode]; omega)]
  refine congrArg Except.ok (Array.ext (by simp [hcount]) fun i hi hi' => ?_)
  rw [Array.getElem_ofFn, decodeElement_encode]
  · simp
  · simpa using hi'

end Weights

/-- The slot of a constant finds its rounded elements. -/
theorem WeightSlot.tensor_eq_ok {c : FrozenConstant} {offset : Nat} {elements : Array Float}
    {before after : List Float}
    (helements : elements.toList = before ++ c.tensor.data.toList.map roundToSingle ++ after)
    (hoffset : before.length = offset) (hwords : elements.size < Shape.wordLimit) :
    tensor ⟨c.name, c.tensor.shape, offset⟩ elements = .ok (c.tensor.map roundToSingle) := by
  have hsize : elements.size = offset + c.tensor.data.size + after.length := by
    rw [← Array.length_toList, helements]
    simp [hoffset, Nat.add_assoc]
  have hcount : Shape.numel c.tensor.shape = .ok c.tensor.data.size := by
    rw [Shape.numel, c.tensor.numel_eq]
  have hpart : elements.extract offset (offset + c.tensor.data.size) =
      (c.tensor.map roundToSingle).data := by
    rw [← Array.toList_inj, Array.toList_extract, helements, List.append_assoc]
    simp [List.extract_eq_take_drop, ← hoffset]
  unfold tensor
  simp only [hcount, Except.mapError, ok_bind]
  rw [if_neg (by omega), hpart]
  exact congrArg (Except.mapError StructureFault.shape)
    (Tensor.ofArray_data (c.tensor.map roundToSingle))

namespace LoopbackStructure

/-- What the slots of consecutive constants find. -/
theorem foldlM_slots {cs : List FrozenConstant} {offset : Nat} {elements : Array Float}
    {before : List Float}
    (helements : elements.toList = before ++ (elementsOf cs).map roundToSingle)
    (hoffset : before.length = offset) (hwords : elements.size < Shape.wordLimit)
    (t : Table (Tensor Float)) :
    (slots offset cs).foldlM (fun (t : Table (Tensor Float)) w => do
        return t.insert w.name (← w.tensor elements)) t =
      .ok (cs.foldl (fun t c => t.insert c.name (c.tensor.map roundToSingle)) t) := by
  induction cs generalizing offset before t with
  | nil => rfl
  | cons c cs ih =>
    have hsplit : elements.toList = before ++ c.tensor.data.toList.map roundToSingle ++
        (elementsOf cs).map roundToSingle := by
      rw [helements, elementsOf, List.flatMap_cons, List.map_append, ← List.append_assoc]
      rfl
    rw [slots, List.foldlM_cons, WeightSlot.tensor_eq_ok hsplit hoffset hwords]
    exact ih hsplit (by simp [hoffset, Tensor.numel]) _

/-- Slots lie within the elements. -/
theorem mem_slots {cs : List FrozenConstant} {offset : Nat} {w : WeightSlot}
    (h : w ∈ slots offset cs) :
    (∃ c ∈ cs, w.shape = c.tensor.shape) ∧ w.offset ≤ offset + (elementsOf cs).length := by
  induction cs generalizing offset with
  | nil => simp [slots] at h
  | cons c cs ih =>
    have hlength : (elementsOf (c :: cs)).length = c.tensor.numel + (elementsOf cs).length := by
      simp [elementsOf, Tensor.numel]
    rcases List.mem_cons.mp h with rfl | h
    · exact ⟨⟨c, by simp, rfl⟩, by simp⟩
    · obtain ⟨⟨d, hd, hshape⟩, hoffset⟩ := ih h
      exact ⟨⟨d, by simp [hd], hshape⟩, by omega⟩

end LoopbackStructure

end TensorParity
