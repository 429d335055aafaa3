import Mathlib
import TensorParity.Digest.Sha256

/-!
Bytes. Words are written least significant first, a digest is printed as a label of fixed length that
tells all digests apart, and two texts with the same bytes are the same text.
-/
namespace TensorParity

theorem length_littleEndian (count n : Nat) : (littleEndian count n).length = count := by
  induction count generalizing n with
  | zero => rfl
  | succ count ih => simp [littleEndian, ih]

/-- The number that bytes spell, least significant first. -/
def ofLittleEndian (bytes : List UInt8) : Nat :=
  bytes.foldr (fun b n => b.toNat + 256 * n) 0

theorem ofLittleEndian_littleEndian {count n : Nat} (h : n < 256 ^ count) :
    ofLittleEndian (littleEndian count n) = n := by
  induction count generalizing n with
  | zero =>
    rw [Nat.pow_zero] at h
    rw [littleEndian, ofLittleEndian, List.foldr_nil]
    omega
  | succ count ih =>
    rw [Nat.pow_succ] at h
    have hrest := ih (n := n / 256) (by omega)
    rw [ofLittleEndian] at hrest
    rw [littleEndian, ofLittleEndian, List.foldr_cons, hrest, Nat.toUInt8, UInt8.toNat_ofNat']
    omega

theorem littleEndian_inj {count m n : Nat} (hm : m < 256 ^ count) (hn : n < 256 ^ count)
    (h : littleEndian count m = littleEndian count n) : m = n := by
  have := congrArg ofLittleEndian h
  rwa [ofLittleEndian_littleEndian hm, ofLittleEndian_littleEndian hn] at this

/-- Pieces of one size, put one after the other, can be told apart from each other and from what
follows them. -/
theorem flatMap_append_inj {α : Type} {f : α → List UInt8} {size : Nat}
    (hsize : ∀ a, (f a).length = size) {as bs : List α} {us vs : List UInt8}
    (hinj : ∀ a ∈ as, ∀ b ∈ bs, f a = f b → a = b) (hlength : as.length = bs.length)
    (h : as.flatMap f ++ us = bs.flatMap f ++ vs) : as = bs ∧ us = vs := by
  induction as generalizing bs with
  | nil =>
    obtain rfl := List.length_eq_zero_iff.mp hlength.symm
    exact ⟨rfl, h⟩
  | cons a as ih =>
    obtain _ | ⟨b, bs⟩ := bs
    · simp at hlength
    rw [List.flatMap_cons, List.flatMap_cons, List.append_assoc, List.append_assoc] at h
    obtain ⟨hhead, htail⟩ := List.append_inj h (by rw [hsize, hsize])
    obtain ⟨hrest, hafter⟩ := ih (fun a ha b hb => hinj a (by simp [ha]) b (by simp [hb]))
      (by simpa using hlength) htail
    rw [hinj a (by simp) b (by simp) hhead, hrest]
    exact ⟨rfl, hafter⟩

/-- A digest's label is as long as any other. -/
theorem Sha256.length_label (message : List UInt8) : (label message).length = 71 := by
  have hhex (bytes : List UInt8) : (hexText bytes).length = 2 * bytes.length := by
    induction bytes with
    | nil => rfl
    | cons b bytes ih =>
      simp only [hexText, String.length_ofList] at ih ⊢
      simp [List.flatMap_cons, hexByte, ih]
      omega
  have hbytes : (bytes message).length = 32 := by simp [bytes, length_littleEndian]
  rw [label, String.length_append, hhex, hbytes]
  rfl

theorem digitChar_inj {m n : Nat} (hm : m < 16) (hn : n < 16)
    (h : Nat.digitChar m = Nat.digitChar n) : m = n := by
  have hall : ∀ i j : Fin 16, Nat.digitChar i = Nat.digitChar j → i = j := by decide
  exact Fin.mk.inj (hall ⟨m, hm⟩ ⟨n, hn⟩ h)

theorem hexByte_inj {b c : UInt8} (h : hexByte b = hexByte c) : b = c := by
  have hb := b.toNat_lt
  have hc := c.toNat_lt
  simp only [hexByte, List.cons.injEq, and_true] at h
  have hhigh := digitChar_inj (by omega) (by omega) h.1
  have hlow := digitChar_inj (by omega) (by omega) h.2
  exact UInt8.toNat_inj.mp (by omega)

theorem hexText_inj {bs cs : List UInt8} (h : hexText bs = hexText cs) : bs = cs := by
  have hchars : bs.flatMap hexByte = cs.flatMap hexByte := String.ofList_injective h
  clear h
  induction bs generalizing cs with
  | nil =>
    obtain _ | ⟨c, cs⟩ := cs
    · rfl
    · cases hchars
  | cons b bs ih =>
    obtain _ | ⟨c, cs⟩ := cs
    · cases hchars
    rw [List.flatMap_cons, List.flatMap_cons] at hchars
    obtain ⟨hhead, htail⟩ := List.append_inj hchars rfl
    rw [hexByte_inj hhead, ih htail]

/-- Labels tell digests apart. -/
theorem Sha256.label_inj {message message' : List UInt8} (h : label message = label message') :
    bytes message = bytes message' := by
  refine hexText_inj (String.toList_inj.mp ?_)
  have hchars := congrArg String.toList h
  rw [label, label, String.toList_append, String.toList_append] at hchars
  exact List.append_cancel_left hchars

private theorem toList_loop (bytes : ByteArray) (i : Nat) (seen : List UInt8) :
    ByteArray.toList.loop bytes i seen = seen.reverse ++ bytes.data.toList.drop i := by
  induction hleft : bytes.size - i generalizing i seen with
  | zero =>
    have hend : bytes.data.toList.length ≤ i := by
      rw [Array.length_toList, ByteArray.size_data]
      omega
    rw [ByteArray.toList.loop, if_neg (by omega), List.drop_eq_nil_of_le hend, List.append_nil]
  | succ left ih =>
    have hi : i < bytes.data.toList.length := by
      rw [Array.length_toList, ByteArray.size_data]
      omega
    have hbyte : bytes.get! i = bytes.data.toList[i] := by
      rw [Array.length_toList] at hi
      exact getElem!_pos bytes.data i hi
    rw [ByteArray.toList.loop, if_pos (by omega), ih (i + 1) (bytes.get! i :: seen) (by omega),
      List.drop_eq_getElem_cons hi, hbyte]
    simp

theorem toList_bytes (bytes : ByteArray) : bytes.toList = bytes.data.toList := by
  rw [ByteArray.toList, toList_loop]
  simp

theorem toList_toUTF8_append (s t : String) :
    (s ++ t).toUTF8.toList = s.toUTF8.toList ++ t.toUTF8.toList := by
  simp [toList_bytes, String.toUTF8_eq_toByteArray]

theorem length_toList_toUTF8 (s : String) : s.toUTF8.toList.length = s.utf8ByteSize := by
  rw [toList_bytes, Array.length_toList]
  rfl

theorem toList_toUTF8_inj {s t : String} (h : s.toUTF8.toList = t.toUTF8.toList) : s = t := by
  rw [toList_bytes, toList_bytes, Array.toList_inj] at h
  exact String.toByteArray_inj.mp (ByteArray.ext h)

/-- The bytes of a text spell it. -/
theorem fromUTF8?_toUTF8 (s : String) : String.fromUTF8? s.toUTF8 = some s :=
  dif_pos s.isValidUTF8

theorem toUTF8_of_fromUTF8? {content : ByteArray} {text : String}
    (h : String.fromUTF8? content = some text) : text.toUTF8 = content := by
  unfold String.fromUTF8? at h
  split at h
  · obtain rfl := Option.some.inj h
    rfl
  · cases h

end TensorParity
