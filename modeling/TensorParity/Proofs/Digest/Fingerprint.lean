import TensorParity.Fingerprint
import TensorParity.Proofs.Digest.Bytes
import TensorParity.Proofs.Rounding.Bits
import TensorParity.Proofs.Shape

/-!
What fingerprints tell apart. The digest of words is the digest of their bytes, and a step of it loses
nothing, of the state or of the byte: bytes that differ in one place have different digests. The
words of a tensor are those of no other tensor, so a change of one byte of one element shows in its
fingerprint. Elements are any words here, whether doubles have them as bits or not.
-/
namespace TensorParity

/-- Lists of one length that have different items in exactly one place. -/
def DifferOnce {α : Type} (xs ys : List α) : Prop :=
  xs.length = ys.length ∧ ∃! i : Nat, xs[i]? ≠ ys[i]?

namespace DifferOnce

variable {α : Type} {xs ys : List α}

theorem intro {a b : α} (front back : List α) (h : a ≠ b) :
    DifferOnce (front ++ a :: back) (front ++ b :: back) := by
  refine ⟨by simp, front.length, ?_, fun i hi => ?_⟩
  · simpa using h
  · by_contra hother
    apply hi
    rcases Nat.lt_or_gt_of_ne hother with hbefore | hafter
    · rw [List.getElem?_append_left hbefore, List.getElem?_append_left hbefore]
    · obtain ⟨j, rfl⟩ := Nat.exists_eq_add_of_lt hafter
      rw [List.getElem?_append_right (by omega), List.getElem?_append_right (by omega),
        Nat.add_assoc, Nat.add_sub_cancel_left, List.getElem?_cons_succ, List.getElem?_cons_succ]

/-- What stands before the place is the same, and so is what stands after it. -/
theorem split (h : DifferOnce xs ys) :
    ∃ front a b back, a ≠ b ∧ xs = front ++ a :: back ∧ ys = front ++ b :: back := by
  obtain ⟨hlength, i, hi, honly⟩ := h
  have hsame (j : Nat) (hj : j ≠ i) : xs[j]? = ys[j]? := by
    by_contra hne
    exact hj (honly j hne)
  have hx : i < xs.length := by
    by_contra hout
    rw [List.getElem?_eq_none (by omega), List.getElem?_eq_none (by omega)] at hi
    exact hi rfl
  have hy : i < ys.length := hlength ▸ hx
  have hfront : xs.take i = ys.take i := by
    apply List.ext_getElem?
    intro j
    rw [List.getElem?_take, List.getElem?_take]
    split
    · exact hsame j (by omega)
    · rfl
  have hback : xs.drop (i + 1) = ys.drop (i + 1) := by
    apply List.ext_getElem?
    intro j
    rw [List.getElem?_drop, List.getElem?_drop]
    exact hsame _ (by omega)
  refine ⟨xs.take i, xs[i], ys[i], xs.drop (i + 1), ?_, ?_, ?_⟩
  · intro heq
    rw [List.getElem?_eq_getElem hx, List.getElem?_eq_getElem hy, heq] at hi
    exact hi rfl
  · rw [List.getElem_cons_drop, List.take_append_drop]
  · rw [hfront, hback, List.getElem_cons_drop, List.take_append_drop]

end DifferOnce

namespace Fnv

/-- The prime is odd, so multiplying by it can be undone. -/
theorem mul_prime_inj {v w : UInt64} (h : v * prime = w * prime) : v = w := by
  have hinverse : prime * 0xce965057aff6957b = 1 := by decide
  calc
    v = v * prime * 0xce965057aff6957b := by rw [UInt64.mul_assoc, hinverse, UInt64.mul_one]
    _ = w * prime * 0xce965057aff6957b := by rw [h]
    _ = w := by rw [UInt64.mul_assoc, hinverse, UInt64.mul_one]

/-- A step loses nothing of the state. -/
theorem step_inj_state {v w : UInt64} {b : UInt8} (h : step v b = step w b) : v = w := by
  apply (UInt64.xor_left_inj b.toUInt64).mp
  exact mul_prime_inj h

/-- A step loses nothing of the byte. -/
theorem step_inj_byte {v : UInt64} {b c : UInt8} (h : step v b = step v c) : b = c := by
  apply UInt8.toUInt64_inj.mp
  apply (UInt64.xor_right_inj v).mp
  exact mul_prime_inj h

/-- States that differ still differ after the same bytes. -/
theorem foldl_step_inj {v w : UInt64} (rest : List UInt8)
    (h : rest.foldl step v = rest.foldl step w) : v = w := by
  induction rest generalizing v w with
  | nil => exact h
  | cons b rest ih => exact step_inj_state (ih h)

/-- From one state, bytes that differ once lead to different states. -/
theorem foldl_step_ne {xs ys : List UInt8} (h : DifferOnce xs ys) (state : UInt64) :
    xs.foldl step state ≠ ys.foldl step state := by
  obtain ⟨front, a, b, back, hne, rfl, rfl⟩ := h.split
  intro hfolds
  rw [List.foldl_append, List.foldl_append, List.foldl_cons, List.foldl_cons] at hfolds
  exact hne (step_inj_byte (foldl_step_inj back hfolds))

theorem words_eq_bytes (ws : List UInt64) :
    words ws = bytes (ws.flatMap fun w => littleEndian 8 w.toNat) := by
  rw [words, bytes, List.foldl_flatMap]
  rfl

end Fnv

namespace Tensor

/-- The bytes of the elements. -/
def dataBytes (t : Tensor UInt64) : List UInt8 :=
  t.data.toList.flatMap fun w => littleEndian 8 w.toNat

variable {t u : Tensor UInt64}

/-- The rank is told by its word and by the number of words. -/
theorem length_shape_of_words (h : t.words = u.words) : t.shape.length = u.shape.length := by
  have hlength := congrArg List.length h
  simp only [words, List.cons_append, List.length_cons, List.length_append, List.length_map,
    Array.length_toList] at hlength
  obtain ⟨hword, -⟩ := List.cons.inj h
  have hrank : t.shape.length % 2 ^ 64 = u.shape.length % 2 ^ 64 := congrArg UInt64.toNat hword
  have ht : t.data.size < 2 ^ 64 := (Shape.volume_of_numel? t.numel_eq).2
  have hu : u.data.size < 2 ^ 64 := (Shape.volume_of_numel? u.numel_eq).2
  -- ranks that differ would be farther apart than the numbers of elements can be
  omega

/-- Sizes are words, so their words tell them. -/
theorem shape_eq_of_map (h : t.shape.map Nat.toUInt64 = u.shape.map Nat.toUInt64) :
    t.shape = u.shape := by
  have hsizes (s : Tensor UInt64) : (s.shape.map Nat.toUInt64).map UInt64.toNat = s.shape := by
    rw [List.map_map, List.map_congr_left (g := id), List.map_id]
    intro d hd
    exact Nat.mod_eq_of_lt (s.inWords d hd)
  rw [← hsizes t, ← hsizes u, h]

/-- No two tensors have the same words. -/
theorem eq_of_words (h : t.words = u.words) : t = u := by
  have hlength := length_shape_of_words h
  obtain ⟨-, hrest⟩ := List.cons.inj h
  obtain ⟨hshape, hdata⟩ := List.append_inj hrest (by rwa [List.length_map, List.length_map])
  obtain ⟨shape, data, _⟩ := t
  obtain ⟨shape', data', _⟩ := u
  obtain rfl : shape = shape' := shape_eq_of_map hshape
  obtain rfl : data = data' := Array.toList_inj.mp hdata
  rfl

theorem bits_inj {t u : Tensor Float} (h : t.bits = u.bits) : t = u := by
  obtain ⟨shape, data, _⟩ := t
  obtain ⟨shape', data', _⟩ := u
  obtain ⟨rfl, hdata⟩ := Tensor.mk.inj h
  have hinjective (x y : Float) (hxy : x.toBits = y.toBits) : x = y := by
    rw [← ofBits_toBits x, hxy, ofBits_toBits]
  obtain rfl : data = data' := (Array.map_inj_right hinjective).mp hdata
  rfl

/-- Tensors of one shape have the same frame before their elements. -/
theorem words_ne (hshape : t.shape = u.shape) (h : DifferOnce t.dataBytes u.dataBytes) :
    Fnv.words t.words ≠ Fnv.words u.words := by
  rw [Fnv.words_eq_bytes, Fnv.words_eq_bytes, words, words, rank, rank, hshape,
    List.flatMap_append, List.flatMap_append, Fnv.bytes, Fnv.bytes, List.foldl_append,
    List.foldl_append]
  exact Fnv.foldl_step_ne h _

/-- Digests of words are digests of their bytes, and a single byte changes a digest. Words tell the
tensor, down to the bits of its elements, so tensors of one shape that differ in a single byte have
different fingerprints. -/
theorem fingerprint_tells_bytes :
    (∀ ws, Fnv.words ws = Fnv.bytes (ws.flatMap fun w => littleEndian 8 w.toNat)) ∧
      (∀ xs ys, DifferOnce xs ys → Fnv.bytes xs ≠ Fnv.bytes ys) ∧
      (∀ t u : Tensor UInt64, t.words = u.words → t.shape = u.shape ∧ t.data = u.data) ∧
      (∀ t u : Tensor UInt64, t.shape = u.shape → DifferOnce t.dataBytes u.dataBytes →
        Fnv.words t.words ≠ Fnv.words u.words) ∧
      ∀ t u : Tensor Float, (t.bits.words = u.bits.words → t = u) ∧
        (t.shape = u.shape → DifferOnce t.bits.dataBytes u.bits.dataBytes →
          t.fingerprint ≠ u.fingerprint) := by
  refine ⟨Fnv.words_eq_bytes, fun xs ys h => Fnv.foldl_step_ne h _, fun t u h => ?_,
    fun t u hshape h => words_ne hshape h,
    fun t u => ⟨fun h => bits_inj (eq_of_words h), fun hshape h => words_ne hshape h⟩⟩
  rw [eq_of_words h]
  exact ⟨rfl, rfl⟩

def quarters : Tensor Float := ⟨[2], #[0.25, 1.5], by decide⟩

def halves : Tensor Float := ⟨[2], #[0.5, 1.5], by decide⟩

/-- A quarter and a half have one exponent byte that differs. -/
theorem fingerprint_tells_bytes_halves :
    quarters.shape = halves.shape ∧ DifferOnce quarters.bits.dataBytes halves.bits.dataBytes ∧
      quarters.fingerprint ≠ halves.fingerprint := by
  have hquarters : quarters.bits.dataBytes =
      [0, 0, 0, 0, 0, 0] ++ 0xD0 :: [0x3F, 0, 0, 0, 0, 0, 0, 0xF8, 0x3F] := by
    decide +kernel
  have hhalves : halves.bits.dataBytes =
      [0, 0, 0, 0, 0, 0] ++ 0xE0 :: [0x3F, 0, 0, 0, 0, 0, 0, 0xF8, 0x3F] := by
    decide +kernel
  have hbytes : DifferOnce quarters.bits.dataBytes halves.bits.dataBytes := by
    rw [hquarters, hhalves]
    exact DifferOnce.intro _ _ (by decide)
  obtain ⟨-, -, -, -, hdoubles⟩ := fingerprint_tells_bytes
  exact ⟨rfl, hbytes, (hdoubles quarters halves).2 rfl hbytes⟩

end Tensor

end TensorParity
