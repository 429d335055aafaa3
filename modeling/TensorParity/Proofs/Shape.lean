import Mathlib
import TensorParity.Tensor

/-!
Counts, flat positions and coordinates. The element count of a shape is the product of its sizes,
and is there as long as the sizes before the first empty axis have a product that is a word. No span
below such a count saturates, so dividing by the strides yields coordinates inside the shape, the
only ones that lead back to the position, and in the order of the positions.
-/
namespace TensorParity

namespace Shape

/-- One coordinate for each axis, below its size. -/
def Inside (s : Shape) (index : List Nat) : Prop := List.Forall₂ (· < ·) index s

/-- The row-major position of coordinates. The products are exact. -/
def position : Shape → List Nat → Nat
  | _ :: inner, c :: index => c * volume inner + position inner index
  | _, _ => 0

theorem volume_cons (d : Nat) (inner : Shape) : volume (d :: inner) = d * volume inner := rfl

theorem mulWord?_eq_some {n d count : Nat} (h : mulWord? n d = some count) :
    count = n * d ∧ count < wordLimit := by
  unfold mulWord? at h
  split at h
  · rename_i hwords
    obtain rfl := Option.some.inj h
    exact ⟨rfl, hwords.2⟩
  · cases h

/-- Whether every size is a word. -/
def InWords (s : Shape) : Prop := ∀ d ∈ s, d < wordLimit

/-- The axes before the first empty one. -/
def leading (s : Shape) : Shape := s.takeWhile (· ≠ 0)

theorem leading_zero (inner : Shape) : leading (0 :: inner) = [] := rfl

theorem leading_cons {d : Nat} (hd : d ≠ 0) (inner : Shape) :
    leading (d :: inner) = d :: leading inner := by
  simp [leading, hd]

theorem volume_pos {s : Shape} (h : 0 ∉ s) : 0 < volume s := by
  induction s with
  | nil => decide
  | cons d inner ih =>
    obtain ⟨hd, hinner⟩ := List.ne_and_not_mem_of_not_mem_cons h
    exact Nat.mul_pos (Nat.pos_of_ne_zero (Ne.symm hd)) (ih hinner)

theorem volume_eq_zero {s : Shape} (h : 0 ∈ s) : volume s = 0 := by
  induction s with
  | nil => cases h
  | cons d inner ih =>
    rw [volume_cons]
    rcases List.mem_cons.mp h with rfl | h
    · exact Nat.zero_mul _
    · rw [ih h, Nat.mul_zero]

theorem zero_notMem_leading (s : Shape) : 0 ∉ leading s := by
  intro hmem
  simpa using List.mem_takeWhile_imp hmem

theorem leading_eq_self {s : Shape} (h : 0 ∉ s) : leading s = s := by
  apply List.takeWhile_eq_self_iff.mpr
  intro d hd
  have hne : d ≠ 0 := by
    rintro rfl
    exact h hd
  simpa using hne

theorem volume_perm {s s' : Shape} (h : s'.Perm s) : volume s' = volume s := by
  have hproduct : ∀ s : Shape, volume s = s.prod := fun _ => rfl
  rw [hproduct, hproduct, h.prod_eq]

/-- A count that starts from a word is the product. There is one as long as the sizes before the
first empty axis have a product that is a word. -/
theorem foldlM_mulWord?_eq_some_iff {s : Shape} {n count : Nat} (hn : n < wordLimit) :
    s.foldlM mulWord? n = some count ↔
      s.InWords ∧ n * volume (leading s) < wordLimit ∧ count = n * volume s := by
  induction s generalizing n with
  | nil =>
    have hone : n * volume (leading []) = n := Nat.mul_one n
    have hproduct : n * volume [] = n := Nat.mul_one n
    rw [hone, hproduct]
    simp [InWords, hn, eq_comm]
  | cons d inner ih =>
    have hwords : InWords (d :: inner) ↔ d < wordLimit ∧ InWords inner := List.forall_mem_cons
    rw [List.foldlM_cons, hwords, volume_cons, ← Nat.mul_assoc]
    by_cases hd : d = 0
    · subst hd
      have hlimit : 0 < wordLimit := by decide
      have hzero : mulWord? n 0 = some 0 := if_pos ⟨hlimit, hlimit⟩
      rw [hzero, leading_zero, Option.bind_eq_bind, Option.bind_some, ih hlimit]
      simp [volume, hn, hlimit]
    · have hpositive : 0 < volume (leading inner) := volume_pos (zero_notMem_leading inner)
      rw [leading_cons hd, volume_cons, ← Nat.mul_assoc]
      by_cases hstep : d < wordLimit ∧ n * d < wordLimit
      · have hvalue : mulWord? n d = some (n * d) := if_pos hstep
        rw [hvalue, Option.bind_eq_bind, Option.bind_some, ih hstep.2, and_assoc]
        simp [hstep.1]
      · have hvalue : mulWord? n d = none := if_neg hstep
        rw [hvalue]
        simp only [Option.bind_eq_bind, Option.bind_none, reduceCtorEq, false_iff, not_and]
        rintro ⟨hword, -⟩ hleading
        have hle : n * d ≤ n * d * volume (leading inner) := Nat.le_mul_of_pos_right _ hpositive
        omega

theorem numel?_eq_some_iff {s : Shape} {count : Nat} : s.numel? = some count ↔
    s.InWords ∧ volume (leading s) < wordLimit ∧ count = volume s := by
  have hone : 1 < wordLimit := by decide
  rw [numel?, foldlM_mulWord?_eq_some_iff hone, Nat.one_mul, Nat.one_mul]

theorem volume_of_numel? {s : Shape} {count : Nat} (h : s.numel? = some count) :
    volume s = count ∧ count < wordLimit := by
  obtain ⟨-, hleading, rfl⟩ := numel?_eq_some_iff.mp h
  refine ⟨rfl, ?_⟩
  by_cases hzero : 0 ∈ s
  · rw [volume_eq_zero hzero]
    exact Nat.zero_lt_of_lt hleading
  · rwa [leading_eq_self hzero] at hleading

theorem inWords_of_numel? {s : Shape} {count : Nat} (h : s.numel? = some count) : s.InWords :=
  (numel?_eq_some_iff.mp h).1

theorem numel?_eq_none_iff {s : Shape} (hwords : s.InWords) :
    s.numel? = none ↔ wordLimit ≤ volume (leading s) := by
  constructor
  · intro hnone
    by_contra hbelow
    rw [numel?_eq_some_iff.mpr ⟨hwords, Nat.lt_of_not_le hbelow, rfl⟩] at hnone
    cases hnone
  · intro hlimit
    rw [Option.eq_none_iff_forall_ne_some]
    intro count hsome
    obtain ⟨-, hbelow, -⟩ := numel?_eq_some_iff.mp hsome
    omega

/-- The axes that are not empty. -/
def occupied (s : Shape) : Shape := s.filter (· ≠ 0)

theorem zero_notMem_occupied (s : Shape) : 0 ∉ occupied s := by
  intro hmem
  simpa using List.of_mem_filter hmem

theorem volume_leading_le (s : Shape) : volume (leading s) ≤ volume (occupied s) := by
  have hsublist : (leading s).Sublist (occupied s) := by
    have hleading : (leading s).filter (· ≠ 0) = leading s := by
      apply List.filter_eq_self.mpr
      intro d hd
      simpa using List.mem_takeWhile_imp hd
    rw [← hleading]
    exact (List.takeWhile_sublist _).filter _
  exact Nat.le_of_dvd (volume_pos (zero_notMem_occupied s)) hsublist.prod_dvd_prod

/-- An order in which the empty axes come last. -/
theorem exists_perm_leading (s : Shape) : ∃ s' : Shape, s'.Perm s ∧ leading s' = occupied s := by
  refine ⟨s.filter (· ≠ 0) ++ s.filter fun d => !decide (d ≠ 0),
    List.filter_append_perm (fun d => decide (d ≠ 0)) s, ?_⟩
  have hempty : (s.filter fun d => !decide (d ≠ 0)).takeWhile (· ≠ 0) = [] := by
    cases hrest : s.filter fun d => !decide (d ≠ 0) with
    | nil => rfl
    | cons d rest =>
      have hd : d ∈ s.filter fun d => !decide (d ≠ 0) := hrest ▸ List.mem_cons_self
      have hzero : d = 0 := by simpa using (List.mem_filter.mp hd).2
      rw [List.takeWhile_cons_of_neg (by simp [hzero])]
  rw [leading, List.takeWhile_append_of_pos fun d hd => (List.mem_filter.mp hd).2, hempty,
    List.append_nil]
  rfl

/-- Counts shrink with the sizes they take in. -/
theorem numel?_mono {s smaller : Shape} (hle : List.Forall₂ (· ≤ ·) smaller s)
    {n k count : Nat} (hk : k ≤ n) (hcount : s.foldlM mulWord? n = some count) :
    ∃ count', smaller.foldlM mulWord? k = some count' := by
  induction hle generalizing n k with
  | nil => exact ⟨k, rfl⟩
  | @cons d' d smaller s hd _ ih =>
    rw [List.foldlM_cons] at hcount
    obtain ⟨product, hproduct, hrest⟩ := Option.bind_eq_some_iff.mp hcount
    simp only [mulWord?, Option.ite_none_right_eq_some, Option.some.injEq] at hproduct
    obtain ⟨⟨hword, hlimit⟩, rfl⟩ := hproduct
    have hle : k * d' ≤ n * d := Nat.mul_le_mul hk hd
    have hstep : mulWord? k d' = some (k * d') := if_pos ⟨by omega, by omega⟩
    obtain ⟨count', hcount'⟩ := ih hle hrest
    refine ⟨count', ?_⟩
    rw [List.foldlM_cons, hstep]
    exact hcount'

/-- A span is the product of the sizes, or the largest word. -/
theorem span_eq (s : Shape) : span s = min (volume s) (wordLimit - 1) := by
  induction s with
  | nil => rfl
  | cons d inner ih =>
    have hstep : span (d :: inner) = min (span inner * d) (wordLimit - 1) := rfl
    rw [hstep, ih, volume_cons, Nat.mul_comm d]
    rcases Nat.le_total (volume inner) (wordLimit - 1) with hword | hword
    · rw [Nat.min_eq_left hword]
    · rw [Nat.min_eq_right hword]
      rcases Nat.eq_zero_or_pos d with rfl | hd
      · rw [Nat.mul_zero, Nat.mul_zero]
      · rw [Nat.min_eq_right (Nat.le_mul_of_pos_right _ hd),
          Nat.min_eq_right (hword.trans (Nat.le_mul_of_pos_right _ hd))]

theorem position_lt {s : Shape} {index : List Nat} (h : s.Inside index) :
    s.position index < volume s := by
  induction h with
  | nil => decide
  | @cons c d index inner hc _ ih =>
    have hrow : c * volume inner + volume inner ≤ d * volume inner := by
      rw [← Nat.succ_mul]
      exact Nat.mul_le_mul_right _ hc
    rw [position, volume_cons]
    omega

/-- If a shape has elements, so have the axes below the first, and few enough for their span to be
exact. -/
theorem inner_bounds {d : Nat} {inner : Shape} (hword : volume (d :: inner) < wordLimit)
    (hsome : 0 < volume (d :: inner)) :
    0 < volume inner ∧ volume inner < wordLimit ∧ span inner = volume inner := by
  rw [volume_cons] at hword hsome
  have hd : 0 < d := Nat.pos_of_mul_pos_right hsome
  have hinner : volume inner < wordLimit :=
    Nat.lt_of_le_of_lt (Nat.le_mul_of_pos_left _ hd) hword
  refine ⟨Nat.pos_of_mul_pos_left hsome, hinner, ?_⟩
  rw [span_eq]
  exact Nat.min_eq_left (Nat.le_sub_one_of_lt hinner)

/-- The coordinates of a position are the only ones inside the shape that lead back to it. -/
theorem eq_coordinates_iff {s : Shape} {flat : Nat} {index : List Nat}
    (hword : volume s < wordLimit) (hflat : flat < volume s) :
    index = s.coordinates flat ↔ s.Inside index ∧ s.position index = flat := by
  induction s generalizing flat index with
  | nil =>
    obtain rfl : flat = 0 := Nat.lt_one_iff.mp hflat
    constructor
    · rintro rfl
      exact ⟨.nil, rfl⟩
    · rintro ⟨hinside, -⟩
      exact List.forall₂_nil_right_iff.mp hinside
  | cons d inner ih =>
    obtain ⟨hrow, hinner, hspan⟩ := inner_bounds hword (Nat.zero_lt_of_lt hflat)
    rw [volume_cons] at hflat
    have hrest : flat % volume inner < volume inner := Nat.mod_lt _ hrow
    rw [coordinates, hspan]
    constructor
    · rintro rfl
      obtain ⟨hinside, hposition⟩ := (ih hinner hrest).mp rfl
      have hfirst : flat / volume inner < d := Nat.div_lt_of_lt_mul (by rwa [Nat.mul_comm])
      refine ⟨.cons hfirst hinside, ?_⟩
      rw [position, hposition, Nat.mul_comm]
      exact Nat.div_add_mod _ _
    · rintro ⟨hinside, hposition⟩
      obtain _ | ⟨c, index⟩ := index
      · cases hinside
      obtain ⟨-, hinside⟩ := List.forall₂_cons.mp hinside
      have hbelow := position_lt hinside
      rw [position] at hposition
      have hsum : position inner index + volume inner * c = flat := by
        rw [← hposition, Nat.mul_comm, Nat.add_comm]
      obtain ⟨hfirst, hremainder⟩ := (Nat.div_mod_unique hrow).mpr ⟨hsum, hbelow⟩
      rw [hfirst, (ih hinner hrest).mpr ⟨hinside, hremainder.symm⟩]

/-- Divides by one stride after the other and goes on with the remainder. It stops at a stride of
zero. -/
def divideOut? : (strides : List Nat) → Nat → Option (List Nat)
  | [], _ => some []
  | stride :: rest, flat =>
    if stride = 0 then none else (divideOut? rest (flat % stride)).map (flat / stride :: ·)

/-- Coordinates times strides, added up. -/
def dot (index strides : List Nat) : Nat := (List.zipWith (· * ·) index strides).sum

/-- No stride of a shape that has elements is zero, and dividing by them yields the coordinates. -/
theorem divideOut?_strides {s : Shape} (hword : volume s < wordLimit) (hsome : 0 < volume s)
    (flat : Nat) : divideOut? s.strides flat = some (s.coordinates flat) := by
  induction s generalizing flat with
  | nil => rfl
  | cons d inner ih =>
    obtain ⟨hrow, hinner, hspan⟩ := inner_bounds hword hsome
    rw [strides, divideOut?, coordinates, if_neg (by omega), ih hinner hrow]
    rfl

/-- Strides that saturate lead to the exact position, for in a shape that has elements none
does. -/
theorem dot_strides {s : Shape} {index : List Nat} (hword : volume s < wordLimit)
    (hsome : 0 < volume s) : dot index s.strides = s.position index := by
  induction s generalizing index with
  | nil => cases index <;> rfl
  | cons d inner ih =>
    cases index with
    | nil => rfl
    | cons c index =>
      obtain ⟨hrow, hinner, hspan⟩ := inner_bounds hword hsome
      have hrest : dot index (strides inner) = position inner index := ih hinner hrow
      rw [dot] at hrest
      rw [dot, strides, List.zipWith_cons_cons, List.sum_cons, hrest, hspan]
      rfl

/-- Positions are ordered as the coordinates that lead to them. -/
theorem position_lt_position_iff {s : Shape} {index index' : List Nat} (h : s.Inside index)
    (h' : s.Inside index') : s.position index < s.position index' ↔ index < index' := by
  induction h generalizing index' with
  | nil =>
    obtain rfl := List.forall₂_nil_right_iff.mp h'
    simp
  | @cons c d index inner hc hinside ih =>
    obtain _ | ⟨c', index'⟩ := index'
    · cases h'
    obtain ⟨hc', hinside'⟩ := List.forall₂_cons.mp h'
    have hbelow := position_lt hinside
    have hbelow' := position_lt hinside'
    rw [position, position, List.cons_lt_cons_iff, ← ih hinside']
    rcases Nat.lt_trichotomy c c' with hlt | rfl | hlt
    · have hrow : c * volume inner + volume inner ≤ c' * volume inner := by
        rw [← Nat.succ_mul]
        exact Nat.mul_le_mul_right _ hlt
      constructor
      · intro _
        exact .inl hlt
      · intro _
        omega
    · constructor
      · intro hpositions
        exact .inr ⟨rfl, by omega⟩
      · rintro (hlt | ⟨-, hpositions⟩)
        · omega
        · omega
    · have hrow : c' * volume inner + volume inner ≤ c * volume inner := by
        rw [← Nat.succ_mul]
        exact Nat.mul_le_mul_right _ hlt
      constructor
      · intro hpositions
        omega
      · rintro (hsmaller | ⟨rfl, -⟩)
        · omega
        · omega

end Shape

namespace Tensor

variable {α : Type}

theorem inWords (t : Tensor α) : t.shape.InWords :=
  Shape.inWords_of_numel? t.numel_eq

theorem ofArray_data (t : Tensor α) : ofArray t.shape t.data = .ok t := by
  unfold ofArray
  split
  · rename_i h
    simp [t.numel_eq] at h
  · rename_i count h
    obtain rfl : count = t.data.size := by simpa [t.numel_eq] using h.symm
    simp

theorem ofArray_eq_ok {shape : Shape} {data : Array α} {t : Tensor α}
    (h : ofArray shape data = .ok t) : t.shape = shape ∧ t.data = data := by
  unfold ofArray at h
  split at h
  · simp at h
  · split at h
    · obtain rfl := Except.ok.inj h
      exact ⟨rfl, rfl⟩
    · simp at h

/-- As many elements as a shape counts make a tensor. -/
theorem exists_ofArray {shape : Shape} {data : Array α} (h : shape.numel? = some data.size) :
    ∃ t, ofArray shape data = .ok t := by
  refine ⟨⟨shape, data, h⟩, ?_⟩
  exact ofArray_data ⟨shape, data, h⟩

/-- Positions inside a tensor have coordinates, and these are the only ones that lead back. -/
theorem unravel_eq_ok_iff {t : Tensor α} {flat : Nat} (hflat : flat < t.data.size)
    {index : List Nat} :
    t.unravel flat = .ok index ↔ t.shape.Inside index ∧ t.shape.position index = flat := by
  obtain ⟨hvolume, hword⟩ := Shape.volume_of_numel? t.numel_eq
  have hbelow : flat < Shape.volume t.shape := by rwa [hvolume]
  have hvalue : t.unravel flat = .ok (t.shape.coordinates flat) := if_pos hflat
  rw [hvalue, Except.ok.injEq, eq_comm]
  exact Shape.eq_coordinates_iff (by rwa [hvolume]) hbelow

theorem unravel_eq_error_iff {t : Tensor α} {flat : Nat} {e : TensorError} :
    t.unravel flat = .error e ↔ t.numel ≤ flat ∧ e = .positionOutside flat t.numel := by
  unfold unravel
  split
  · simp only [reduceCtorEq, false_iff, not_and]
    intro hle
    omega
  · simp only [Except.error.injEq, eq_comm, iff_and_self]
    omega

theorem lt_of_unravel {t : Tensor α} {flat : Nat} {index : List Nat}
    (h : t.unravel flat = .ok index) : flat < t.numel := by
  by_contra houtside
  rw [unravel_eq_error_iff.mpr ⟨Nat.le_of_not_lt houtside, rfl⟩] at h
  cases h

/-- Exactly the positions inside a tensor have coordinates. These are what dividing by the strides
yields, one inside each axis, they lead back by the strides to the position, and they are ordered
as the positions are. -/
theorem unravel_in_order (t : Tensor α) (flat : Nat) :
    (∀ e, t.unravel flat = .error e ↔ t.numel ≤ flat ∧ e = .positionOutside flat t.numel) ∧
      (flat < t.numel → ∃ index, t.unravel flat = .ok index ∧
        Shape.divideOut? t.shape.strides flat = some index ∧ t.shape.Inside index ∧
        Shape.dot index t.shape.strides = flat) ∧
      ∀ flat' index index', t.unravel flat = .ok index → t.unravel flat' = .ok index' →
        (index = index' ↔ flat = flat') ∧ (index < index' ↔ flat < flat') := by
  obtain ⟨hvolume, hlimit⟩ := Shape.volume_of_numel? t.numel_eq
  have hword : Shape.volume t.shape < Shape.wordLimit := by omega
  refine ⟨fun e => unravel_eq_error_iff, ?_, ?_⟩
  · intro hflat
    have hflat' : flat < t.data.size := hflat
    have hsome : 0 < Shape.volume t.shape := by omega
    have hindex : t.unravel flat = .ok (t.shape.coordinates flat) := if_pos hflat
    obtain ⟨hinside, hposition⟩ := (unravel_eq_ok_iff hflat).mp hindex
    refine ⟨_, hindex, Shape.divideOut?_strides hword hsome flat, hinside, ?_⟩
    rw [Shape.dot_strides hword hsome, hposition]
  · intro flat' index index' h h'
    obtain ⟨hinside, hposition⟩ := (unravel_eq_ok_iff (lt_of_unravel h)).mp h
    obtain ⟨hinside', hposition'⟩ := (unravel_eq_ok_iff (lt_of_unravel h')).mp h'
    constructor
    · constructor
      · rintro rfl
        rw [← hposition, hposition']
      · rintro rfl
        rw [h] at h'
        exact Except.ok.inj h'
    · rw [← Shape.position_lt_position_iff hinside hinside', hposition, hposition']

end Tensor

end TensorParity
