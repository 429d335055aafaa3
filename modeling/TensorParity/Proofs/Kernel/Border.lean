import TensorParity.Kernel.DeformConv2d
import TensorParity.Proofs.Kernel.Loop
import TensorParity.Proofs.Rounding.Numbers

/-!
Border tests of a bilinear sample on doubles. A number that passes them is a position on its axis;
what is no number passes every test and counts as position zero, which an empty axis does not have.
-/
namespace TensorParity

section Guard

variable {α : Type} [Scalar α]

/-- The two whole coordinates around a point. -/
def neighbours (c : α) : List α := [Scalar.floor c, Scalar.floor c + Scalar.ofNat 1]

/-- A pixel, or the zero beyond the border. -/
def guarded (pixel? : Nat → Option α) (height width : Nat) (yy xx : α) : Option α :=
  if Scalar.lt yy (Scalar.ofNat 0) || Scalar.lt xx (Scalar.ofNat 0)
      || Scalar.lt (Scalar.ofNat height - Scalar.ofNat 1) yy
      || Scalar.lt (Scalar.ofNat width - Scalar.ofNat 1) xx then some (Scalar.ofNat 0)
  else pixel? (Scalar.toPosition yy * width + Scalar.toPosition xx)

/-- A sample is missing if one of the four values around its point is. -/
theorem bilinear_eq_none_iff_guarded {pixel? : Nat → Option α} {height width : Nat} {y x : α} :
    bilinear pixel? height width y x = none ↔
      (Scalar.le y (Scalar.ofNat 0 - Scalar.ofNat 1) || Scalar.le (Scalar.ofNat height) y
        || Scalar.le x (Scalar.ofNat 0 - Scalar.ofNat 1) || Scalar.le (Scalar.ofNat width) x) = false ∧
      ∃ yy ∈ neighbours y, ∃ xx ∈ neighbours x, guarded pixel? height width yy xx = none := by
  simp only [neighbours, List.mem_cons, List.not_mem_nil, or_false, exists_eq_or_imp, exists_eq_left]
  cases hearly : Scalar.le y (Scalar.ofNat 0 - Scalar.ofNat 1) || Scalar.le (Scalar.ofNat height) y
      || Scalar.le x (Scalar.ofNat 0 - Scalar.ofNat 1) || Scalar.le (Scalar.ofNat width) x with
  | true =>
    rw [bilinear]
    simp only [hearly]
    simp
  | false =>
    rw [bilinear]
    simp only [hearly, Bool.false_eq_true, if_false, ← guarded.eq_1]
    cases guarded pixel? height width (Scalar.floor y) (Scalar.floor x) <;>
    cases guarded pixel? height width (Scalar.floor y) (Scalar.floor x + Scalar.ofNat 1) <;>
    cases guarded pixel? height width (Scalar.floor y + Scalar.ofNat 1) (Scalar.floor x) <;>
    cases guarded pixel? height width (Scalar.floor y + Scalar.ofNat 1)
      (Scalar.floor x + Scalar.ofNat 1) <;> simp

end Guard

variable {extent height width : Nat} {c y x : Float}

/-- Whether the test before a pixel is read lets a coordinate through. -/
def Reaches (extent : Nat) (c : Float) : Prop :=
  ¬c < Scalar.ofNat 0 ∧ ¬(Scalar.ofNat extent - Scalar.ofNat 1 : Float) < c

/-- Whether a coordinate lies inside, or nowhere. -/
def Passes (extent : Nat) (c : Float) : Prop :=
  c.isNaN ∨ (0 < extent ∧ -1 < c ∧ c < Scalar.ofNat extent)

theorem isNumber_zero : IsNumber (Scalar.ofNat 0) 0 := by
  simpa using IsNumber.ofNat (n := 0) (by decide)

theorem isNumber_one : IsNumber (Scalar.ofNat 1) unitsOfOne := by
  simpa using IsNumber.ofNat (n := 1) (by decide)

theorem isNumber_minusOne : IsNumber (Scalar.ofNat 0 - Scalar.ofNat 1) (-unitsOfOne) := by
  rw [← neg_one_mul]
  exact isNumber_zero.sub isNumber_one (by ring) (by decide)

/-- Minus one as it is written, and not as the kernels compute it. -/
theorem isNumber_literal : IsNumber (-1) (-unitsOfOne) := by
  decide +kernel

theorem isNumber_last (hextent : extent < 2 ^ 53) :
    IsNumber (Scalar.ofNat extent - Scalar.ofNat 1) ((extent - 1) * unitsOfOne) := by
  have hbound : |((extent : ℤ) - 1)| < 2 ^ 53 := by
    rw [abs_lt]
    omega
  exact (IsNumber.ofNat hextent).sub isNumber_one (by ring) hbound

/-- Numbers reach the pixels from the first to the last. -/
theorem IsNumber.reaches_iff {n : ℤ} (hc : IsNumber c n) (hextent : extent < 2 ^ 53) :
    Reaches extent c ↔ 0 ≤ n ∧ n ≤ (extent - 1) * unitsOfOne := by
  rw [Reaches, hc.lt_iff isNumber_zero, (isNumber_last hextent).lt_iff hc, not_lt, not_lt]

theorem reaches_of_isNaN (hc : c.isNaN) (extent : Nat) : Reaches extent c :=
  ⟨(not_lt_of_isNaN hc _).1, (not_lt_of_isNaN hc _).2⟩

/-- Unless the axis is empty, what reaches a pixel is a position. -/
theorem toPosition_lt (hextent : extent < 2 ^ 53) (hpositive : 0 < extent)
    (hc : Reaches extent c) : Scalar.toPosition c < extent := by
  rcases isNaN_or_isNumber isNumber_zero (isNumber_last hextent) hc.1 hc.2 with hnan | ⟨n, hn⟩
  · change c.toUInt64.toNat < extent
    rwa [toUInt64_of_isNaN hnan]
  · obtain ⟨hlow, hhigh⟩ := (hn.reaches_iff hextent).mp hc
    have hone : (0 : ℤ) < unitsOfOne := Int.natCast_pos.mpr unitsOfOne_pos
    have hbelow : n < extent * unitsOfOne := by linarith
    have hword : n < 2 ^ 64 * unitsOfOne := by
      have hlimit : (extent : ℤ) * unitsOfOne < 2 ^ 64 * unitsOfOne := by
        apply Int.mul_lt_mul_of_pos_right _ hone
        omega
      exact hbelow.trans hlimit
    have hquotient := Int.ediv_lt_of_lt_mul hone hbelow
    change c.toUInt64.toNat < extent
    rw [hn.toUInt64 hlow hword]
    omega

/-- A coordinate that is not one pixel outside has a neighbour that reaches a pixel exactly when it
lies inside or nowhere. -/
theorem exists_reaches_iff (hextent : extent < 2 ^ 53)
    (hlow : ¬c ≤ Scalar.ofNat 0 - Scalar.ofNat 1) (hhigh : ¬Scalar.ofNat extent ≤ c) :
    (∃ neighbour ∈ neighbours c, Reaches extent neighbour) ↔ Passes extent c := by
  have hupper : IsNumber (Scalar.ofNat extent) (extent * unitsOfOne) := IsNumber.ofNat hextent
  simp only [neighbours, List.mem_cons, List.not_mem_nil, or_false, exists_eq_or_imp,
    exists_eq_left]
  rcases isNaN_or_isNumber isNumber_minusOne hupper (fun h => hlow (le_of_lt h))
    (fun h => hhigh (le_of_lt h)) with hnan | ⟨n, hn⟩
  · exact iff_of_true (.inl (reaches_of_isNaN (isNaN_floor hnan) extent)) (.inl hnan)
  · rw [hn.le_iff isNumber_minusOne, not_le] at hlow
    rw [hupper.le_iff hn, not_le] at hhigh
    have hone : (0 : ℤ) < unitsOfOne := Int.natCast_pos.mpr unitsOfOne_pos
    have hquotient := Int.ediv_lt_of_lt_mul hone hhigh
    have hleast : -1 ≤ n / unitsOfOne := Int.le_ediv_of_mul_le hone (by linarith)
    have hfloor : IsNumber (Scalar.floor c) (n / unitsOfOne * unitsOfOne) := hn.floor
    have hbound : |(n / unitsOfOne + 1 : ℤ)| < 2 ^ 53 := by
      rw [abs_lt]
      omega
    have hnext := hfloor.add isNumber_one (by ring) hbound
    have hpasses : Passes extent c ↔ 0 < extent := by
      rw [Passes, isNumber_literal.lt_iff hn, hn.lt_iff hupper]
      exact ⟨fun h => (h.resolve_left hn.not_isNaN).1, fun h => .inr ⟨h, hlow, hhigh⟩⟩
    have hscale (k : ℤ) : 0 ≤ k * unitsOfOne ∧ k * unitsOfOne ≤ (extent - 1) * unitsOfOne ↔
        0 ≤ k ∧ k ≤ extent - 1 := by
      rw [mul_le_mul_iff_left₀ hone, mul_nonneg_iff_of_pos_right hone]
    rw [hfloor.reaches_iff hextent, hnext.reaches_iff hextent, hscale, hscale, hpasses]
    omega

/-- What lies inside or nowhere is not one pixel outside. -/
theorem Passes.not_outside (hextent : extent < 2 ^ 53) (h : Passes extent c) :
    ¬c ≤ (Scalar.ofNat 0 - Scalar.ofNat 1 : Float) ∧ ¬Scalar.ofNat extent ≤ c := by
  rcases h with hnan | ⟨-, hlow, hhigh⟩
  · exact ⟨(not_le_of_isNaN hnan _).1, (not_le_of_isNaN hnan _).2⟩
  · have hupper : IsNumber (Scalar.ofNat extent) (extent * unitsOfOne) := IsNumber.ofNat hextent
    obtain ⟨n, hn⟩ := exists_isNumber_of_lt_of_lt isNumber_literal hupper hlow hhigh
    rw [isNumber_literal.lt_iff hn] at hlow
    rw [hn.lt_iff hupper] at hhigh
    rw [hn.le_iff isNumber_minusOne, hupper.le_iff hn, not_le, not_le]
    exact ⟨hlow, hhigh⟩

section Sample

variable {pixel? : Nat → Option Float} (hpixel : ∀ i < height * width, (pixel? i).isSome)
  (hbeyond : ∀ i, height * width ≤ i → pixel? i = none) (hheight : height < 2 ^ 53)
  (hwidth : width < 2 ^ 53)
include hpixel hbeyond hheight hwidth

/-- What the border tests let through is a pixel, unless there are none. -/
theorem guarded_eq_none_iff (yy xx : Float) : guarded pixel? height width yy xx = none ↔
    height * width = 0 ∧ Reaches height yy ∧ Reaches width xx := by
  have htest (a b : Float) : Scalar.lt a b = true ↔ a < b := decide_eq_true_iff
  simp only [guarded, Bool.or_eq_true, htest]
  split
  · rename_i hstopped
    refine iff_of_false (by simp) fun ⟨_, hy, hx⟩ => ?_
    rcases hstopped with ((h | h) | h) | h
    · exact hy.1 h
    · exact hx.1 h
    · exact hy.2 h
    · exact hx.2 h
  · rename_i hopen
    simp only [not_or] at hopen
    obtain ⟨⟨⟨hy, hx⟩, hy'⟩, hx'⟩ := hopen
    have hrow : Reaches height yy := ⟨hy, hy'⟩
    have hcolumn : Reaches width xx := ⟨hx, hx'⟩
    rcases Nat.eq_zero_or_pos (height * width) with hempty | hpositive
    · exact iff_of_true (hbeyond _ (hempty ▸ Nat.zero_le _)) ⟨hempty, hrow, hcolumn⟩
    · have hi := toPosition_lt hheight (Nat.pos_of_mul_pos_right hpositive) hrow
      have hj := toPosition_lt hwidth (Nat.pos_of_mul_pos_left hpositive) hcolumn
      have hsome := hpixel _ (row_add_lt hi hj)
      exact iff_of_false (Option.isSome_iff_ne_none.mp hsome) fun h => hpositive.ne' h.1

/-- A sample leaves a plane that holds all its pixels exactly when the plane is empty and both
coordinates lie inside or nowhere. -/
theorem bilinear_eq_none_iff : bilinear pixel? height width y x = none ↔
    height * width = 0 ∧ Passes height y ∧ Passes width x := by
  have htest (a b : Float) : Scalar.le a b = false ↔ ¬a ≤ b := decide_eq_false_iff_not
  have hsample := guarded_eq_none_iff hpixel hbeyond hheight hwidth
  simp only [bilinear_eq_none_iff_guarded, hsample, Bool.or_eq_false_iff, htest]
  constructor
  · rintro ⟨⟨⟨⟨hlow, hhigh⟩, hleft⟩, hright⟩, yy, hyy, xx, hxx, hempty, hrow, hcolumn⟩
    have hy := (exists_reaches_iff hheight hlow hhigh).mp ⟨yy, hyy, hrow⟩
    have hx := (exists_reaches_iff hwidth hleft hright).mp ⟨xx, hxx, hcolumn⟩
    exact ⟨hempty, hy, hx⟩
  · rintro ⟨hempty, hy, hx⟩
    obtain ⟨hlow, hhigh⟩ := hy.not_outside hheight
    obtain ⟨hleft, hright⟩ := hx.not_outside hwidth
    obtain ⟨yy, hyy, hrow⟩ := (exists_reaches_iff hheight hlow hhigh).mpr hy
    obtain ⟨xx, hxx, hcolumn⟩ := (exists_reaches_iff hwidth hleft hright).mpr hx
    exact ⟨⟨⟨⟨hlow, hhigh⟩, hleft⟩, hright⟩, yy, hyy, xx, hxx, hempty, hrow, hcolumn⟩

end Sample

end TensorParity
