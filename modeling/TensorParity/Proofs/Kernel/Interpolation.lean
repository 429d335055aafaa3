import TensorParity.Kernel.DeformConv2d
import TensorParity.Proofs.Kernel.Elements

/-!
Bilinear samples in exact arithmetic. A sample is the mean of the four pixels around a point,
weighted by its distances to them, in a plane that continues with zeros beyond its border; the
early answer for points outside agrees with that mean. It is also a sum over all pixels: a pixel
weighs on a point by the product of two tents, one along each axis, that fall from one at the pixel
to zero at its neighbours, and a point has at most two pixels with weight along an axis.
-/
namespace TensorParity

/-- Exact arithmetic. -/
instance : Scalar ℚ where
  ofNat n := n
  floor x := ⌊x⌋
  toPosition x := ⌊x⌋.toNat
  le a b := decide (a ≤ b)
  lt a b := decide (a < b)

theorem scalar_ofNat (n : Nat) : (Scalar.ofNat n : ℚ) = n := rfl

theorem scalar_one : (Scalar.ofNat 1 : ℚ) = 1 := Nat.cast_one

theorem scalar_floor (x : ℚ) : Scalar.floor x = ((⌊x⌋ : ℤ) : ℚ) := rfl

theorem scalar_toPosition (i : ℤ) : Scalar.toPosition (i : ℚ) = i.toNat :=
  congrArg Int.toNat (Int.floor_intCast i)

theorem scalar_le (a b : ℚ) : Scalar.le a b = decide (a ≤ b) := rfl

theorem scalar_lt (a b : ℚ) : Scalar.lt a b = decide (a < b) := rfl

/-- A plane of pixels with zeros beyond its border. -/
def padded (pixel : Nat → ℚ) (height width : Nat) (i j : ℤ) : ℚ :=
  if 0 ≤ i ∧ i < height ∧ 0 ≤ j ∧ j < width then pixel (i.toNat * width + j.toNat) else 0

/-- The mean of the four pixels around a point, by its distances to them. -/
def interpolate (pixel : ℤ → ℤ → ℚ) (y x : ℚ) : ℚ :=
  (1 - Int.fract y) * (1 - Int.fract x) * pixel ⌊y⌋ ⌊x⌋
    + (1 - Int.fract y) * Int.fract x * pixel ⌊y⌋ (⌊x⌋ + 1)
    + Int.fract y * (1 - Int.fract x) * pixel (⌊y⌋ + 1) ⌊x⌋
    + Int.fract y * Int.fract x * pixel (⌊y⌋ + 1) (⌊x⌋ + 1)

/-- At a pixel the mean is that pixel. -/
theorem interpolate_intCast (pixel : ℤ → ℤ → ℚ) (i j : ℤ) :
    interpolate pixel (i : ℚ) (j : ℚ) = pixel i j := by
  simp [interpolate]

section Planes

variable {pixel : Nat → ℚ} {height width : Nat}

theorem padded_of_outside {i j : ℤ} (h : ¬(0 ≤ i ∧ i < height ∧ 0 ≤ j ∧ j < width)) :
    padded pixel height width i j = 0 :=
  if_neg h

/-- A coordinate one pixel or more outside has no weight on a pixel inside. -/
theorem floor_of_outside {extent : Nat} {y : ℚ} (h : y ≤ -1 ∨ extent ≤ y) :
    ¬(0 ≤ ⌊y⌋ ∧ ⌊y⌋ < (extent : ℤ)) ∧
      (Int.fract y = 0 ∨ ¬(0 ≤ ⌊y⌋ + 1 ∧ ⌊y⌋ + 1 < (extent : ℤ))) := by
  rcases h with h | h
  · have hfloor : ⌊y⌋ ≤ -1 := by exact_mod_cast (Int.floor_le y).trans h
    refine ⟨by omega, ?_⟩
    rcases h.eq_or_lt with rfl | hlt
    · exact .inl (by simp)
    · have hlow : ⌊y⌋ < -1 := Int.floor_lt.mpr (by exact_mod_cast hlt)
      exact .inr (by omega)
  · have hfloor : (extent : ℤ) ≤ ⌊y⌋ := Int.le_floor.mpr (by exact_mod_cast h)
    exact ⟨by omega, .inr (by omega)⟩

/-- One pixel or more beyond the border every mean is zero. -/
theorem interpolate_of_outside {y x : ℚ}
    (h : (y ≤ -1 ∨ height ≤ y) ∨ x ≤ -1 ∨ width ≤ x) :
    interpolate (padded pixel height width) y x = 0 := by
  rcases h with h | h
  · obtain ⟨hrow, hnext⟩ := floor_of_outside h
    have hupper (j : ℤ) : padded pixel height width ⌊y⌋ j = 0 :=
      padded_of_outside fun hj => hrow ⟨hj.1, hj.2.1⟩
    have hlower (j : ℤ) : Int.fract y * padded pixel height width (⌊y⌋ + 1) j = 0 :=
      mul_eq_zero.mpr (hnext.imp_right fun hout => padded_of_outside fun hj => hout ⟨hj.1, hj.2.1⟩)
    rw [interpolate, hupper, hupper]
    linear_combination (1 - Int.fract x) * hlower ⌊x⌋ + Int.fract x * hlower (⌊x⌋ + 1)
  · obtain ⟨hcolumn, hnext⟩ := floor_of_outside h
    have hleft (i : ℤ) : padded pixel height width i ⌊x⌋ = 0 :=
      padded_of_outside fun hj => hcolumn hj.2.2
    have hright (i : ℤ) : Int.fract x * padded pixel height width i (⌊x⌋ + 1) = 0 :=
      mul_eq_zero.mpr (hnext.imp_right fun hout => padded_of_outside fun hj => hout hj.2.2)
    rw [interpolate, hleft, hleft]
    linear_combination (1 - Int.fract y) * hright ⌊y⌋ + Int.fract y * hright (⌊y⌋ + 1)

/-- A pixel of the plane, or the zero beyond its border, is what a kernel reads there. -/
theorem sample_eq {pixel? : Nat → Option ℚ}
    (hpixel : ∀ i < height * width, pixel? i = some (pixel i)) (i j : ℤ) :
    (if Scalar.lt (i : ℚ) (Scalar.ofNat 0) || Scalar.lt (j : ℚ) (Scalar.ofNat 0)
        || Scalar.lt (Scalar.ofNat height - Scalar.ofNat 1) (i : ℚ)
        || Scalar.lt (Scalar.ofNat width - Scalar.ofNat 1) (j : ℚ) then some (Scalar.ofNat 0)
      else pixel? (Scalar.toPosition (i : ℚ) * width + Scalar.toPosition (j : ℚ))) =
      some (padded pixel height width i j) := by
  have hlast (k : ℤ) (n : Nat) : (n : ℚ) - 1 < k ↔ ¬k < (n : ℤ) := by
    rw [← Int.cast_natCast, ← Int.cast_one, ← Int.cast_sub, Int.cast_lt]
    omega
  simp only [scalar_lt, scalar_ofNat, scalar_toPosition, Nat.cast_zero, Nat.cast_one, hlast,
    Int.cast_lt_zero, Bool.or_eq_true, decide_eq_true_eq]
  by_cases hinside : 0 ≤ i ∧ i < height ∧ 0 ≤ j ∧ j < width
  · rw [if_neg (by omega), padded, if_pos hinside]
    exact hpixel _ (row_add_lt (by omega) (by omega))
  · rw [if_pos (by omega), padded_of_outside hinside]

/-- Samples of a plane that holds all its pixels. -/
theorem bilinear_eq {pixel? : Nat → Option ℚ}
    (hpixel : ∀ i < height * width, pixel? i = some (pixel i)) (y x : ℚ) :
    bilinear pixel? height width y x = some (interpolate (padded pixel height width) y x) := by
  have hnext (i : ℤ) : (i : ℚ) + Scalar.ofNat 1 = ((i + 1 : ℤ) : ℚ) := by
    rw [Int.cast_add, Int.cast_one]
    rfl
  simp only [bilinear, scalar_floor, hnext, sample_eq hpixel]
  split
  · rename_i houtside
    have hminus : (Scalar.ofNat 0 - Scalar.ofNat 1 : ℚ) = -1 := zero_sub 1
    rw [hminus] at houtside
    simp only [scalar_le, scalar_ofNat, Bool.or_eq_true, decide_eq_true_eq] at houtside
    rw [interpolate_of_outside (by tauto)]
    exact congrArg some Nat.cast_zero
  · rw [scalar_one]
    rfl

end Planes

/-- Weight of a pixel on a point at this distance along one axis. -/
def tent (distance : ℚ) : ℚ := max 0 (1 - |distance|)

/-- The sum over all pixels, each with its weight on a point. -/
def tentSum (pixel : Nat → Nat → ℚ) (height width : Nat) (y x : ℚ) : ℚ :=
  ∑ i ∈ Finset.range height, ∑ j ∈ Finset.range width, pixel i j * tent (y - i) * tent (x - j)

/-- A row of values with zeros on both sides. -/
def within (extent : Nat) (f : Nat → ℚ) (k : ℤ) : ℚ :=
  if 0 ≤ k ∧ k < extent then f k.toNat else 0

/-- Only the coordinates next to a point on both sides have weight on it. -/
theorem tent_sub (y : ℚ) (i : ℤ) :
    tent (y - i) = (if i = ⌊y⌋ then 1 - Int.fract y else 0) +
      (if i = ⌊y⌋ + 1 then Int.fract y else 0) := by
  have hlow : 0 ≤ Int.fract y := Int.fract_nonneg y
  have hhigh : Int.fract y < 1 := Int.fract_lt_one y
  have hy : y = ⌊y⌋ + Int.fract y := (Int.floor_add_fract y).symm
  rcases lt_trichotomy i ⌊y⌋ with hbelow | rfl | habove
  · -- a coordinate below the floor is at least one away
    have hdistance : (i : ℚ) + 1 ≤ ⌊y⌋ := by exact_mod_cast hbelow
    have hpositive : 0 ≤ y - i := by linarith
    rw [if_neg (by omega), if_neg (by omega), add_zero, tent, abs_of_nonneg hpositive]
    exact max_eq_left (by linarith)
  · have hdistance : y - ⌊y⌋ = Int.fract y := rfl
    rw [if_pos rfl, if_neg (by omega), add_zero, tent, hdistance, abs_of_nonneg hlow]
    exact max_eq_right (by linarith)
  · rcases (show ⌊y⌋ + 1 ≤ i by omega).eq_or_lt with rfl | hbeyond
    · have hdistance : y - ((⌊y⌋ + 1 : ℤ) : ℚ) = -(1 - Int.fract y) := by
        push_cast
        linarith
      rw [if_neg (by omega), if_pos rfl, zero_add, tent, hdistance, abs_neg,
        abs_of_nonneg (by linarith)]
      rw [max_eq_right (by linarith)]
      ring
    · have hdistance : (⌊y⌋ : ℚ) + 1 + 1 ≤ i := by exact_mod_cast hbeyond
      have hnegative : y - i ≤ 0 := by linarith
      rw [if_neg (by omega), if_neg (by omega), add_zero, tent, abs_of_nonpos hnegative]
      exact max_eq_left (by linarith)

/-- One value picked out of a row. -/
theorem sum_pick (f : Nat → ℚ) (extent : Nat) (k : ℤ) (weight : ℚ) :
    (∑ i ∈ Finset.range extent, f i * if (i : ℤ) = k then weight else 0) =
      weight * within extent f k := by
  by_cases hk : 0 ≤ k ∧ k < extent
  · have hmem : k.toNat ∈ Finset.range extent := Finset.mem_range.mpr (by omega)
    rw [Finset.sum_eq_single_of_mem k.toNat hmem, if_pos (Int.toNat_of_nonneg hk.1), within,
      if_pos hk, mul_comm]
    intro i _ hi
    rw [if_neg (by omega), mul_zero]
  · rw [within, if_neg hk, mul_zero]
    apply Finset.sum_eq_zero
    intro i hi
    have hbelow : i < extent := Finset.mem_range.mp hi
    rw [if_neg (by omega), mul_zero]

/-- A weighted row is the mean of the values on both sides of a point. -/
theorem sum_tent (f : Nat → ℚ) (extent : Nat) (y : ℚ) :
    ∑ i ∈ Finset.range extent, f i * tent (y - i) =
      (1 - Int.fract y) * within extent f ⌊y⌋ + Int.fract y * within extent f (⌊y⌋ + 1) := by
  rw [← sum_pick, ← sum_pick, ← Finset.sum_add_distrib]
  apply Finset.sum_congr rfl
  intro i _
  rw [← mul_add, ← tent_sub, Int.cast_natCast]

theorem padded_eq_within (pixel : Nat → ℚ) (height width : Nat) (i j : ℤ) :
    padded pixel height width i j =
      within height (fun i => within width (fun j => pixel (i * width + j)) j) i := by
  by_cases hi : 0 ≤ i ∧ i < height
  · by_cases hj : 0 ≤ j ∧ j < width
    · rw [padded, within, within, if_pos hi, if_pos hj, if_pos ⟨hi.1, hi.2, hj⟩]
    · rw [padded, within, within, if_pos hi, if_neg hj, if_neg (fun h => hj h.2.2)]
  · rw [padded, within, if_neg hi, if_neg (fun h => hi ⟨h.1, h.2.1⟩)]

/-- The mean of the four pixels around a point is the weighted sum of all pixels. -/
theorem interpolate_padded (pixel : Nat → ℚ) (height width : Nat) (y x : ℚ) :
    interpolate (padded pixel height width) y x =
      tentSum (fun i j => pixel (i * width + j)) height width y x := by
  have hrow (i : Nat) : ∑ j ∈ Finset.range width,
      pixel (i * width + j) * tent (y - i) * tent (x - j) =
        ((1 - Int.fract x) * within width (fun j => pixel (i * width + j)) ⌊x⌋ +
          Int.fract x * within width (fun j => pixel (i * width + j)) (⌊x⌋ + 1)) * tent (y - i) := by
    rw [← sum_tent, Finset.sum_mul]
    apply Finset.sum_congr rfl
    intro j _
    ring
  have hlinear (k : ℤ) : within height (fun i =>
      (1 - Int.fract x) * within width (fun j => pixel (i * width + j)) ⌊x⌋ +
        Int.fract x * within width (fun j => pixel (i * width + j)) (⌊x⌋ + 1)) k =
      (1 - Int.fract x) * padded pixel height width k ⌊x⌋ +
        Int.fract x * padded pixel height width k (⌊x⌋ + 1) := by
    rw [padded_eq_within, padded_eq_within]
    simp only [within]
    split
    · rfl
    · rw [mul_zero, mul_zero, add_zero]
  simp only [tentSum, hrow]
  rw [sum_tent, hlinear, hlinear, interpolate]
  ring

/-- A mean exceeds no bound on the pixels it is taken of. -/
theorem abs_interpolate_le {pixel : ℤ → ℤ → ℚ} {bound : ℚ} (h : ∀ i j, |pixel i j| ≤ bound)
    (y x : ℚ) : |interpolate pixel y x| ≤ bound := by
  have hmean {t a b : ℚ} (hlow : 0 ≤ t) (hhigh : t ≤ 1) (ha : |a| ≤ bound) (hb : |b| ≤ bound) :
      |(1 - t) * a + t * b| ≤ bound := by
    rw [abs_le] at ha hb ⊢
    constructor
    · nlinarith [mul_le_mul_of_nonneg_left ha.1 (sub_nonneg.mpr hhigh),
        mul_le_mul_of_nonneg_left hb.1 hlow]
    · nlinarith [mul_le_mul_of_nonneg_left ha.2 (sub_nonneg.mpr hhigh),
        mul_le_mul_of_nonneg_left hb.2 hlow]
  have hy : Int.fract y ≤ 1 := (Int.fract_lt_one y).le
  have hx : Int.fract x ≤ 1 := (Int.fract_lt_one x).le
  have hrow (i : ℤ) := hmean (Int.fract_nonneg x) hx (h i ⌊x⌋) (h i (⌊x⌋ + 1))
  have hrows := hmean (Int.fract_nonneg y) hy (hrow ⌊y⌋) (hrow (⌊y⌋ + 1))
  have hsplit : interpolate pixel y x =
      (1 - Int.fract y) * ((1 - Int.fract x) * pixel ⌊y⌋ ⌊x⌋ + Int.fract x * pixel ⌊y⌋ (⌊x⌋ + 1)) +
        Int.fract y * ((1 - Int.fract x) * pixel (⌊y⌋ + 1) ⌊x⌋ +
          Int.fract x * pixel (⌊y⌋ + 1) (⌊x⌋ + 1)) := by
    rw [interpolate]
    ring
  rwa [hsplit]

theorem abs_padded_le {plane : Array ℚ} {height width : Nat} {bound : ℚ}
    (hsize : plane.size = height * width) (hbound : 0 ≤ bound) (h : ∀ p ∈ plane, |p| ≤ bound)
    (i j : ℤ) : |padded (read plane) height width i j| ≤ bound := by
  rw [padded]
  split
  · rename_i hinside
    have hpixel : i.toNat * width + j.toNat < plane.size := by
      rw [hsize]
      exact row_add_lt (by omega) (by omega)
    rw [read, Array.getElem?_eq_getElem hpixel, Option.getD_some]
    exact h _ (Array.getElem_mem hpixel)
  · rwa [abs_zero]

/-- A plane that holds its pixels is sampled at every point, as the sum over all pixels weighted by
two tents. One pixel beyond the border the sample is zero, at a pixel it is the pixel, and nowhere
does it exceed what all pixels stay below. -/
theorem bilinear_eq_tentSum (plane : Array ℚ) (height width : Nat)
    (hsize : plane.size = height * width) (y x : ℚ) :
    ∃ value, bilinear (fun i => plane[i]?) height width y x = some value ∧
      value = tentSum (fun i j => read plane (i * width + j)) height width y x ∧
      (¬((-1 < y ∧ y < height) ∧ -1 < x ∧ x < width) → value = 0) ∧
      (∀ i < height, ∀ j < width, y = i → x = j → plane[i * width + j]? = some value) ∧
      ∀ bound, 0 ≤ bound → (∀ p ∈ plane, |p| ≤ bound) → |value| ≤ bound := by
  have hpixel : ∀ i < height * width, plane[i]? = some (read plane i) := by
    intro i hi
    exact getElem?_eq_read (hsize ▸ hi)
  refine ⟨_, bilinear_eq hpixel y x, interpolate_padded _ _ _ _ _, ?_, ?_, ?_⟩
  · intro houtside
    apply interpolate_of_outside
    simp only [not_and_or, not_lt] at houtside
    exact houtside
  · rintro i hi j hj rfl rfl
    have hinside : 0 ≤ (i : ℤ) ∧ (i : ℤ) < height ∧ 0 ≤ (j : ℤ) ∧ (j : ℤ) < width := by omega
    rw [← Int.cast_natCast i, ← Int.cast_natCast j, interpolate_intCast, padded, if_pos hinside]
    exact hpixel _ (row_add_lt hi hj)
  · intro bound hbound hall
    exact abs_interpolate_le (abs_padded_le hsize hbound hall) y x

/-- A point above the upper border of four pixels, and one of the pixels. -/
theorem bilinear_eq_tentSum_square :
    let plane : Array ℚ := #[1, 2, 3, 4]
    plane.size = 2 * 2 ∧
      bilinear (fun i => plane[i]?) 2 2 (-1 / 2) (1 / 4) = some (5 / 8) ∧
      tentSum (fun i j => read plane (i * 2 + j)) 2 2 (-1 / 2) (1 / 4) = 5 / 8 ∧
      bilinear (fun i => plane[i]?) 2 2 1 0 = some 3 := by
  intro plane
  obtain ⟨value, hvalue, hsum, -⟩ :=
    bilinear_eq_tentSum plane 2 2 rfl (-1 / 2) (1 / 4)
  obtain ⟨pixel, hpixel, -, -, hat, -⟩ :=
    bilinear_eq_tentSum plane 2 2 rfl 1 0
  have hmiddle : value = 5 / 8 := by
    rw [hsum]
    decide +kernel
  have hcorner := hat 1 (by decide) 0 (by decide) Nat.cast_one.symm Nat.cast_zero.symm
  refine ⟨rfl, hvalue.trans (congrArg some hmiddle), hsum.symm.trans hmiddle, ?_⟩
  rw [hpixel, ← hcorner]
  rfl

end TensorParity
