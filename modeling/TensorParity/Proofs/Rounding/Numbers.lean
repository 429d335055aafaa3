import TensorParity.Kernel.Scalar
import TensorParity.Proofs.Rounding.Units

/-!
Doubles as numbers. Arithmetic on whole numbers below `2 ^ 53`, order, truncation and floor of
doubles are those of the numbers they stand for; what is no number takes part in no comparison and
makes every sum it enters no number.
-/
namespace TensorParity

open Float.Model Float.Model.UnpackedFloat

/-- A double that stands for a number, counted in the smallest positive double. -/
def IsNumber (x : Float) (n : ℤ) : Prop := number x.toModel.unpack = some n

instance (x : Float) (n : ℤ) : Decidable (IsNumber x n) :=
  inferInstanceAs (Decidable (number x.toModel.unpack = some n))

variable {x y : Float} {p q j : ℤ}

theorem isNaN_iff : x.isNaN = true ↔ x.toModel.unpack = .notANumber := by
  change x.toModel.unpack.isNaN = true ↔ _
  cases x.toModel.unpack <;> simp [UnpackedFloat.isNaN]

namespace IsNumber

theorem not_isNaN (hx : IsNumber x p) : ¬x.isNaN := by
  intro hnan
  rw [IsNumber, isNaN_iff.mp hnan] at hx
  cases hx

theorem compare_eq (hx : IsNumber x p) (hy : IsNumber y q) :
    x.toModel.unpack.compare y.toModel.unpack = some (compare p q) :=
  compare_number (sound_unpack x) (sound_unpack y) hx hy

theorem lt_iff (hx : IsNumber x p) (hy : IsNumber y q) : x < y ↔ p < q := by
  change decide ((x.toModel.unpack.compare y.toModel.unpack == some .lt) = true) = true ↔ _
  rw [hx.compare_eq hy, decide_eq_true_iff, beq_iff_eq, Option.some.injEq, compare_lt_iff_lt]

theorem le_iff (hx : IsNumber x p) (hy : IsNumber y q) : x ≤ y ↔ p ≤ q := by
  change decide ((x.toModel.unpack.compare y.toModel.unpack).any (·.isLE) = true) = true ↔ _
  rw [hx.compare_eq hy, decide_eq_true_iff, Option.any_some, Ordering.isLE_iff_ne_gt]
  exact compare_le_iff_le

/-- Numbers are ordered: what is not below is at least as large. -/
theorem not_lt_iff (hx : IsNumber x p) (hy : IsNumber y q) : ¬x < y ↔ y ≤ x := by
  rw [hx.lt_iff hy, hy.le_iff hx, not_lt]

theorem beq_iff (hx : IsNumber x p) (hy : IsNumber y q) : (x == y) = true ↔ p = q := by
  change (x.toModel.unpack.compare y.toModel.unpack == some .eq) = true ↔ _
  rw [hx.compare_eq hy, beq_iff_eq, Option.some.injEq, compare_eq_iff_eq]

theorem of_pack {a : UnpackedFloat} (h : Sound a ∧ number a = some p) :
    IsNumber (.ofModel (.pack a)) p := by
  rw [IsNumber, unpack_pack h.1]
  exact h.2

theorem add (hx : IsNumber x p) (hy : IsNumber y q) (hsum : p + q = j * unitsOfOne)
    (hj : |j| < 2 ^ 53) : IsNumber (x + y) (j * unitsOfOne) :=
  of_pack (add_eq (sound_unpack x) (sound_unpack y) hx hy hsum hj)

theorem sub (hx : IsNumber x p) (hy : IsNumber y q) (hdifference : p - q = j * unitsOfOne)
    (hj : |j| < 2 ^ 53) : IsNumber (x - y) (j * unitsOfOne) := by
  have hsum := add_eq (sound_unpack x) (sound_neg (sound_unpack y)) hx (number_neg hy) hdifference hj
  rw [← sub_eq_add] at hsum
  exact of_pack hsum

theorem ofWord {word : UInt64} (hword : word.toNat < 2 ^ 53) :
    IsNumber word.toFloat (word.toNat * unitsOfOne) := by
  have hbound : |(word.toNat : ℤ)| < 2 ^ 53 := by
    rw [Nat.abs_cast]
    exact_mod_cast hword
  exact of_pack (ofInt_eq hbound)

theorem ofNat {n : Nat} (hn : n < 2 ^ 53) : IsNumber (Scalar.ofNat n) (n * unitsOfOne) := by
  have hword : n.toUInt64.toNat = n := UInt64.toNat_ofNat_of_lt' (hn.trans (by decide))
  have hvalue : IsNumber n.toUInt64.toFloat (n.toUInt64.toNat * unitsOfOne) :=
    ofWord (by rwa [hword])
  rwa [hword] at hvalue

theorem neg (hx : IsNumber x p) : IsNumber (-x) (-p) :=
  of_pack ⟨sound_neg (sound_unpack x), number_neg hx⟩

theorem abs (hx : IsNumber x p) : IsNumber x.abs |p| := by
  have hsound := sound_unpack x
  apply of_pack
  rw [IsNumber] at hx
  cases ha : x.toModel.unpack with
  | infinity => rw [ha] at hx; cases hx
  | notANumber => rw [ha] at hx; cases hx
  | zero s =>
    rw [ha] at hx
    obtain rfl := Option.some.inj hx
    exact ⟨trivial, rfl⟩
  | finite s m e hm =>
    rw [ha] at hx hsound
    obtain rfl := Option.some.inj hx
    refine ⟨hsound, ?_⟩
    have hnatural : |(units m e : ℤ)| = units m e := Nat.abs_cast _
    cases s
    · exact congrArg some (by rw [Sign.apply, abs_neg, hnatural]; rfl)
    · exact congrArg some hnatural.symm

theorem toUInt64 (hx : IsNumber x p) (hlow : 0 ≤ p) (hp : p < 2 ^ 64 * unitsOfOne) :
    x.toUInt64.toNat = (p / unitsOfOne).toNat := by
  have hone : (0 : ℤ) < unitsOfOne := Int.natCast_pos.mpr unitsOfOne_pos
  have hbelow : p / unitsOfOne < 2 ^ 64 := Int.ediv_lt_of_lt_mul hone hp
  have hvalue : x.toUInt64 = UInt64.ofNatClamp (p / unitsOfOne).toNat := by
    change UInt64.ofNatClamp (x.toModel.unpack.toInt 0 _).toNat = _
    rw [toInt_eq (sound_unpack x) hx, Int.tdiv_eq_ediv_of_nonneg hlow]
  rw [hvalue, UInt64.toNat_ofNatClamp_of_lt]
  change _ < 2 ^ 64
  omega

/-- Doubles from `2 ^ 52` on are whole. -/
theorem dvd_of_large (hx : IsNumber x p) (hlarge : 2 ^ 52 * unitsOfOne ≤ |p|) :
    (unitsOfOne : ℤ) ∣ p := by
  have hsound := sound_unpack x
  rw [IsNumber] at hx
  cases ha : x.toModel.unpack with
  | infinity => rw [ha] at hx; cases hx
  | notANumber => rw [ha] at hx; cases hx
  | zero s =>
    rw [ha] at hx
    obtain rfl := Option.some.inj hx
    exact dvd_zero _
  | finite s m e hm =>
    rw [ha] at hx hsound
    obtain rfl := Option.some.inj hx
    have hunits : 2 ^ 52 * unitsOfOne ≤ units m e := by
      have hmagnitude : |s.apply (units m e)| = units m e := by
        cases s
        · exact (abs_neg _).trans (Nat.abs_cast _)
        · exact Nat.abs_cast _
      rw [hmagnitude] at hlarge
      exact_mod_cast hlarge
    have hdvd : (unitsOfOne : ℤ) ∣ units m e :=
      Int.natCast_dvd_natCast.mpr (hsound.dvd_units hunits)
    cases s
    · exact (dvd_neg (α := ℤ)).mpr hdvd
    · exact hdvd

/-- A number between whole steps lies above the lower of them. -/
theorem ediv_eq {q : ℤ} (hlow : q * unitsOfOne ≤ p) (hhigh : p < (q + 1) * unitsOfOne) :
    p / unitsOfOne = q := by
  have hone : (0 : ℤ) < unitsOfOne := Int.natCast_pos.mpr unitsOfOne_pos
  have hbelow := Int.ediv_lt_of_lt_mul hone hhigh
  have habove := Int.le_ediv_of_mul_le hone hlow
  omega

/-- The whole part of a magnitude below `2 ^ 52`, by way of a word. -/
theorem truncate (hx : IsNumber x p) (hlow : 0 ≤ p) (hsmall : p < 2 ^ 52 * unitsOfOne) :
    IsNumber x.toUInt64.toFloat (p / unitsOfOne * unitsOfOne) := by
  have hone : (0 : ℤ) < unitsOfOne := Int.natCast_pos.mpr unitsOfOne_pos
  have hbound : p < 2 ^ 64 * unitsOfOne := hsmall.trans_le (by gcongr <;> decide)
  have hbelow := Int.ediv_lt_of_lt_mul hone hsmall
  have habove : 0 ≤ p / unitsOfOne := Int.ediv_nonneg hlow hone.le
  have hword := hx.toUInt64 hlow hbound
  have hvalue : IsNumber x.toUInt64.toFloat (x.toUInt64.toNat * unitsOfOne) := ofWord (by omega)
  rwa [hword, Int.toNat_of_nonneg habove] at hvalue

/-- The floor of a double is that of its number. -/
theorem floor (hx : IsNumber x p) : IsNumber (floorFloat x) (p / unitsOfOne * unitsOfOne) := by
  have hone : (0 : ℤ) < unitsOfOne := Int.natCast_pos.mpr unitsOfOne_pos
  have hlimit : IsNumber 4503599627370496.0 (2 ^ 52 * unitsOfOne) := by decide +kernel
  have hzero : IsNumber 0.0 0 := by decide +kernel
  have hunit : IsNumber 1.0 unitsOfOne := by decide +kernel
  unfold floorFloat
  by_cases hsmall : |p| < 2 ^ 52 * unitsOfOne
  · rw [if_pos ((hx.abs.lt_iff hlimit).mpr hsmall)]
    have htruncated := hx.abs.truncate (abs_nonneg p) hsmall
    have hbelow := Int.ediv_lt_of_lt_mul hone hsmall
    have hquotient : 0 ≤ |p| / unitsOfOne := Int.ediv_nonneg (abs_nonneg p) hone.le
    have hlow := Int.ediv_mul_le |p| hone.ne'
    have hhigh := Int.lt_ediv_add_one_mul_self |p| hone
    generalize |p| / (unitsOfOne : ℤ) = whole at htruncated hbelow hquotient hlow hhigh
    simp only
    by_cases hequal : whole * unitsOfOne = |p|
    · rw [if_pos ((htruncated.beq_iff hx.abs).mpr hequal)]
      have hdvd : (unitsOfOne : ℤ) ∣ p := (dvd_abs _ _).mp (hequal ▸ dvd_mul_left _ _)
      rw [Int.ediv_mul_cancel hdvd]
      exact hx
    · rw [if_neg (fun h => hequal ((htruncated.beq_iff hx.abs).mp h))]
      by_cases hnegative : p < 0
      · rw [if_pos ((hx.lt_iff hzero).mpr hnegative)]
        rw [abs_of_neg hnegative] at hlow hhigh hequal
        have hfloor : p / unitsOfOne = -whole - 1 := by
          apply ediv_eq
          · linarith
          · have hstrict : whole * unitsOfOne < -p := lt_of_le_of_ne hlow hequal
            linarith
        rw [hfloor]
        have hbound : |-whole - 1| < 2 ^ 53 := by
          rw [abs_lt]
          omega
        exact htruncated.neg.sub hunit (by ring) hbound
      · rw [if_neg (fun h => hnegative ((hx.lt_iff hzero).mp h))]
        rw [abs_of_nonneg (not_lt.mp hnegative)] at hlow hhigh
        rwa [ediv_eq hlow hhigh]
  · rw [if_neg (fun h => hsmall ((hx.abs.lt_iff hlimit).mp h)),
      Int.ediv_mul_cancel (hx.dvd_of_large (not_lt.mp hsmall))]
    exact hx

end IsNumber

/-- Finite doubles are numbers. -/
theorem exists_isNumber_of_isFinite (h : x.isFinite = true) : ∃ n, IsNumber x n := by
  change x.toModel.unpack.isFinite = true at h
  cases hx : x.toModel.unpack with
  | zero s => exact ⟨_, by rw [IsNumber, hx]; rfl⟩
  | finite s m e hm => exact ⟨_, by rw [IsNumber, hx]; rfl⟩
  | infinity s =>
    rw [hx] at h
    cases h
  | notANumber =>
    rw [hx] at h
    cases h

/-- A double between two numbers is a number, unless it is none that compares. -/
theorem isNaN_or_isNumber {lower upper : Float} (hlower : IsNumber lower p)
    (hupper : IsNumber upper q) (hlow : ¬x < lower) (hhigh : ¬upper < x) :
    x.isNaN ∨ ∃ n, IsNumber x n := by
  cases hx : x.toModel.unpack with
  | notANumber => exact .inl (isNaN_iff.mpr hx)
  | zero s => exact .inr ⟨_, by rw [IsNumber, hx]; rfl⟩
  | finite s m e hm => exact .inr ⟨_, by rw [IsNumber, hx]; rfl⟩
  | infinity s =>
    rw [IsNumber] at hlower hupper
    cases s with
    | negative =>
      have hcompare : (UnpackedFloat.infinity .negative).compare lower.toModel.unpack = some .lt := by
        cases hl : lower.toModel.unpack <;> rw [hl] at hlower <;> first | rfl | cases hlower
      refine absurd ?_ hlow
      change decide ((x.toModel.unpack.compare lower.toModel.unpack == some .lt) = true) = true
      rw [hx, hcompare]
      rfl
    | positive =>
      have hcompare : upper.toModel.unpack.compare (.infinity .positive) = some .lt := by
        cases hu : upper.toModel.unpack <;> rw [hu] at hupper <;> first | rfl | cases hupper
      refine absurd ?_ hhigh
      change decide ((upper.toModel.unpack.compare x.toModel.unpack == some .lt) = true) = true
      rw [hx, hcompare]
      rfl

/-- A double above one number and below another is a number. -/
theorem exists_isNumber_of_lt_of_lt {lower upper : Float} (hlower : IsNumber lower p)
    (hupper : IsNumber upper q) (hlow : lower < x) (hhigh : x < upper) : ∃ n, IsNumber x n := by
  change decide ((lower.toModel.unpack.compare x.toModel.unpack == some .lt) = true) = true at hlow
  change decide ((x.toModel.unpack.compare upper.toModel.unpack == some .lt) = true) = true at hhigh
  rw [decide_eq_true_iff, beq_iff_eq] at hlow hhigh
  rw [IsNumber] at hlower hupper
  cases hx : x.toModel.unpack with
  | notANumber =>
    rw [hx] at hhigh
    cases hhigh
  | zero s => exact ⟨_, by rw [IsNumber, hx]; rfl⟩
  | finite s m e hm => exact ⟨_, by rw [IsNumber, hx]; rfl⟩
  | infinity s =>
    rw [hx] at hlow hhigh
    cases s with
    | negative =>
      cases hl : lower.toModel.unpack <;> rw [hl] at hlower hlow <;> cases hlower <;> cases hlow
    | positive =>
      cases hu : upper.toModel.unpack <;> rw [hu] at hupper hhigh <;> cases hupper <;> cases hhigh

theorem le_of_lt (h : x < y) : x ≤ y := by
  change decide ((x.toModel.unpack.compare y.toModel.unpack == some .lt) = true) = true at h
  change decide ((x.toModel.unpack.compare y.toModel.unpack).any (·.isLE) = true) = true
  rw [decide_eq_true_iff, beq_iff_eq] at h
  rw [h]
  rfl

section NotANumber

variable (hx : x.isNaN)
include hx

theorem compare_of_isNaN (y : Float) : x.toModel.unpack.compare y.toModel.unpack = none ∧
    y.toModel.unpack.compare x.toModel.unpack = none := by
  rw [isNaN_iff.mp hx]
  constructor
  · rfl
  · cases y.toModel.unpack with
    | infinity s => cases s <;> rfl
    | notANumber => rfl
    | zero s => rfl
    | finite s m e hm => cases s <;> rfl

/-- What is no number is neither below nor above any double. -/
theorem not_lt_of_isNaN (y : Float) : ¬x < y ∧ ¬y < x := by
  obtain ⟨hleft, hright⟩ := compare_of_isNaN hx y
  constructor
  · intro h
    change decide ((x.toModel.unpack.compare y.toModel.unpack == some .lt) = true) = true at h
    rw [hleft] at h
    cases h
  · intro h
    change decide ((y.toModel.unpack.compare x.toModel.unpack == some .lt) = true) = true at h
    rw [hright] at h
    cases h

theorem not_le_of_isNaN (y : Float) : ¬x ≤ y ∧ ¬y ≤ x := by
  obtain ⟨hleft, hright⟩ := compare_of_isNaN hx y
  constructor
  · intro h
    change decide ((x.toModel.unpack.compare y.toModel.unpack).any (·.isLE) = true) = true at h
    rw [hleft] at h
    cases h
  · intro h
    change decide ((y.toModel.unpack.compare x.toModel.unpack).any (·.isLE) = true) = true at h
    rw [hright] at h
    cases h

theorem isNaN_floor : (floorFloat x).isNaN := by
  have habs : x.abs.isNaN := by
    apply isNaN_iff.mpr
    change (Float.Model.pack x.toModel.unpack.abs).unpack = _
    rw [isNaN_iff.mp hx]
    exact unpack_pack trivial
  rw [floorFloat, if_neg (not_lt_of_isNaN habs _).1]
  exact hx

theorem toUInt64_of_isNaN : x.toUInt64.toNat = 0 := by
  change (x.toModel.unpack.toUInt64).toNat = 0
  rw [isNaN_iff.mp hx]
  rfl

end NotANumber

end TensorParity
