import TensorParity.Proofs.Rounding.Bits

/-!
Sign, mantissa and exponent of a double as the number they stand for, counted in the smallest
positive double so that every number is whole. Comparison is that of the numbers, a sum or a
difference that is a whole number below `2 ^ 53` is exact, and truncation divides by one.
-/
namespace TensorParity

open Float.Model Float.Model.UnpackedFloat

/-- The smallest positive double is one, halved this often. -/
@[irreducible]
def halvings : Nat := 1074

theorem halvings_eq : halvings = 1074 := by
  rw [halvings]

/-- One, counted in the smallest positive double. -/
def unitsOfOne : Nat := 2 ^ halvings

theorem unitsOfOne_pos : 0 < unitsOfOne := Nat.two_pow_pos _

/-- A mantissa and an exponent, counted in the smallest positive double. -/
def units (mantissa : Nat) (exponent : ℤ) : Nat := mantissa * 2 ^ (exponent + halvings).toNat

/-- Mantissas and exponents of finite doubles: the leading one stands at its place unless the
exponent is the least. -/
structure Canonical (mantissa : Nat) (exponent : ℤ) : Prop where
  below : mantissa < 2 ^ 53
  low : -1074 ≤ exponent
  high : exponent ≤ 971
  normal : 2 ^ 52 ≤ mantissa ∨ exponent = -1074

section Order

variable {m₁ m₂ : Nat} {e₁ e₂ : ℤ}

/-- A larger exponent makes the larger number. -/
theorem units_lt_units (h₁ : Canonical m₁ e₁) (h₂ : Canonical m₂ e₂) (he : e₁ < e₂) :
    units m₁ e₁ < units m₂ e₂ := by
  have hhalvings := halvings_eq
  have hlow := h₁.low
  have hleading : 2 ^ 52 ≤ m₂ := h₂.normal.resolve_right (by omega)
  obtain ⟨gap, hgap⟩ : ∃ gap, (e₂ + halvings).toNat = (e₁ + halvings).toNat + 1 + gap :=
    ⟨(e₂ - e₁ - 1).toNat, by omega⟩
  calc m₁ * 2 ^ (e₁ + halvings).toNat < 2 ^ 53 * 2 ^ (e₁ + halvings).toNat :=
        Nat.mul_lt_mul_of_pos_right h₁.below (Nat.two_pow_pos _)
    _ = 2 ^ 52 * 2 ^ ((e₁ + halvings).toNat + 1) := by rw [pow_succ]; ring
    _ ≤ m₂ * 2 ^ (e₂ + halvings).toNat :=
        Nat.mul_le_mul hleading (Nat.pow_le_pow_right (by decide) (by omega))

theorem compare_units (h₁ : Canonical m₁ e₁) (h₂ : Canonical m₂ e₂) :
    (compare e₁ e₂).then (compare m₁ m₂) = compare (units m₁ e₁) (units m₂ e₂) := by
  rcases lt_trichotomy e₁ e₂ with hlt | rfl | hgt
  · rw [compare_lt_iff_lt.mpr hlt, compare_lt_iff_lt.mpr (units_lt_units h₁ h₂ hlt)]
    rfl
  · rw [compare_eq_iff_eq.mpr rfl]
    have hpositive : 0 < 2 ^ (e₁ + halvings).toNat := Nat.two_pow_pos _
    change compare m₁ m₂ = _
    rcases lt_trichotomy m₁ m₂ with hlt | rfl | hgt
    · rw [compare_lt_iff_lt.mpr hlt]
      exact (compare_lt_iff_lt.mpr (Nat.mul_lt_mul_of_pos_right hlt hpositive)).symm
    · rw [compare_eq_iff_eq.mpr rfl, compare_eq_iff_eq.mpr rfl]
    · rw [compare_gt_iff_gt.mpr hgt]
      exact (compare_gt_iff_gt.mpr (Nat.mul_lt_mul_of_pos_right hgt hpositive)).symm
  · rw [compare_gt_iff_gt.mpr hgt, compare_gt_iff_gt.mpr (units_lt_units h₂ h₁ hgt)]
    rfl

/-- A canonical number from `2 ^ 52` on has no places behind the point. -/
theorem Canonical.dvd_units {m : Nat} {e : ℤ} (h : Canonical m e)
    (hlarge : 2 ^ 52 * unitsOfOne ≤ units m e) : unitsOfOne ∣ units m e := by
  have hexponent : halvings ≤ (e + halvings).toNat := by
    by_contra hsmall
    have hbelow : units m e < 2 ^ 53 * 2 ^ (e + halvings).toNat :=
      Nat.mul_lt_mul_of_pos_right h.below (Nat.two_pow_pos _)
    have hsame : 2 ^ 53 * 2 ^ (e + halvings).toNat ≤ 2 ^ 52 * unitsOfOne :=
      calc 2 ^ 53 * 2 ^ (e + halvings).toNat = 2 ^ 52 * 2 ^ ((e + halvings).toNat + 1) := by
            rw [pow_succ 2 (e + halvings).toNat]; ring
        _ ≤ 2 ^ 52 * 2 ^ halvings :=
            Nat.mul_le_mul_left _ (Nat.pow_le_pow_right (by decide) (by omega))
    omega
  exact Dvd.dvd.mul_left (pow_dvd_pow 2 hexponent) m

end Order

/-- The number that is stood for, counted in the smallest positive double. -/
def number : UnpackedFloat → Option ℤ
  | .zero _ => some 0
  | .finite sign mantissa exponent _ => some (sign.apply (units mantissa exponent))
  | _ => none

/-- Whether a finite number is one of doubles. -/
def Sound : UnpackedFloat → Prop
  | .finite _ mantissa exponent _ => Canonical mantissa exponent
  | _ => True

theorem compare_neg_neg (p q : ℤ) : compare (-p) (-q) = (compare p q).swap := by
  rcases lt_trichotomy p q with h | rfl | h
  · rw [compare_lt_iff_lt.mpr h, compare_gt_iff_gt.mpr (neg_lt_neg h)]
    rfl
  · rw [compare_eq_iff_eq.mpr rfl, compare_eq_iff_eq.mpr rfl]
    rfl
  · rw [compare_gt_iff_gt.mpr h, compare_lt_iff_lt.mpr (neg_lt_neg h)]
    rfl

theorem compare_natCast (m n : Nat) : compare (m : ℤ) (n : ℤ) = compare m n := by
  rcases lt_trichotomy m n with h | rfl | h
  · rw [compare_lt_iff_lt.mpr h, compare_lt_iff_lt.mpr (Int.ofNat_lt.mpr h)]
  · rw [compare_eq_iff_eq.mpr rfl, compare_eq_iff_eq.mpr rfl]
  · rw [compare_gt_iff_gt.mpr h, compare_gt_iff_gt.mpr (Int.ofNat_lt.mpr h)]

theorem units_pos {m : Nat} (hm : 0 < m) (e : ℤ) : 0 < units m e :=
  Nat.mul_pos hm (Nat.two_pow_pos _)

/-- Numbers are compared as they are. -/
theorem compare_number {a b : UnpackedFloat} (ha : Sound a) (hb : Sound b) {p q : ℤ}
    (hp : number a = some p) (hq : number b = some q) : a.compare b = some (compare p q) := by
  cases a with
  | infinity => cases hp
  | notANumber => cases hp
  | zero s =>
    obtain rfl := Option.some.inj hp
    cases b with
    | infinity => cases hq
    | notANumber => cases hq
    | zero s' =>
      obtain rfl := Option.some.inj hq
      cases s <;> rfl
    | finite s' m' e' hm' =>
      obtain rfl := Option.some.inj hq
      have hpositive : (0 : ℤ) < units m' e' := Int.natCast_pos.mpr (units_pos hm' e')
      cases s' with
      | negative => exact congrArg some (compare_gt_iff_gt.mpr (neg_lt_zero.mpr hpositive)).symm
      | positive => exact congrArg some (compare_lt_iff_lt.mpr hpositive).symm
  | finite s m e hm =>
    obtain rfl := Option.some.inj hp
    have hpositive : (0 : ℤ) < units m e := Int.natCast_pos.mpr (units_pos hm e)
    cases b with
    | infinity => cases hq
    | notANumber => cases hq
    | zero s' =>
      obtain rfl := Option.some.inj hq
      cases s with
      | negative => exact congrArg some (compare_lt_iff_lt.mpr (neg_lt_zero.mpr hpositive)).symm
      | positive => exact congrArg some (compare_gt_iff_gt.mpr hpositive).symm
    | finite s' m' e' hm' =>
      obtain rfl := Option.some.inj hq
      have hpositive' : (0 : ℤ) < units m' e' := Int.natCast_pos.mpr (units_pos hm' e')
      cases s with
      | negative =>
        cases s' with
        | negative =>
          change some ((compare e e').then (compare m m')).swap = _
          rw [compare_units ha hb, ← compare_natCast, ← compare_neg_neg]
          rfl
        | positive =>
          have hlt : -(units m e : ℤ) < units m' e' := by omega
          exact congrArg some (compare_lt_iff_lt.mpr hlt).symm
      | positive =>
        cases s' with
        | negative =>
          have hlt : -(units m' e' : ℤ) < units m e := by omega
          exact congrArg some (compare_gt_iff_gt.mpr hlt).symm
        | positive =>
          change some ((compare e e').then (compare m m')) = _
          rw [compare_units ha hb, ← compare_natCast]
          rfl

section Round

theorem log2_mul_two_pow {j : Nat} (hj : 0 < j) (n : Nat) : (j * 2 ^ n).log2 = j.log2 + n := by
  have hlow := Nat.log2_self_le hj.ne'
  have hhigh := Nat.lt_log2_self (n := j)
  have hpositive : 0 < 2 ^ n := Nat.two_pow_pos n
  rw [Nat.log2_eq_iff (Nat.mul_pos hj hpositive).ne', pow_add, Nat.add_right_comm, pow_add]
  exact ⟨Nat.mul_le_mul_right _ hlow, Nat.mul_lt_mul_of_pos_right hhigh hpositive⟩

/-- Whole steps drop no bits. -/
theorem shiftRight_exact (m n : Nat) :
    (ExtendedMantissa.mk (m * 2 ^ n) false false) >>> n = ⟨m, false, false⟩ := by
  change n.repeat ExtendedMantissa.shiftRightOne _ = _
  induction n generalizing m with
  | zero => simp [Nat.repeat]
  | succ n ih =>
    have hsplit : m * 2 ^ (n + 1) = 2 * m * 2 ^ n := by ring
    rw [Nat.repeat, hsplit, ih]
    simp [ExtendedMantissa.shiftRightOne]

theorem shiftRight_mantissa (em : ExtendedMantissa) (n : Nat) :
    (em >>> n).mantissa = em.mantissa / 2 ^ n := by
  change (n.repeat ExtendedMantissa.shiftRightOne em).mantissa = _
  induction n with
  | zero => simp [Nat.repeat]
  | succ n ih =>
    rw [Nat.repeat, ExtendedMantissa.shiftRightOne, ih, Nat.div_div_eq_div_mul, pow_succ]

theorem targetExponent_eq {j : Nat} (hj : 0 < j) {n : Nat} {e : ℤ} (he : e = -n) :
    Format.binary64.targetExponent (totalExponent (j * 2 ^ n) e) = (j.log2 : ℤ) - 52 := by
  have hmantissa : (Format.binary64.mantissaBits : ℤ) = 53 := rfl
  have hminimum : Format.binary64.minExponent = -1074 := rfl
  rw [Format.targetExponent, totalExponent, log2_mul_two_pow hj, hmantissa, hminimum]
  omega

/-- A whole number below `2 ^ 53`, written with any exponent below zero, is rounded to itself. -/
theorem roundWithAccuracy_eq {j k n : Nat} (hj : 0 < j) (hk : j.log2 + k = 52) (hn : k ≤ n)
    (sign : Sign) : roundWithAccuracy .binary64 sign (j * 2 ^ n) (-n) .exact =
      .finite sign (j * 2 ^ k) (-k) (Nat.mul_pos hj (Nat.two_pow_pos k)) := by
  have htarget : (j.log2 : ℤ) - 52 = -k := by omega
  have hfirst : shiftToTargetExponent .binary64 (j * 2 ^ n) (-n) .exact =
      (⟨j * 2 ^ k, false, false⟩, -(k : ℤ)) := by
    have hshift : (-(k : ℤ) - -(n : ℤ)).toNat = n - k := by omega
    have hsplit : j * 2 ^ n = j * 2 ^ k * 2 ^ (n - k) := by
      rw [mul_assoc, ← pow_add, Nat.add_sub_cancel' hn]
    rw [shiftToTargetExponent, targetExponent_eq hj rfl, htarget, shiftToExponent, hshift, hsplit,
      ExtendedMantissa.ofMantissaAndAccuracy, shiftRight_exact]
    exact Prod.ext rfl (by simp only; omega)
  have hsecond : shiftToTargetExponent .binary64 (j * 2 ^ k) (-k) .exact =
      (⟨j * 2 ^ k, false, false⟩, -(k : ℤ)) := by
    rw [shiftToTargetExponent, targetExponent_eq hj rfl, htarget, shiftToExponent, sub_self,
      ExtendedMantissa.ofMantissaAndAccuracy]
    exact Prod.ext rfl (by simp)
  have hpositive : ¬j * 2 ^ k = 0 := (Nat.mul_pos hj (Nat.two_pow_pos k)).ne'
  have hrounded : (ExtendedMantissa.mk (j * 2 ^ k) false false).roundedMantissa = j * 2 ^ k := rfl
  simp only [roundWithAccuracy, hfirst, hrounded, hsecond, dif_neg hpositive]

theorem round_eq {m j k : Nat} {e : ℤ} (hlow : -1074 ≤ e)
    (hvalue : units m e = j * unitsOfOne) (hj : 0 < j) (hk : j.log2 + k = 52) (sign : Sign) :
    UnpackedFloat.round .binary64 sign m e =
      .finite sign (j * 2 ^ k) (-k) (Nat.mul_pos hj (Nat.two_pow_pos k)) := by
  have hm : 0 < m := by
    rcases Nat.eq_zero_or_pos m with rfl | hm
    · rw [units, Nat.zero_mul] at hvalue
      exact absurd hvalue.symm (Nat.mul_pos hj unitsOfOne_pos).ne'
    · exact hm
  have hhalvings := halvings_eq
  have hlog : m.log2 + (e + halvings).toNat = j.log2 + halvings := by
    rw [← log2_mul_two_pow hm, ← log2_mul_two_pow hj]
    exact congrArg Nat.log2 hvalue
  have htarget : Format.binary64.targetExponent (totalExponent m e) = -k := by
    have hmantissa : (Format.binary64.mantissaBits : ℤ) = 53 := rfl
    have hminimum : Format.binary64.minExponent = -1074 := rfl
    rw [Format.targetExponent, totalExponent, hmantissa, hminimum]
    omega
  -- both exponents are brought below that of the result, and the mantissa along with them
  obtain ⟨n, hn, hdecreased⟩ : ∃ n : Nat, k ≤ n ∧
      decreaseExponent m e (-k) = (j * 2 ^ n, -(n : ℤ)) := by
    refine ⟨(max (-e) k).toNat, by omega, ?_⟩
    have hmantissa : m * 2 ^ (e - -(k : ℤ)).toNat = j * 2 ^ (max (-e) k).toNat := by
      apply Nat.eq_of_mul_eq_mul_right (Nat.two_pow_pos (halvings - (max (-e) k).toNat))
      have hleft : (e - -(k : ℤ)).toNat + (halvings - (max (-e) k).toNat) = (e + halvings).toNat := by
        omega
      have hright : (max (-e) k).toNat + (halvings - (max (-e) k).toNat) = halvings := by omega
      rw [mul_assoc, ← pow_add, hleft, mul_assoc, ← pow_add, hright]
      exact hvalue
    rw [decreaseExponent, Nat.shiftLeft_eq, hmantissa]
    exact Prod.ext rfl (by simp only; omega)
  simp only [UnpackedFloat.round, htarget, hdecreased]
  exact roundWithAccuracy_eq hj hk hn sign

/-- Rounding keeps a whole number below `2 ^ 53`, whatever mantissa and exponent spell it. -/
theorem sound_round {m j : Nat} {e : ℤ} (hlow : -1074 ≤ e)
    (hvalue : units m e = j * unitsOfOne) (hj : 0 < j) (hbelow : j < 2 ^ 53) (sign : Sign) :
    Sound (UnpackedFloat.round .binary64 sign m e) ∧
      number (UnpackedFloat.round .binary64 sign m e) =
        some (sign.apply (j * unitsOfOne : Nat)) := by
  have hlog : j.log2 < 53 := (Nat.log2_lt hj.ne').mpr hbelow
  obtain ⟨k, hk⟩ : ∃ k, j.log2 + k = 52 := ⟨52 - j.log2, by omega⟩
  have hhalvings := halvings_eq
  rw [round_eq hlow hvalue hj hk]
  constructor
  · have hplace : (j * 2 ^ k).log2 = 52 := by rw [log2_mul_two_pow hj, hk]
    obtain ⟨hleading, hfits⟩ :=
      (Nat.log2_eq_iff (Nat.mul_pos hj (Nat.two_pow_pos k)).ne').mp hplace
    exact ⟨hfits, by omega, by omega, .inl hleading⟩
  · have hunits : units (j * 2 ^ k) (-k) = j * unitsOfOne := by
      have hsum : k + (-(k : ℤ) + halvings).toNat = halvings := by omega
      rw [units, mul_assoc, ← pow_add, hsum]
      rfl
    rw [number, hunits]

/-- A whole number below `2 ^ 53` is kept exactly, with its sign. -/
theorem normalize_eq {m j e : ℤ} (hlow : -1074 ≤ e)
    (hvalue : m * 2 ^ (e + halvings).toNat = j * unitsOfOne) (hj : |j| < 2 ^ 53) (zeroSign : Sign) :
    Sound (UnpackedFloat.normalize .binary64 m e zeroSign) ∧
      number (UnpackedFloat.normalize .binary64 m e zeroSign) = some (j * unitsOfOne) := by
  have hpower : (0 : ℤ) < 2 ^ (e + halvings).toNat := by positivity
  have hone : (0 : ℤ) < unitsOfOne := Int.natCast_pos.mpr unitsOfOne_pos
  unfold UnpackedFloat.normalize
  rcases lt_trichotomy m 0 with hm | rfl | hm
  · have hnegative : j < 0 := by nlinarith
    have hvalue' : units (-m).toNat e = (-j).toNat * unitsOfOne := by
      zify
      rw [units]
      push_cast
      rw [Int.toNat_of_nonneg (by omega), Int.toNat_of_nonneg (by omega)]
      linarith
    have hbelow : (-j).toNat < 2 ^ 53 := by
      rw [abs_of_neg hnegative] at hj
      omega
    rw [compare_lt_iff_lt.mpr hm]
    obtain ⟨hsound, hnumber⟩ := sound_round hlow hvalue' (by omega) hbelow .negative
    refine ⟨hsound, hnumber.trans (congrArg some ?_)⟩
    change -(((-j).toNat * unitsOfOne : Nat) : ℤ) = _
    push_cast
    rw [Int.toNat_of_nonneg (by omega)]
    ring
  · obtain rfl : j = 0 := by
      rw [zero_mul] at hvalue
      exact (mul_eq_zero.mp hvalue.symm).resolve_right hone.ne'
    rw [zero_mul]
    exact ⟨trivial, rfl⟩
  · have hpositive : 0 < j := by nlinarith
    have hvalue' : units m.toNat e = j.toNat * unitsOfOne := by
      zify
      rw [units]
      push_cast
      rw [Int.toNat_of_nonneg (by omega), Int.toNat_of_nonneg (by omega)]
      exact hvalue
    have hbelow : j.toNat < 2 ^ 53 := by
      rw [abs_of_pos hpositive] at hj
      omega
    rw [compare_gt_iff_gt.mpr hm]
    obtain ⟨hsound, hnumber⟩ := sound_round hlow hvalue' (by omega) hbelow .positive
    refine ⟨hsound, hnumber.trans (congrArg some ?_)⟩
    change ((j.toNat * unitsOfOne : Nat) : ℤ) = _
    push_cast
    rw [Int.toNat_of_nonneg (by omega)]

end Round

theorem ofInt_eq {j : ℤ} (hj : |j| < 2 ^ 53) :
    Sound (UnpackedFloat.ofInt .binary64 j) ∧
      number (UnpackedFloat.ofInt .binary64 j) = some (j * unitsOfOne) := by
  apply normalize_eq (by decide) _ hj
  rw [zero_add, Int.toNat_natCast, unitsOfOne]
  push_cast
  rfl

section Arithmetic

/-- A mantissa written with a smaller exponent. -/
theorem decreaseExponent_units {m : Nat} {e least : ℤ} (hlow : -1074 ≤ least) (hle : least ≤ e) :
    (decreaseExponent m e least).1 * 2 ^ (least + halvings).toNat = units m e := by
  have hhalvings := halvings_eq
  have hsum : (e - least).toNat + (least + halvings).toNat = (e + halvings).toNat := by omega
  rw [decreaseExponent, Nat.shiftLeft_eq, mul_assoc, ← pow_add, hsum, units]

theorem apply_mul (sign : Sign) (m n : ℤ) : sign.apply m * n = sign.apply (m * n) := by
  cases sign
  · exact neg_mul m n
  · rfl

theorem sub_eq_add (a b : UnpackedFloat) :
    UnpackedFloat.sub .binary64 a b = UnpackedFloat.add .binary64 a b.neg := by
  cases a <;> cases b <;> try rfl
  rename_i s m e hm s' m' e' hm'
  have hsubtract (p : ℤ) (q : ℤ) : p - s'.apply q = p + (-s').apply q := by
    cases s'
    · exact sub_neg_eq_add p q
    · rfl
  exact congrArg (fun n => UnpackedFloat.normalize .binary64 n (min e e') .positive) (hsubtract _ _)

theorem number_neg {b : UnpackedFloat} {q : ℤ} (hq : number b = some q) :
    number b.neg = some (-q) := by
  cases b with
  | infinity => cases hq
  | notANumber => cases hq
  | zero s =>
    obtain rfl := Option.some.inj hq
    rfl
  | finite s m e hm =>
    obtain rfl := Option.some.inj hq
    cases s
    · exact congrArg some (neg_neg _).symm
    · rfl

theorem sound_neg {b : UnpackedFloat} (hb : Sound b) : Sound b.neg := by
  cases b <;> exact hb

/-- The sum of two numbers, if it is a whole number below `2 ^ 53`. -/
theorem add_eq {a b : UnpackedFloat} (ha : Sound a) (hb : Sound b) {p q j : ℤ}
    (hp : number a = some p) (hq : number b = some q) (hsum : p + q = j * unitsOfOne)
    (hj : |j| < 2 ^ 53) :
    Sound (UnpackedFloat.add .binary64 a b) ∧
      number (UnpackedFloat.add .binary64 a b) = some (j * unitsOfOne) := by
  cases a with
  | infinity => cases hp
  | notANumber => cases hp
  | zero s =>
    obtain rfl := Option.some.inj hp
    rw [zero_add] at hsum
    cases b with
    | infinity => cases hq
    | notANumber => cases hq
    | zero s' =>
      rw [← hsum, ← hq]
      cases s <;> cases s' <;> exact ⟨trivial, rfl⟩
    | finite s' m' e' hm' =>
      rw [← hsum, ← hq]
      exact ⟨hb, rfl⟩
  | finite s m e hm =>
    obtain rfl := Option.some.inj hp
    cases b with
    | infinity => cases hq
    | notANumber => cases hq
    | zero s' =>
      obtain rfl := Option.some.inj hq
      rw [← hsum, add_zero]
      exact ⟨ha, rfl⟩
    | finite s' m' e' hm' =>
      obtain rfl := Option.some.inj hq
      have hlow : -1074 ≤ min e e' := le_min ha.low hb.low
      apply normalize_eq hlow _ hj
      rw [← hsum, add_mul, apply_mul, apply_mul]
      have hfirst := decreaseExponent_units (m := m) hlow (min_le_left e e')
      have hsecond := decreaseExponent_units (m := m') hlow (min_le_right e e')
      rw [← hfirst, ← hsecond]
      push_cast
      rfl

end Arithmetic

/-- Truncation drops what is less than one. -/
theorem toInt_eq {a : UnpackedFloat} (ha : Sound a) {p : ℤ} (hp : number a = some p)
    (low high : ℤ) : a.toInt low high = p.tdiv unitsOfOne := by
  cases a with
  | infinity => cases hp
  | notANumber => cases hp
  | zero s =>
    obtain rfl := Option.some.inj hp
    exact (Int.zero_tdiv _).symm
  | finite s m e hm =>
    obtain rfl := Option.some.inj hp
    have hwhole : ((decreaseExponent m e 0).1 / 2 ^ (0 - (decreaseExponent m e 0).2).toNat) =
        units m e / unitsOfOne := by
      have hhalvings := halvings_eq
      have hlow := ha.low
      have hexponent : (0 - (decreaseExponent m e 0).2).toNat = (-e).toNat := by
        simp only [decreaseExponent]
        omega
      have hpositive : 0 < 2 ^ (halvings - (-e).toNat) := Nat.two_pow_pos _
      have hone : unitsOfOne = 2 ^ (-e).toNat * 2 ^ (halvings - (-e).toNat) := by
        rw [unitsOfOne, ← pow_add, Nat.add_sub_cancel' (by omega)]
      have hunits : units m e = (decreaseExponent m e 0).1 * 2 ^ (halvings - (-e).toNat) := by
        have hsum : (e - 0).toNat + (halvings - (-e).toNat) = (e + halvings).toNat := by omega
        rw [decreaseExponent, Nat.shiftLeft_eq, mul_assoc, ← pow_add, hsum, units]
      rw [hexponent, hunits, hone, Nat.mul_div_mul_right _ _ hpositive]
    have hmantissa : (shiftToExponent (decreaseExponent m e 0).1 (decreaseExponent m e 0).2 .exact
        0).1.mantissa = units m e / unitsOfOne := by
      rw [← hwhole]
      exact shiftRight_mantissa _ _
    change s.apply ((shiftToExponent (decreaseExponent m e 0).1 (decreaseExponent m e 0).2 .exact
        0).1.mantissa : ℤ) = _
    rw [hmantissa]
    cases s with
    | negative =>
      change -((units m e / unitsOfOne : Nat) : ℤ) = (-(units m e : ℤ)).tdiv unitsOfOne
      rw [Int.neg_tdiv, ← Int.ofNat_tdiv]
    | positive => exact Int.ofNat_tdiv _ _

section Packed

theorem unpackSign_packComponents (sign : Sign) (exponent : BitVec 11) (mantissa : BitVec 52) :
    Sign.ofBitVec (@unpackSign .binary64 (packComponents .binary64 sign exponent mantissa)) = sign := by
  have hsign : @unpackSign .binary64 (packComponents .binary64 sign exponent mantissa) =
      sign.toBitVec := by
    simp only [unpackSign, packComponents, BitVec.extractLsb]
    ext i hi
    grind
  rw [hsign]
  cases sign <;> rfl

theorem unpack_packComponents (sign : Sign) (exponent : BitVec 11) (mantissa : BitVec 52)
    (htop : exponent ≠ -1#11) :
    UnpackedFloat.unpack .binary64 (packComponents .binary64 sign exponent mantissa) =
      if exponent = 0#11 then
        if h : mantissa = 0#52 then .zero sign
        else .finite sign mantissa.toNat (-1074)
          (by simpa [BitVec.toNat_pos, BitVec.pos_iff_ne_zero] using h)
      else .finite sign (1#1 ++ mantissa).toNat ((exponent.toNat : ℤ) - 1075)
        (by rw [toNat_leading_one]; omega) := by
  have hbias : ((Format.binary64.exponentBias : ℤ) + (52 : Nat)) = 1075 := rfl
  simp only [UnpackedFloat.unpack, unpackExponent_packComponents, unpackMantissa_packComponents,
    unpackSign_packComponents, hbias]
  rw [if_neg htop]
  split
  · rename_i hbottom
    split
    · rfl
    · subst hbottom
      rfl
  · rfl

/-- A number with a leading bit is found again from the fields it is packed into. -/
private theorem unpack_pack_normal {sign : Sign} {m : Nat} {e : ℤ} {hm : 0 < m}
    (hcanonical : Canonical m e) (hlog : m.log2 = 52) :
    UnpackedFloat.unpack .binary64 (UnpackedFloat.pack .binary64 (.finite sign m e hm)) =
      .finite sign m e hm := by
  obtain ⟨hbelow, hlow, hhigh, -⟩ := hcanonical
  obtain ⟨hleading, -⟩ := (Nat.log2_eq_iff hm.ne').mp hlog
  have hexponent : (BitVec.ofNat 11 (e + 1075).toNat).toNat = (e + 1075).toNat := by
    rw [BitVec.toNat_ofNat]
    omega
  have hmantissa : (1#1 ++ BitVec.ofNat 52 m).toNat = m := by
    rw [toNat_leading_one, BitVec.toNat_ofNat]
    omega
  have hnottop : BitVec.ofNat 11 (e + 1075).toNat ≠ -1#11 := by
    intro h
    have htop := congrArg BitVec.toNat h
    rw [hexponent] at htop
    change (e + 1075).toNat = 2047 at htop
    omega
  have hnotbottom : BitVec.ofNat 11 (e + 1075).toNat ≠ 0#11 := by
    intro h
    have hbottom := congrArg BitVec.toNat h
    rw [hexponent] at hbottom
    change (e + 1075).toNat = 0 at hbottom
    omega
  rw [pack_normal hlog (by omega), unpack_packComponents _ _ _ hnottop, if_neg hnotbottom]
  congr 1
  rw [hexponent]
  omega

/-- So is one without a leading bit. Its exponent is the least. -/
private theorem unpack_pack_subnormal {sign : Sign} {m : Nat} {e : ℤ} {hm : 0 < m}
    (hcanonical : Canonical m e) (hlog : m.log2 ≠ 52) :
    UnpackedFloat.unpack .binary64 (UnpackedFloat.pack .binary64 (.finite sign m e hm)) =
      .finite sign m e hm := by
  obtain ⟨hbelow, hlow, hhigh, hnormal⟩ := hcanonical
  have hsmall : m < 2 ^ 52 := by
    by_contra hlarge
    exact hlog ((Nat.log2_eq_iff hm.ne').mpr ⟨by omega, by omega⟩)
  have hmantissa : (BitVec.ofNat 52 m).toNat = m := by
    rw [BitVec.toNat_ofNat]
    omega
  have hnonzero : ¬BitVec.ofNat 52 m = 0#52 := by
    intro h
    have hzero := congrArg BitVec.toNat h
    rw [hmantissa] at hzero
    exact hm.ne' hzero
  rw [pack_subnormal ((Nat.log2_lt hm.ne').mpr hsmall) (by omega),
    unpack_packComponents _ _ _ (by decide), if_pos rfl, dif_neg hnonzero]
  congr 1
  omega

theorem unpack_pack {a : UnpackedFloat} (ha : Sound a) : (Float.Model.pack a).unpack = a := by
  change UnpackedFloat.unpack .binary64 (UnpackedFloat.pack .binary64 a) = a
  cases a with
  | notANumber => rfl
  | infinity s => cases s <;> rfl
  | zero s => cases s <;> rfl
  | finite s m e hm =>
    by_cases hlog : m.log2 = 52
    · exact unpack_pack_normal ha hlog
    · exact unpack_pack_subnormal ha hlog

/-- The parts of a double make one of the finite numbers, if any. -/
theorem sound_unpack (x : Float) : Sound x.toModel.unpack := by
  change Sound (UnpackedFloat.unpack .binary64 x.toModel.toBits.toBitVec)
  have hbias : ((Format.binary64.exponentBias : ℤ) + (52 : Nat)) = 1075 := rfl
  simp only [UnpackedFloat.unpack, hbias]
  have hmantissa := (@unpackMantissa .binary64 x.toModel.toBits.toBitVec).isLt
  split
  · split <;> trivial
  · rename_i htop
    split
    · rename_i hbottom
      split
      · trivial
      · rw [hbottom]
        refine ⟨?_, ?_, ?_, ?_⟩
        · change _ < 2 ^ 52 at hmantissa
          omega
        · decide
        · decide
        · right
          rfl
    · rename_i hbottom
      have htop' : (@unpackExponent .binary64 x.toModel.toBits.toBitVec).toNat ≠ 2047 := by
        intro h
        exact htop (BitVec.toNat_inj.mp h)
      have hbottom' : (@unpackExponent .binary64 x.toModel.toBits.toBitVec).toNat ≠ 0 := by
        intro h
        exact hbottom (BitVec.toNat_inj.mp h)
      have hexponent := (@unpackExponent .binary64 x.toModel.toBits.toBitVec).isLt
      change _ < 2 ^ 11 at hexponent
      change _ < 2 ^ 52 at hmantissa
      rw [Sound, toNat_leading_one]
      refine ⟨?_, ?_, ?_, ?_⟩ <;> omega

end Packed

end TensorParity
