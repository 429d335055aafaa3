import TensorParity.Proofs.Rounding.Numbers

/-!
Sums and products of doubles that are not negative grow with their operands. Both round the exact
result to a multiple of the last step of its binade. A larger number is never rounded to a smaller
one: within a binade rounding to whole steps keeps the order, and a binade ends where the next
begins. Infinity takes part as the first number beyond the range.
-/
namespace TensorParity

open Float.Model Float.Model.UnpackedFloat

theorem roundHalfEven_mono {m n : Nat} (denominator : Nat) (h : m ≤ n) :
    roundHalfEven m denominator ≤ roundHalfEven n denominator := by
  have hquotient : m / denominator ≤ n / denominator := Nat.div_le_div_right h
  have hm := Nat.div_add_mod m denominator
  have hn := Nat.div_add_mod n denominator
  unfold roundHalfEven
  rcases Nat.lt_or_ge (m / denominator) (n / denominator) with hlt | hge
  · grind
  · have hsame : m / denominator = n / denominator := by omega
    rw [hsame] at hm ⊢
    have hrest : m % denominator ≤ n % denominator := by omega
    grind

namespace Binade

/-- Places by which the last step of a quotient's binade is shifted. -/
def place (numerator denominator : Nat) : Nat := (numerator / denominator).log2 - 52

/-- A quotient in whole steps of its binade. -/
def steps (numerator denominator : Nat) : Nat :=
  roundHalfEven numerator (denominator * 2 ^ place numerator denominator)

/-- A quotient rounded to whole steps of its binade. -/
def rounded (numerator denominator : Nat) : Nat :=
  steps numerator denominator * 2 ^ place numerator denominator

variable {m n denominator : Nat}

theorem place_mono (h : m ≤ n) : place m denominator ≤ place n denominator := by
  rw [place, place, Nat.log2_eq_log_two, Nat.log2_eq_log_two]
  exact Nat.sub_le_sub_right (Nat.log_mono_right (Nat.div_le_div_right h)) 52

/-- Rounding stays in the binade, or reaches its end. -/
theorem steps_le (m denominator : Nat) : steps m denominator ≤ 2 ^ 53 := by
  have hquotient : m / (denominator * 2 ^ place m denominator) < 2 ^ 53 := by
    rw [← Nat.div_div_eq_div_mul, Nat.div_lt_iff_lt_mul (Nat.two_pow_pos _), ← pow_add]
    refine Nat.lt_log2_self.trans_le (Nat.pow_le_pow_right (by decide) ?_)
    rw [place]
    omega
  unfold steps roundHalfEven
  grind

/-- Beyond the first binade there is no rounding to below its start. -/
theorem le_steps (hplace : 0 < place n denominator) : 2 ^ 52 ≤ steps n denominator := by
  have hquotient : 2 ^ 52 ≤ n / (denominator * 2 ^ place n denominator) := by
    rw [← Nat.div_div_eq_div_mul, Nat.le_div_iff_mul_le (Nat.two_pow_pos _), ← pow_add]
    have hpositive : n / denominator ≠ 0 := by
      intro hzero
      simp [place, hzero] at hplace
    refine (Nat.pow_le_pow_right (by decide) ?_).trans (Nat.log2_self_le hpositive)
    rw [place] at hplace ⊢
    omega
  unfold steps roundHalfEven
  grind

/-- Rounding keeps the order, also from one binade to another. -/
theorem rounded_mono (h : m ≤ n) : rounded m denominator ≤ rounded n denominator := by
  have hplace : place m denominator ≤ place n denominator := place_mono h
  rcases hplace.eq_or_lt with hsame | hless
  · rw [rounded, rounded, steps, steps, hsame]
    exact Nat.mul_le_mul_right _ (roundHalfEven_mono _ h)
  · calc rounded m denominator ≤ 2 ^ 53 * 2 ^ place m denominator :=
          Nat.mul_le_mul_right _ (steps_le m denominator)
      _ = 2 ^ 52 * 2 ^ (place m denominator + 1) := by ring
      _ ≤ 2 ^ 52 * 2 ^ place n denominator :=
          Nat.mul_le_mul_left _ (Nat.pow_le_pow_right (by decide) hless)
      _ ≤ rounded n denominator := Nat.mul_le_mul_right _ (le_steps (by omega))

theorem rounded_zero (denominator : Nat) : rounded 0 denominator = 0 := by
  simp [rounded, steps, roundHalfEven]

/-- A mantissa and an exponent as a quotient of whole numbers, whose denominator makes up for the
places below the least. -/
theorem place_eq {m k : Nat} {e : ℤ} (hm : 0 < m) (hlow : -1074 ≤ e + k) :
    (place (m * 2 ^ (e + halvings + k).toNat) (2 ^ k) : ℤ) =
      max (m.log2 + e - 52) (-1074) + halvings := by
  have hhalvings := halvings_eq
  rw [place, Nat.log2_eq_log_two, Nat.log_div_base_pow, ← Nat.log2_eq_log_two,
    log2_mul_two_pow hm]
  omega

theorem steps_eq {m k : Nat} {e : ℤ} (hm : 0 < m) (hlow : -1074 ≤ e + k)
    (hexponent : e ≤ max (m.log2 + e - 52) (-1074)) :
    steps (m * 2 ^ (e + halvings + k).toNat) (2 ^ k) =
      roundHalfEven m (2 ^ (max (m.log2 + e - 52) (-1074) - e).toNat) := by
  have hhalvings := halvings_eq
  have hplace := place_eq hm hlow
  have hsum : k + place (m * 2 ^ (e + halvings + k).toNat) (2 ^ k) =
      (max (m.log2 + e - 52) (-1074) - e).toNat + (e + halvings + k).toNat := by
    omega
  rw [steps, ← pow_add, hsum, pow_add, roundHalfEven_scale (Nat.two_pow_pos _)]

end Binade

section Shift

/-- The bits that were dropped leave a trace unless all of them are zero. -/
theorem shiftRight_trace (m n : Nat) :
    ((ExtendedMantissa.mk m false false >>> n).roundBit ||
      (ExtendedMantissa.mk m false false >>> n).stickyBit) = (m % 2 ^ n != 0) := by
  change ((n.repeat ExtendedMantissa.shiftRightOne ⟨m, false, false⟩).roundBit ||
    (n.repeat ExtendedMantissa.shiftRightOne ⟨m, false, false⟩).stickyBit) = _
  induction n with
  | zero => simp [Nat.repeat, Nat.mod_one]
  | succ n ih =>
    have hkept : (n.repeat ExtendedMantissa.shiftRightOne ⟨m, false, false⟩).mantissa =
        m / 2 ^ n := shiftRight_mantissa ⟨m, false, false⟩ n
    have hsplit : m % 2 ^ (n + 1) = m % 2 ^ n + 2 ^ n * (m / 2 ^ n % 2) := by
      rw [pow_succ, Nat.mod_mul]
    rw [Nat.repeat, ExtendedMantissa.shiftRightOne, hkept, ih, hsplit]
    rcases Nat.mod_two_eq_zero_or_one (m / 2 ^ n) with hbit | hbit
    · simp [hbit]
    · simp [hbit]

/-- A half goes to the even neighbour, and a trace of smaller bits makes it more than a half. -/
theorem roundedMantissa_mk (quotient : Nat) (half trace : Bool) :
    (ExtendedMantissa.mk quotient half trace).roundedMantissa =
      if half then if trace then quotient + 1 else quotient + quotient % 2 else quotient := by
  cases half <;> cases trace <;> rfl

/-- What is kept of a mantissa is rounded as the quotient is. -/
theorem roundedMantissa_shiftRight (m n : Nat) :
    (ExtendedMantissa.mk m false false >>> n).roundedMantissa = roundHalfEven m (2 ^ n) := by
  cases n with
  | zero =>
    change m = _
    simp [roundHalfEven, Nat.mod_one]
  | succ n =>
    have hkept : (ExtendedMantissa.mk m false false >>> n).mantissa = m / 2 ^ n :=
      shiftRight_mantissa ⟨m, false, false⟩ n
    have hrest : m % 2 ^ n < 2 ^ n := Nat.mod_lt m (Nat.two_pow_pos n)
    have hquotient : m / 2 ^ (n + 1) = m / 2 ^ n / 2 := by
      rw [pow_succ, Nat.div_div_eq_div_mul]
    have hsplit : m % 2 ^ (n + 1) = m % 2 ^ n + 2 ^ n * (m / 2 ^ n % 2) := by
      rw [pow_succ, Nat.mod_mul]
    change (ExtendedMantissa.mk m false false >>> n).shiftRightOne.roundedMantissa = _
    rw [ExtendedMantissa.shiftRightOne, hkept, shiftRight_trace, roundedMantissa_mk, roundHalfEven,
      hsplit, hquotient, pow_succ]
    rcases Nat.mod_two_eq_zero_or_one (m / 2 ^ n) with hbit | hbit
    · have hdown : 2 * (m % 2 ^ n) < 2 ^ n * 2 := by omega
      simp [hbit, hdown]
    · by_cases hzero : m % 2 ^ n = 0
      · simp [hbit, hzero, Nat.mul_comm]
      · have hup : 2 ^ n * 2 < 2 * (m % 2 ^ n + 2 ^ n) := by omega
        simp [hbit, hzero, hup, hup.le]

variable {m : Nat} {e : ℤ}

theorem targetExponent_max (m : Nat) (e : ℤ) :
    Format.binary64.targetExponent (totalExponent m e) = max (m.log2 + e - 52) (-1074) := by
  have hmantissa : (Format.binary64.mantissaBits : ℤ) = 53 := rfl
  have hminimum : Format.binary64.minExponent = -1074 := rfl
  rw [Format.targetExponent, totalExponent, hmantissa, hminimum]
  omega

/-- A mantissa that has its place already stays there. -/
theorem shiftToTargetExponent_eq (hm : m < 2 ^ 53) (hlow : -1074 ≤ e) :
    shiftToTargetExponent .binary64 m e .exact = (⟨m, false, false⟩, e) := by
  have hlog : m.log2 < 53 := by
    rcases Nat.eq_zero_or_pos m with rfl | hpositive
    · decide
    · exact (Nat.log2_lt hpositive.ne').mpr hm
  have hshift : (max (m.log2 + e - 52) (-1074) - e).toNat = 0 := by omega
  rw [shiftToTargetExponent, targetExponent_max, shiftToExponent, hshift]
  exact Prod.ext rfl (add_zero e)

/-- A mantissa that a carry made too wide loses its last bit. -/
theorem shiftToTargetExponent_carry (hlow : -1074 ≤ e) :
    shiftToTargetExponent .binary64 (2 ^ 53) e .exact = (⟨2 ^ 52, false, false⟩, e + 1) := by
  have hshift : (max (((2 ^ 53 : Nat).log2 : ℤ) + e - 52) (-1074) - e).toNat = 1 := by
    rw [Nat.log2_two_pow]
    omega
  rw [shiftToTargetExponent, targetExponent_max, shiftToExponent, hshift]
  rfl

end Shift

/-- The first number beyond the range, `2 ^ 1024`. -/
@[irreducible]
def beyond : Nat := 2 ^ 52 * 2 ^ ((972 : ℤ) + halvings).toNat

theorem beyond_eq : beyond = 2 ^ 52 * 2 ^ ((972 : ℤ) + halvings).toNat := by
  rw [beyond]

theorem Canonical.units_lt {m : Nat} {e : ℤ} (h : Canonical m e) : units m e < beyond := by
  have hhigh := h.high
  calc units m e < 2 ^ 53 * 2 ^ (e + halvings).toNat :=
        Nat.mul_lt_mul_of_pos_right h.below (Nat.two_pow_pos _)
    _ = 2 ^ 52 * 2 ^ ((e + halvings).toNat + 1) := by ring
    _ ≤ 2 ^ 52 * 2 ^ ((972 : ℤ) + halvings).toNat :=
        Nat.mul_le_mul_left _ (Nat.pow_le_pow_right (by decide) (by omega))
    _ = beyond := beyond_eq.symm

/-- Where a double stands in the order. Infinity stands beyond all numbers, and what is no number
nowhere. -/
def level : UnpackedFloat → Option ℤ
  | .infinity sign => some (sign.apply beyond)
  | a => number a

section Round

variable {m k : Nat} {e : ℤ}

/-- A mantissa at its place is packed to what it stands for, or to infinity. -/
theorem level_pack (hm : 0 < m) (hbelow : m < 2 ^ 53) (hlow : -1074 ≤ e)
    (hnormal : 2 ^ 52 ≤ m ∨ e = -1074) :
    level (Float.Model.pack (.finite .positive m e hm)).unpack =
      some ((min (units m e) beyond : Nat) : ℤ) := by
  rcases le_or_gt e 971 with hhigh | hhigh
  · have hcanonical : Canonical m e := ⟨hbelow, hlow, hhigh, hnormal⟩
    have hsound : Sound (.finite .positive m e hm) := hcanonical
    rw [unpack_pack hsound, min_eq_left hcanonical.units_lt.le]
    rfl
  · have hlarge : beyond ≤ units m e := by
      have hleading : 2 ^ 52 ≤ m := hnormal.resolve_right (by omega)
      rw [beyond_eq]
      exact Nat.mul_le_mul hleading (Nat.pow_le_pow_right (by decide) (by omega))
    change level (UnpackedFloat.unpack .binary64 (UnpackedFloat.pack .binary64 _)) = _
    rw [pack_overflow (by omega), min_eq_right hlarge]
    rfl

/-- A mantissa with no more places than it has bits is rounded to whole steps of its binade. -/
theorem level_roundWithAccuracy (hm : 0 < m) (hlow : -1074 ≤ e + k)
    (hfits : 52 ≤ m.log2 ∨ e ≤ -1074) :
    level (Float.Model.pack (roundWithAccuracy .binary64 .positive m e .exact)).unpack =
      some ((min (Binade.rounded (m * 2 ^ (e + halvings + k).toNat) (2 ^ k)) beyond : Nat) : ℤ) := by
  have hexponent : e ≤ max (m.log2 + e - 52) (-1074) := by omega
  have hsteps := Binade.steps_eq hm hlow hexponent
  have hplace := Binade.place_eq hm hlow
  have hfull := Binade.steps_le (m * 2 ^ (e + halvings + k).toNat) (2 ^ k)
  have hstart : 0 < Binade.place (m * 2 ^ (e + halvings + k).toNat) (2 ^ k) →
      2 ^ 52 ≤ Binade.steps (m * 2 ^ (e + halvings + k).toNat) (2 ^ k) := Binade.le_steps
  have hfirst : shiftToTargetExponent .binary64 m e .exact =
      (ExtendedMantissa.mk m false false >>> (max (m.log2 + e - 52) (-1074) - e).toNat,
        max (m.log2 + e - 52) (-1074)) := by
    rw [shiftToTargetExponent, targetExponent_max, shiftToExponent]
    exact Prod.ext rfl (by simp only; omega)
  rw [Binade.rounded]
  simp only [roundWithAccuracy, hfirst, roundedMantissa_shiftRight, ← hsteps]
  generalize Binade.steps (m * 2 ^ (e + halvings + k).toNat) (2 ^ k) = steps at *
  generalize Binade.place (m * 2 ^ (e + halvings + k).toNat) (2 ^ k) = place at *
  have hleast : -1074 ≤ max (m.log2 + e - 52) (-1074) := le_max_right _ _
  generalize max (m.log2 + e - 52) (-1074) = target at *
  have hhalvings := halvings_eq
  have hunits : units steps target = steps * 2 ^ place := by
    rw [units, ← hplace, Int.toNat_natCast]
  rcases hfull.lt_or_eq with hsmall | rfl
  · simp only [shiftToTargetExponent_eq hsmall hleast]
    by_cases hzero : steps = 0
    · rw [dif_pos hzero, hzero, Nat.zero_mul, Nat.zero_min]
      rfl
    · rw [dif_neg hzero, level_pack (Nat.pos_of_ne_zero hzero) hsmall hleast (by omega), hunits]
  · -- a carry out of the binade moves on to the first step of the next
    simp only [shiftToTargetExponent_carry hleast]
    have hcarry : units (2 ^ 52) (target + 1) = 2 ^ 53 * 2 ^ place := by
      have hsum : (target + 1 + halvings).toNat = place + 1 := by omega
      rw [units, hsum]
      ring
    rw [dif_neg (by decide), level_pack (by decide) (by decide) (by omega) (.inl le_rfl), hcarry]

/-- A number is rounded to whole steps of its binade, whatever exponent spells it. -/
theorem level_round (hm : 0 < m) (hlow : -1074 ≤ e) :
    level (Float.Model.pack (UnpackedFloat.round .binary64 .positive m e)).unpack =
      some ((min (Binade.rounded (units m e) 1) beyond : Nat) : ℤ) := by
  simp only [UnpackedFloat.round, decreaseExponent, targetExponent_max, Nat.shiftLeft_eq]
  generalize hdrop : (e - max (m.log2 + e - 52) (-1074)).toNat = drop
  have hlog := log2_mul_two_pow hm drop
  have hunits : m * 2 ^ drop * 2 ^ (e - drop + halvings + (0 : Nat)).toNat = units m e := by
    have hhalvings := halvings_eq
    have hsum : drop + (e - drop + halvings + (0 : Nat)).toNat = (e + halvings).toNat := by omega
    rw [mul_assoc, ← pow_add, hsum, units]
  have hrounded := level_roundWithAccuracy (k := 0) (e := e - drop)
    (Nat.mul_pos hm (Nat.two_pow_pos drop)) (by omega) (by omega)
  rwa [hunits, pow_zero] at hrounded

/-- A mantissa at its place is a whole number of steps already. -/
theorem rounded_units (hbelow : m < 2 ^ 53) (hlow : -1074 ≤ e)
    (hnormal : 2 ^ 52 ≤ m ∨ e = -1074) : Binade.rounded (units m e) 1 = units m e := by
  rcases Nat.eq_zero_or_pos m with rfl | hm
  · rw [units, Nat.zero_mul, Binade.rounded_zero]
  have hlog : m.log2 < 53 := (Nat.log2_lt hm.ne').mpr hbelow
  have hleading : 2 ^ 52 ≤ m → 52 ≤ m.log2 := (Nat.le_log2 hm.ne').mpr
  have hplace := Binade.place_eq (k := 0) hm (by omega : -1074 ≤ e + (0 : Nat))
  have hsame : (e + halvings + (0 : Nat)).toNat = (e + halvings).toNat := by omega
  rw [hsame, pow_zero] at hplace
  have hstep : Binade.place (units m e) 1 = (e + halvings).toNat := by
    rw [units]
    omega
  rw [Binade.rounded, Binade.steps, hstep, one_mul]
  nth_rewrite 1 [units]
  rw [BinaryFormat.roundHalfEven_exact (Nat.two_pow_pos _), units]

theorem rounded_beyond : Binade.rounded beyond 1 = beyond := by
  have hunits : beyond = units (2 ^ 52) 972 := beyond_eq
  rw [hunits]
  exact rounded_units (by decide) (by decide) (.inl le_rfl)

end Round

section Order

variable {a b : UnpackedFloat} {p q : ℤ}

theorem beyond_pos : (0 : ℤ) < beyond := by
  rw [beyond_eq]
  positivity

theorem number_within (ha : Sound a) (hp : number a = some p) :
    -(beyond : ℤ) < p ∧ p < beyond := by
  cases a with
  | infinity => cases hp
  | notANumber => cases hp
  | zero s =>
    obtain rfl := Option.some.inj hp
    exact ⟨neg_lt_zero.mpr beyond_pos, beyond_pos⟩
  | finite s m e hm =>
    obtain rfl := Option.some.inj hp
    have hunits := Canonical.units_lt ha
    cases s with
    | negative =>
      change -(beyond : ℤ) < -(units m e : ℤ) ∧ -(units m e : ℤ) < beyond
      omega
    | positive =>
      change -(beyond : ℤ) < (units m e : ℤ) ∧ (units m e : ℤ) < beyond
      omega

/-- Infinity stands on its side of every number. -/
theorem compare_infinity_number (hb : Sound b) (hq : number b = some q) (s : Sign) :
    (UnpackedFloat.infinity s).compare b = some (compare (s.apply beyond) q) ∧
      b.compare (.infinity s) = some (compare q (s.apply beyond)) := by
  obtain ⟨hlow, hhigh⟩ := number_within hb hq
  cases s with
  | negative =>
    have happly : Sign.negative.apply (beyond : ℤ) = -beyond := rfl
    rw [happly, compare_lt_iff_lt.mpr hlow, compare_gt_iff_gt.mpr hlow]
    cases b with
    | infinity => cases hq
    | notANumber => cases hq
    | zero _ => exact ⟨rfl, rfl⟩
    | finite s' _ _ _ => cases s' <;> exact ⟨rfl, rfl⟩
  | positive =>
    have happly : Sign.positive.apply (beyond : ℤ) = beyond := rfl
    rw [happly, compare_lt_iff_lt.mpr hhigh, compare_gt_iff_gt.mpr hhigh]
    cases b with
    | infinity => cases hq
    | notANumber => cases hq
    | zero _ => exact ⟨rfl, rfl⟩
    | finite s' _ _ _ => cases s' <;> exact ⟨rfl, rfl⟩

/-- What stands in the order without being a number is infinity. -/
theorem level_cases (hp : level a = some p) :
    number a = some p ∨ ∃ s, a = .infinity s ∧ p = s.apply beyond := by
  cases a with
  | infinity s => exact .inr ⟨s, rfl, (Option.some.inj hp).symm⟩
  | notANumber => cases hp
  | zero _ => exact .inl hp
  | finite _ _ _ _ => exact .inl hp

/-- Doubles are compared as they stand in the order. -/
theorem compare_level (ha : Sound a) (hb : Sound b) (hp : level a = some p)
    (hq : level b = some q) : a.compare b = some (compare p q) := by
  rcases level_cases hp with hp | ⟨s, rfl, rfl⟩
  · rcases level_cases hq with hq | ⟨s', rfl, rfl⟩
    · exact compare_number ha hb hp hq
    · exact (compare_infinity_number ha hp s').2
  · rcases level_cases hq with hq | ⟨s', rfl, rfl⟩
    · exact (compare_infinity_number hb hq s).1
    · have hopposite : -(beyond : ℤ) < beyond := neg_lt_self beyond_pos
      cases s <;> cases s'
      · exact congrArg some (compare_eq_iff_eq.mpr rfl).symm
      · exact congrArg some (compare_lt_iff_lt.mpr hopposite).symm
      · exact congrArg some (compare_gt_iff_gt.mpr hopposite).symm
      · exact congrArg some (compare_eq_iff_eq.mpr rfl).symm

end Order

/-- Where a double stands in the order. -/
def StandsAt (x : Float) (p : ℤ) : Prop := level x.toModel.unpack = some p

namespace StandsAt

variable {x y : Float} {p q : ℤ}

theorem le_iff (hx : StandsAt x p) (hy : StandsAt y q) : x ≤ y ↔ p ≤ q := by
  change decide ((x.toModel.unpack.compare y.toModel.unpack).any (·.isLE) = true) = true ↔ _
  rw [compare_level (sound_unpack x) (sound_unpack y) hx hy, decide_eq_true_iff, Option.any_some,
    Ordering.isLE_iff_ne_gt]
  exact compare_le_iff_le

/-- What is a number or infinite stands in the order. -/
theorem of_not_isNaN (hx : ¬x.isNaN) : ∃ p, StandsAt x p := by
  rw [isNaN_iff] at hx
  cases hunpack : x.toModel.unpack with
  | notANumber => exact absurd hunpack hx
  | infinity s => exact ⟨_, by rw [StandsAt, hunpack]; rfl⟩
  | zero s => exact ⟨_, by rw [StandsAt, hunpack]; rfl⟩
  | finite s m e hm => exact ⟨_, by rw [StandsAt, hunpack]; rfl⟩

theorem of_le (h : x ≤ y) : (∃ p, StandsAt x p) ∧ ∃ q, StandsAt y q :=
  ⟨of_not_isNaN fun hx => (not_le_of_isNaN hx y).1 h,
    of_not_isNaN fun hy => (not_le_of_isNaN hy x).2 h⟩

theorem beq_self (hx : StandsAt x p) : (x == x) = true := by
  change (x.toModel.unpack.compare x.toModel.unpack == some .eq) = true
  rw [compare_level (sound_unpack x) (sound_unpack x) hx hx, beq_iff_eq, Option.some.injEq,
    compare_eq_iff_eq]

theorem of_isNumber (hx : IsNumber x p) : StandsAt x p := by
  rw [IsNumber] at hx
  rw [StandsAt]
  cases hunpack : x.toModel.unpack with
  | infinity => rw [hunpack] at hx; cases hx
  | notANumber => rw [hunpack] at hx; cases hx
  | zero s => rwa [hunpack] at hx
  | finite s m e hm => rwa [hunpack] at hx

end StandsAt

/-- Doubles in their order: what compares with the larger compares with the smaller. -/
theorem le_trans_float {x y z : Float} (hxy : x ≤ y) (hyz : y ≤ z) : x ≤ z := by
  obtain ⟨⟨p, hx⟩, q, hy⟩ := StandsAt.of_le hxy
  obtain ⟨-, r, hz⟩ := StandsAt.of_le hyz
  rw [hx.le_iff hz]
  exact ((hx.le_iff hy).mp hxy).trans ((hy.le_iff hz).mp hyz)

section Arithmetic

variable {a b : UnpackedFloat} {p q : Nat}

/-- What stands for a natural number is a zero or positive. -/
theorem number_natCast (h : number a = some (p : ℤ)) :
    (∃ s, a = .zero s ∧ p = 0) ∨ ∃ m e hm, a = .finite .positive m e hm ∧ p = units m e := by
  cases a with
  | infinity => cases h
  | notANumber => cases h
  | zero s => exact .inl ⟨s, rfl, (Int.ofNat.inj (Option.some.inj h)).symm⟩
  | finite s m e hm =>
    have hvalue : s.apply (units m e) = p := Option.some.inj h
    cases s with
    | negative =>
      have hpositive := units_pos hm e
      change -(units m e : ℤ) = p at hvalue
      omega
    | positive => exact .inr ⟨m, e, hm, rfl, (Int.ofNat.inj hvalue).symm⟩

/-- What has been packed and unpacked stands where it stood. -/
theorem level_unpack_pack (ha : Sound a) (hp : number a = some (p : ℤ)) :
    level (Float.Model.pack a).unpack = some ((min p beyond : Nat) : ℤ) := by
  obtain ⟨-, hbelow⟩ := number_within ha hp
  rw [unpack_pack ha, min_eq_left (by omega)]
  rcases number_natCast hp with ⟨s, rfl, rfl⟩ | ⟨m, e, hm, rfl, rfl⟩ <;> rfl

theorem rounded_number (ha : Sound a) (hp : number a = some (p : ℤ)) :
    Binade.rounded p 1 = p := by
  rcases number_natCast hp with ⟨s, rfl, rfl⟩ | ⟨m, e, hm, rfl, rfl⟩
  · exact Binade.rounded_zero 1
  · have hcanonical : Canonical m e := ha
    exact rounded_units hcanonical.below hcanonical.low hcanonical.normal

/-- Both are brought to the smaller exponent, where the mantissas add up. -/
private theorem level_add_finite {m m' : Nat} {e e' : ℤ} {hm : 0 < m} {hm' : 0 < m'}
    (hleast : -1074 ≤ e) (hleast' : -1074 ≤ e') :
    level (Float.Model.pack (UnpackedFloat.add .binary64 (.finite .positive m e hm)
      (.finite .positive m' e' hm'))).unpack =
        some ((min (Binade.rounded (units m e + units m' e') 1) beyond : Nat) : ℤ) := by
  have hlow : -1074 ≤ min e e' := le_min hleast hleast'
  have hfirst := decreaseExponent_units (m := m) hlow (min_le_left e e')
  have hsecond := decreaseExponent_units (m := m') hlow (min_le_right e e')
  generalize hn : (decreaseExponent m e (min e e')).1 = n at hfirst
  generalize hn' : (decreaseExponent m' e' (min e e')).1 = n' at hsecond
  have hpositive : 0 < n := by
    rcases Nat.eq_zero_or_pos n with rfl | hpositive
    · rw [Nat.zero_mul] at hfirst
      exact absurd hfirst.symm (units_pos hm e).ne'
    · exact hpositive
  have hsum : units m e + units m' e' = units (n + n') (min e e') := by
    rw [← hfirst, ← hsecond, ← add_mul, units]
  have hadded : UnpackedFloat.add .binary64 (.finite .positive m e hm)
      (.finite .positive m' e' hm') =
        UnpackedFloat.round .binary64 .positive (n + n') (min e e') := by
    rw [← hn, ← hn']
    change UnpackedFloat.normalize .binary64 (((decreaseExponent m e (min e e')).1 : ℤ) +
      ((decreaseExponent m' e' (min e e')).1 : ℤ)) (min e e') .positive = _
    rw [hn, hn', UnpackedFloat.normalize, compare_gt_iff_gt.mpr (by omega)]
    exact congrArg (UnpackedFloat.round .binary64 .positive · (min e e')) (by omega)
  rw [hadded, hsum]
  exact level_round (Nat.add_pos_left hpositive n') hlow

private theorem level_add_infinity (hp : number a = some (p : ℤ)) :
    level (Float.Model.pack (UnpackedFloat.add .binary64 a (.infinity .positive))).unpack =
      some ((min (Binade.rounded (p + beyond) 1) beyond : Nat) : ℤ) := by
  have hlarge : beyond ≤ Binade.rounded (p + beyond) 1 :=
    rounded_beyond.symm.le.trans (Binade.rounded_mono (Nat.le_add_left _ _))
  have hinfinite : UnpackedFloat.add .binary64 a (.infinity .positive) = .infinity .positive := by
    rcases number_natCast hp with ⟨s, rfl, rfl⟩ | ⟨m, e, hm, rfl, rfl⟩ <;> rfl
  rw [min_eq_right hlarge, hinfinite]
  rfl

/-- A sum is the exact sum rounded, infinity beyond the range. -/
theorem level_add (ha : Sound a) (hb : Sound b) (hp : number a = some (p : ℤ))
    (hq : level b = some (q : ℤ)) :
    level (Float.Model.pack (UnpackedFloat.add .binary64 a b)).unpack =
      some ((min (Binade.rounded (p + q) 1) beyond : Nat) : ℤ) := by
  rcases level_cases hq with hq | ⟨s, rfl, hs⟩
  · rcases number_natCast hp with ⟨s, rfl, rfl⟩ | ⟨m, e, hm, rfl, rfl⟩
    · rw [Nat.zero_add, rounded_number hb hq]
      rcases number_natCast hq with ⟨s', rfl, rfl⟩ | ⟨m', e', hm', rfl, rfl⟩
      · rw [Nat.zero_min]
        cases s <;> cases s' <;> rfl
      · exact level_unpack_pack hb hq
    · rcases number_natCast hq with ⟨s', rfl, rfl⟩ | ⟨m', e', hm', rfl, rfl⟩
      · rw [Nat.add_zero, rounded_number ha hp]
        exact level_unpack_pack ha hp
      · exact level_add_finite (Canonical.low ha) (Canonical.low hb)
  · cases s with
    | negative =>
      change (q : ℤ) = -(beyond : ℤ) at hs
      have hbeyond := beyond_pos
      omega
    | positive =>
      obtain rfl : q = beyond := Int.ofNat.inj hs
      exact level_add_infinity hp

/-- A product is the exact product rounded, infinity beyond the range. -/
theorem level_mul (ha : Sound a) (hb : Sound b) (hp : number a = some (p : ℤ))
    (hq : number b = some (q : ℤ)) :
    level (Float.Model.pack (UnpackedFloat.mul .binary64 a b)).unpack =
      some ((min (Binade.rounded (p * q) unitsOfOne) beyond : Nat) : ℤ) := by
  rcases number_natCast hp with ⟨s, rfl, rfl⟩ | ⟨m, e, hm, rfl, rfl⟩
  · rw [Nat.zero_mul, Binade.rounded_zero]
    rcases number_natCast hq with ⟨s', rfl, rfl⟩ | ⟨m', e', hm', rfl, rfl⟩
    · have hzero : UnpackedFloat.mul .binary64 (.zero s) (.zero s') = .zero (s * s') := rfl
      rw [hzero]
      exact level_unpack_pack trivial rfl
    · have hzero : UnpackedFloat.mul .binary64 (.zero s) (.finite .positive m' e' hm') =
          .zero (s * .positive) := rfl
      rw [hzero]
      exact level_unpack_pack trivial rfl
  · rcases number_natCast hq with ⟨s', rfl, rfl⟩ | ⟨m', e', hm', rfl, rfl⟩
    · rw [Nat.mul_zero, Binade.rounded_zero]
      have hzero : UnpackedFloat.mul .binary64 (.finite .positive m e hm) (.zero s') =
          .zero (.positive * s') := rfl
      rw [hzero]
      exact level_unpack_pack trivial rfl
    · obtain ⟨-, hlow, -, hnormal⟩ := ha
      obtain ⟨-, hlow', -, hnormal'⟩ := hb
      have hhalvings := halvings_eq
      have hproduct : 0 < m * m' := Nat.mul_pos hm hm'
      have hfits : 52 ≤ (m * m').log2 ∨ e + e' ≤ -1074 := by
        rcases hnormal with hleading | rfl
        · exact .inl ((Nat.le_log2 hproduct.ne').mpr (hleading.trans (Nat.le_mul_of_pos_right m hm')))
        · rcases hnormal' with hleading' | rfl
          · exact .inl ((Nat.le_log2 hproduct.ne').mpr
              (hleading'.trans (Nat.le_mul_of_pos_left m' hm)))
          · exact .inr (by decide)
      have hexponent : (e + halvings).toNat + (e' + halvings).toNat =
          (e + e' + halvings + halvings).toNat := by
        omega
      have hunits : units m e * units m' e' =
          m * m' * 2 ^ (e + e' + halvings + halvings).toNat := by
        rw [← hexponent, pow_add, units, units]
        ring
      rw [hunits]
      exact level_roundWithAccuracy hproduct (by omega) hfits

end Arithmetic

section Growth

variable {x y x' y' : Float} {p q p' q' : Nat}

theorem StandsAt.add (hx : IsNumber x p) (hy : StandsAt y q) :
    StandsAt (x + y) (min (Binade.rounded (p + q) 1) beyond : Nat) :=
  level_add (sound_unpack x) (sound_unpack y) hx hy

theorem StandsAt.mul (hx : IsNumber x p) (hy : IsNumber y q) :
    StandsAt (x * y) (min (Binade.rounded (p * q) unitsOfOne) beyond : Nat) :=
  level_mul (sound_unpack x) (sound_unpack y) hx hy

/-- A finite double that is not negative is a natural number. -/
theorem exists_isNumber_natCast (hfinite : x.isFinite = true) (hlow : 0.0 ≤ x) :
    ∃ n : Nat, IsNumber x n := by
  obtain ⟨n, hn⟩ := exists_isNumber_of_isFinite hfinite
  have hzero : IsNumber 0.0 0 := by decide +kernel
  obtain ⟨n, rfl⟩ := Int.eq_ofNat_of_zero_le ((hzero.le_iff hn).mp hlow)
  exact ⟨n, hn⟩

theorem exists_isNumber_abs (hfinite : x.isFinite = true) : ∃ n : Nat, IsNumber x.abs n := by
  obtain ⟨n, hn⟩ := exists_isNumber_of_isFinite hfinite
  have habs := hn.abs
  rw [Int.abs_eq_natAbs] at habs
  exact ⟨n.natAbs, habs⟩

/-- A finite double less itself is zero. -/
theorem isNumber_sub_self (hfinite : x.isFinite = true) : IsNumber (x - x) 0 := by
  obtain ⟨n, hn⟩ := exists_isNumber_of_isFinite hfinite
  have hnone : n - n = 0 * unitsOfOne := by rw [sub_self, zero_mul]
  have hdifference := hn.sub hn hnone (by decide)
  rwa [zero_mul] at hdifference

end Growth

end TensorParity
