import Mathlib
import TensorParity.Rounding.Format

/-!
Rounding to the nearest number of a binary format. A quotient that lies in the rounding interval of
an encoding is rounded to that encoding, whatever its numerator and denominator are. Widening an
encoding keeps its value, so a value that came from a narrow format goes back to the same encoding.
-/
namespace TensorParity

/-- The rounded quotient is the integer whose half-open surroundings hold the quotient. The ends
belong to an even integer. -/
theorem roundHalfEven_eq {numerator denominator n : Nat} (hpos : 0 < denominator)
    (hlow : 2 * n * denominator ≤ 2 * numerator + denominator)
    (hhigh : 2 * numerator ≤ 2 * n * denominator + denominator)
    (hodd : n % 2 = 1 → 2 * n * denominator < 2 * numerator + denominator ∧
      2 * numerator < 2 * n * denominator + denominator) :
    roundHalfEven numerator denominator = n := by
  have hdivide := Nat.div_add_mod numerator denominator
  have hrest := Nat.mod_lt numerator hpos
  unfold roundHalfEven
  generalize numerator / denominator = quotient at *
  generalize numerator % denominator = rest at *
  have hupper : n ≤ quotient + 1 := by
    by_contra hfar
    linarith [Nat.mul_le_mul_left denominator (show quotient + 2 ≤ n by omega)]
  have hlower : quotient ≤ n := by
    by_contra hfar
    linarith [Nat.mul_le_mul_left denominator (show n + 1 ≤ quotient by omega)]
  rcases Nat.lt_or_ge n (quotient + 1) with hbelow | habove
  · obtain rfl : n = quotient := by omega
    have hproduct : 2 * n * denominator = 2 * (denominator * n) := by ring
    grind
  · obtain rfl : n = quotient + 1 := by omega
    have hproduct : 2 * (quotient + 1) * denominator =
        2 * (denominator * quotient) + 2 * denominator := by ring
    grind

/-- Only the value of a quotient counts, not how it is written. -/
theorem roundHalfEven_scale {numerator denominator k : Nat} (hk : 0 < k) :
    roundHalfEven (numerator * k) (denominator * k) = roundHalfEven numerator denominator := by
  have hrest : numerator * k % (denominator * k) = numerator % denominator * k :=
    Nat.mul_mod_mul_right k numerator denominator
  have hdouble : 2 * (numerator % denominator * k) = 2 * (numerator % denominator) * k := by ring
  simp only [roundHalfEven, Nat.mul_div_mul_right _ _ hk, hrest, hdouble,
    Nat.mul_lt_mul_right hk]

namespace BinaryFormat

variable {f : BinaryFormat} {bits numerator denominator : Nat}

/-- An encoding counts the significand on from where the binade of its scale starts. -/
theorem scale_add_significand (f : BinaryFormat) (bits : Nat) :
    f.scale bits * 2 ^ f.fractionBits + f.significand bits = bits := by
  have hpos : 0 < 2 ^ f.fractionBits := Nat.two_pow_pos _
  simp only [scale, significand, Nat.pow_eq]
  split
  · rename_i hsmall
    simp [Nat.div_eq_of_lt hsmall]
  · rename_i hlarge
    have hquotient : 0 < bits / 2 ^ f.fractionBits := Nat.div_pos (by omega) hpos
    have hdivide := Nat.div_add_mod bits (2 ^ f.fractionBits)
    obtain ⟨binade, hbinade⟩ := Nat.exists_eq_add_of_lt hquotient
    rw [hbinade] at hdivide ⊢
    simp only [Nat.zero_add, Nat.add_sub_cancel] at hdivide ⊢
    linarith

theorem significand_lt (f : BinaryFormat) (bits : Nat) :
    f.significand bits < 2 * 2 ^ f.fractionBits := by
  have hpos : 0 < 2 ^ f.fractionBits := Nat.two_pow_pos _
  simp only [significand, Nat.pow_eq]
  split
  · omega
  · have := Nat.mod_lt bits hpos
    omega

/-- Beyond the first binade a significand has its leading bit. -/
theorem le_significand (h : 0 < f.scale bits) : 2 ^ f.fractionBits ≤ f.significand bits := by
  have hlarge : ¬ bits < 2 ^ f.fractionBits := by
    intro hsmall
    simp [scale, Nat.div_eq_of_lt hsmall] at h
  simp [significand, hlarge]

/-- Four times the distance from an encoding down to the end of its rounding interval, in units of
its last place: the neighbour below is half as far where a binade starts. -/
def gap (f : BinaryFormat) (bits : Nat) : Nat :=
  if f.significand bits = 2 ^ f.fractionBits ∧ 0 < f.scale bits then 1 else 2

/-- The quotient lies in the interval of values that are nearest to an encoding. Its ends belong to
it where the encoding is even. -/
structure Rounds (f : BinaryFormat) (bits numerator denominator : Nat) : Prop where
  positive : 0 < denominator
  low : 4 * f.significand bits * 2 ^ f.scale bits * denominator ≤
    4 * numerator + f.gap bits * 2 ^ f.scale bits * denominator
  high : 4 * numerator ≤ (4 * f.significand bits + 2) * 2 ^ f.scale bits * denominator
  odd : f.significand bits % 2 = 1 →
    4 * f.significand bits * 2 ^ f.scale bits * denominator <
        4 * numerator + f.gap bits * 2 ^ f.scale bits * denominator ∧
      4 * numerator < (4 * f.significand bits + 2) * 2 ^ f.scale bits * denominator

theorem gap_le (f : BinaryFormat) (bits : Nat) : f.gap bits ≤ 2 := by
  unfold gap
  split <;> omega

/-- The binade that `nearest` looks for, of a quotient between two powers of two. -/
theorem log2_div_sub {place : Nat} (hpos : 0 < denominator)
    (hlow : place = 0 ∨ 2 ^ (f.fractionBits + place) * denominator ≤ numerator)
    (hhigh : numerator < 2 ^ (f.fractionBits + place + 1) * denominator) :
    (numerator / denominator).log2 - f.fractionBits = place := by
  have hbelow : numerator / denominator < 2 ^ (f.fractionBits + place + 1) :=
    (Nat.div_lt_iff_lt_mul hpos).mpr hhigh
  rcases hlow with rfl | hlow
  · have hlog : (numerator / denominator).log2 < f.fractionBits + 1 := by
      rcases Nat.eq_zero_or_pos (numerator / denominator) with hzero | hnonzero
      · simp [hzero]
      · exact (Nat.log2_lt (by omega)).mpr (by simpa using hbelow)
    omega
  · have habove : 2 ^ (f.fractionBits + place) ≤ numerator / denominator :=
      (Nat.le_div_iff_mul_le hpos).mpr hlow
    have hnonzero : numerator / denominator ≠ 0 := by
      have := Nat.two_pow_pos (f.fractionBits + place)
      omega
    have hlower : f.fractionBits + place ≤ (numerator / denominator).log2 :=
      (Nat.le_log2 hnonzero).mpr habove
    have hupper : (numerator / denominator).log2 < f.fractionBits + place + 1 :=
      (Nat.log2_lt hnonzero).mpr hbelow
    omega

/-- A value in the binade of its encoding is rounded there. -/
theorem nearest_eq_inside (hfinite : bits < f.infinity) (h : f.Rounds bits numerator denominator)
    (hbinade : f.scale bits = 0 ∨
      2 ^ (f.fractionBits + f.scale bits) * denominator ≤ numerator) :
    f.nearest numerator denominator = bits := by
  obtain ⟨hpos, hlow, hhigh, hodd⟩ := h
  have hbits := f.scale_add_significand bits
  have hsmall := f.significand_lt bits
  have hgap := f.gap_le bits
  simp only [nearest, Nat.pow_eq]
  generalize f.significand bits = m at *
  generalize f.scale bits = s at *
  generalize f.gap bits = g at *
  have hplace : (numerator / denominator).log2 - f.fractionBits = s := by
    refine log2_div_sub hpos hbinade ?_
    have hstep : 0 < 2 ^ s * denominator := Nat.mul_pos (Nat.two_pow_pos _) hpos
    have hpow : 2 ^ (f.fractionBits + s + 1) = 2 * 2 ^ f.fractionBits * 2 ^ s := by ring
    rw [hpow]
    have := Nat.mul_le_mul_right (2 ^ s * denominator) (show m + 1 ≤ 2 * 2 ^ f.fractionBits by
      omega)
    linarith
  have hround : roundHalfEven numerator (denominator * 2 ^ s) = m := by
    have := Nat.mul_le_mul_right (2 ^ s * denominator) hgap
    refine roundHalfEven_eq (by positivity) (by linarith) (by linarith) ?_
    intro hm
    obtain ⟨hlow', hhigh'⟩ := hodd hm
    constructor <;> linarith
  rw [hplace, hround, hbits]
  omega

/-- A value below the binade of its encoding is rounded in the binade before, up to its end. The
encoding has the least significand, else the value would not be near it. -/
theorem nearest_eq_below (hfraction : 0 < f.fractionBits) (hfinite : bits < f.infinity)
    (h : f.Rounds bits numerator denominator) (hscale : 0 < f.scale bits)
    (hbelow : numerator < 2 ^ (f.fractionBits + f.scale bits) * denominator) :
    f.nearest numerator denominator = bits := by
  obtain ⟨hpos, hlow, -, -⟩ := h
  have hbits := f.scale_add_significand bits
  have hgap := f.gap_le bits
  have hlarge : 2 ^ f.fractionBits ≤ f.significand bits := le_significand hscale
  have hstart : f.significand bits = 2 ^ f.fractionBits → f.gap bits = 1 :=
    fun hleast => by simp [gap, hscale, hleast]
  obtain ⟨half, hhalf⟩ : ∃ half, 2 ^ f.fractionBits = 2 * half :=
    ⟨2 ^ (f.fractionBits - 1), by rw [← Nat.pow_succ']; congr 1; omega⟩
  simp only [nearest, Nat.pow_eq]
  generalize f.significand bits = m at *
  generalize f.scale bits = s at *
  generalize f.gap bits = g at *
  have hstep : 0 < 2 ^ s * denominator := Nat.mul_pos (Nat.two_pow_pos _) hpos
  have hleast : m = 2 ^ f.fractionBits := by
    have hnear : 4 * m < 4 * 2 ^ f.fractionBits + g := by
      have hpow : 2 ^ (f.fractionBits + s) = 2 ^ f.fractionBits * 2 ^ s := by ring
      rw [hpow] at hbelow
      by_contra hfar
      have := Nat.mul_le_mul_right (2 ^ s * denominator)
        (show 4 * 2 ^ f.fractionBits + g ≤ 4 * m by omega)
      linarith
    omega
  obtain rfl : g = 1 := hstart hleast
  obtain ⟨t, rfl⟩ : ∃ t, s = t + 1 := ⟨s - 1, by omega⟩
  have hplace : (numerator / denominator).log2 - f.fractionBits = t := by
    refine log2_div_sub hpos (Or.inr ?_) hbelow
    have hpow : 2 ^ (f.fractionBits + t) = 2 ^ f.fractionBits * 2 ^ t := by ring
    rw [hpow]
    have hwide : 2 ^ t * denominator ≤ 2 ^ f.fractionBits * (2 ^ t * denominator) :=
      Nat.le_mul_of_pos_left _ (Nat.two_pow_pos _)
    rw [hleast, Nat.pow_succ] at hlow
    linarith
  have hround : roundHalfEven numerator (denominator * 2 ^ t) = 2 * 2 ^ f.fractionBits := by
    rw [hleast, Nat.pow_succ] at hlow
    rw [show f.fractionBits + (t + 1) = f.fractionBits + 1 + t by omega, Nat.pow_add,
      Nat.pow_succ] at hbelow
    refine roundHalfEven_eq (by positivity) (by linarith) (by linarith) ?_
    intro hm
    omega
  rw [hplace, hround]
  have hcarry : t * 2 ^ f.fractionBits + 2 * 2 ^ f.fractionBits = bits := by
    rw [← hbits, hleast]
    ring
  omega

/-- Rounding finds the encoding in whose interval a quotient lies. -/
theorem nearest_eq (hfraction : 0 < f.fractionBits) (hfinite : bits < f.infinity)
    (h : f.Rounds bits numerator denominator) : f.nearest numerator denominator = bits := by
  by_cases hbinade : f.scale bits = 0 ∨
      2 ^ (f.fractionBits + f.scale bits) * denominator ≤ numerator
  · exact nearest_eq_inside hfinite h hbinade
  · push Not at hbinade
    exact nearest_eq_below hfraction hfinite h (Nat.pos_of_ne_zero hbinade.1) hbinade.2

/-- Rounding looks at the value of a quotient only. -/
theorem nearest_scale {k : Nat} (hk : 0 < k) :
    f.nearest (numerator * k) (denominator * k) = f.nearest numerator denominator := by
  have hshift (place : Nat) : denominator * k * 2 ^ place = denominator * 2 ^ place * k := by ring
  simp only [nearest, Nat.mul_div_mul_right _ _ hk, Nat.pow_eq, hshift, roundHalfEven_scale hk]

/-- An encoding is nearest to its own value. -/
theorem rounds_units (f : BinaryFormat) (bits : Nat) (hpos : 0 < denominator) :
    f.Rounds bits (f.units bits * denominator) denominator := by
  have hstep : 0 < 2 ^ f.scale bits * denominator := Nat.mul_pos (Nat.two_pow_pos _) hpos
  have hgap : 0 < f.gap bits := by
    unfold gap
    split <;> omega
  have hlow : 0 < f.gap bits * (2 ^ f.scale bits * denominator) := Nat.mul_pos hgap hstep
  refine ⟨hpos, ?_, ?_, fun _ => ⟨?_, ?_⟩⟩ <;> simp only [units, Nat.pow_eq] <;> linarith

theorem nearest_units (hfraction : 0 < f.fractionBits) (hfinite : bits < f.infinity)
    (hpos : 0 < denominator) : f.nearest (f.units bits * denominator) denominator = bits :=
  nearest_eq hfraction hfinite (rounds_units f bits hpos)

theorem nearest_le_infinity (f : BinaryFormat) (numerator denominator : Nat) :
    f.nearest numerator denominator ≤ f.infinity :=
  Nat.min_le_right _ _

/-- A quotient below a power of two is not rounded far beyond it. -/
theorem nearest_le {place : Nat} (hpos : 0 < denominator)
    (hhigh : numerator < 2 ^ (f.fractionBits + place + 1) * denominator) :
    f.nearest numerator denominator ≤ (place + 2) * 2 ^ f.fractionBits := by
  have hround (n d : Nat) : roundHalfEven n d ≤ n / d + 1 := by
    unfold roundHalfEven
    grind
  generalize hscale : (numerator / denominator).log2 - f.fractionBits = scale
  have hquotient : numerator / denominator < 2 ^ (f.fractionBits + place + 1) :=
    (Nat.div_lt_iff_lt_mul hpos).mpr hhigh
  have hplace : scale ≤ place := by
    by_cases hzero : numerator / denominator = 0
    · simp [hzero] at hscale
      omega
    · have := (Nat.log2_lt hzero).mpr hquotient
      omega
  have hrest : numerator / (denominator * 2 ^ scale) < 2 * 2 ^ f.fractionBits := by
    rw [← Nat.div_div_eq_div_mul, Nat.div_lt_iff_lt_mul (Nat.two_pow_pos _), ← Nat.pow_succ',
      ← Nat.pow_add]
    by_cases hzero : numerator / denominator = 0
    · rw [hzero]
      exact Nat.two_pow_pos _
    · refine (Nat.log2_lt hzero).mp ?_
      omega
  have hsteps := Nat.mul_le_mul_right (2 ^ f.fractionBits) hplace
  have := hround numerator (denominator * 2 ^ scale)
  simp only [nearest, Nat.pow_eq, hscale]
  refine Nat.le_trans (Nat.min_le_left _ _) ?_
  rw [Nat.add_mul]
  omega

end BinaryFormat

end TensorParity
