import TensorParity.Proofs.Rounding.Nearest
import TensorParity.Rounding.Narrow

/-!
Conversion between binary formats. A conversion rounds the value of an encoding to the other format.
Between a format and one that holds all of its numbers, widening keeps the value and narrowing takes
it back, so rounding a double through single or half precision a second time changes nothing.
-/
namespace TensorParity

namespace BinaryFormat

variable {source target : BinaryFormat} {bits : Nat}

/-- An integral quotient is not rounded. -/
theorem roundHalfEven_exact {n denominator : Nat} (hpos : 0 < denominator) :
    roundHalfEven (n * denominator) denominator = n := by
  refine roundHalfEven_eq hpos (by linarith) (by linarith) ?_
  intro _
  constructor <;> linarith

theorem significand_pos (f : BinaryFormat) (h : bits ≠ 0) : 0 < f.significand bits := by
  have := Nat.two_pow_pos f.fractionBits
  simp only [significand, Nat.pow_eq]
  split <;> omega

/-- A conversion rounds the value of an encoding, counted in units of the target. -/
theorem convert_eq_nearest (source target : BinaryFormat) (bits : Nat) :
    source.convert target bits =
      target.nearest (source.significand bits * 2 ^ (source.scale bits + target.unitExponent))
        (2 ^ source.unitExponent) := by
  by_cases hzero : bits = 0
  · have hpos := Nat.two_pow_pos source.unitExponent
    subst hzero
    simp [convert, nearest, significand, roundHalfEven]
  · have hnonzero := (source.significand_pos hzero).ne'
    simp only [convert, if_neg hzero]
    generalize source.significand bits = m at *
    generalize source.scale bits + target.unitExponent = up
    have hlow : 2 ^ m.log2 ≤ m := Nat.log2_self_le hnonzero
    have hhigh : m < 2 ^ (m.log2 + 1) := (Nat.log2_lt hnonzero).mp (Nat.lt_succ_self _)
    have hplace : (m * 2 ^ up / 2 ^ source.unitExponent).log2 - target.fractionBits =
        m.log2 + up - (source.unitExponent + target.fractionBits) := by
      refine log2_div_sub (Nat.two_pow_pos _) ?_ ?_
      · rcases Nat.eq_zero_or_pos
          (m.log2 + up - (source.unitExponent + target.fractionBits)) with hnone | hsome
        · exact Or.inl hnone
        · refine Or.inr ?_
          rw [← Nat.pow_add, show target.fractionBits +
              (m.log2 + up - (source.unitExponent + target.fractionBits)) + source.unitExponent =
              m.log2 + up by omega, Nat.pow_add]
          exact Nat.mul_le_mul_right _ hlow
      · calc m * 2 ^ up < 2 ^ (m.log2 + 1) * 2 ^ up :=
              Nat.mul_lt_mul_of_pos_right hhigh (Nat.two_pow_pos _)
          _ = 2 ^ (m.log2 + 1 + up) := (Nat.pow_add ..).symm
          _ ≤ 2 ^ (target.fractionBits + (m.log2 + up -
                (source.unitExponent + target.fractionBits)) + 1 + source.unitExponent) :=
              Nat.pow_le_pow_right (by omega) (by omega)
          _ = _ := Nat.pow_add ..
    simp only [nearest, hplace, Nat.pow_eq]
    generalize m.log2 + up - (source.unitExponent + target.fractionBits) = scale
    congr 2
    rw [← Nat.pow_add]
    split
    · rename_i hfit
      conv_rhs => rw [← Nat.sub_add_cancel hfit, Nat.pow_add]
      exact (roundHalfEven_scale (Nat.two_pow_pos up)).symm
    · rename_i hshort
      rw [show m * 2 ^ up = m * 2 ^ (up - (source.unitExponent + scale)) *
        2 ^ (source.unitExponent + scale) by
          rw [Nat.mul_assoc, ← Nat.pow_add]; congr 2; omega]
      exact (roundHalfEven_exact (Nat.two_pow_pos _)).symm

/-- Every finite number of one format is a number of the other. -/
structure Embeds (source target : BinaryFormat) : Prop where
  fraction : 0 < source.fractionBits
  fractionBits : source.fractionBits ≤ target.fractionBits
  least : source.unitExponent + target.fractionBits ≤ target.unitExponent
  greatest : source.fractionBits + 2 ^ source.exponentBits + target.unitExponent + 3 ≤
    2 ^ target.exponentBits + source.unitExponent + target.fractionBits

theorem single_embeds : Embeds binary32 binary64 := by
  constructor <;> decide

theorem half_embeds_single : Embeds binary16 binary32 := by
  constructor <;> decide

theorem half_embeds : Embeds binary16 binary64 := by
  constructor <;> decide

/-- Scale and significand of an encoding that is put together from them. -/
theorem significand_compose {f : BinaryFormat} {m : Nat} (scale : Nat)
    (hlow : 2 ^ f.fractionBits ≤ m)
    (hhigh : m < 2 * 2 ^ f.fractionBits) :
    f.significand (scale * 2 ^ f.fractionBits + m) = m ∧
      f.scale (scale * 2 ^ f.fractionBits + m) = scale := by
  obtain ⟨rest, rfl⟩ := Nat.exists_eq_add_of_le hlow
  have hpos := Nat.two_pow_pos f.fractionBits
  have hsplit : scale * 2 ^ f.fractionBits + (2 ^ f.fractionBits + rest) =
      rest + (scale + 1) * 2 ^ f.fractionBits := by ring
  have hrest : rest < 2 ^ f.fractionBits := by omega
  have hlarge : ¬ rest + (scale + 1) * 2 ^ f.fractionBits < 2 ^ f.fractionBits := by
    rw [Nat.add_mul]
    omega
  simp only [significand, BinaryFormat.scale, Nat.pow_eq, hsplit]
  rw [if_neg hlarge]
  simp [Nat.add_mul_mod_self_right, Nat.add_mul_div_right _ _ hpos, Nat.mod_eq_of_lt hrest,
    Nat.div_eq_of_lt hrest, Nat.add_comm]

theorem scale_lt (h : bits < source.infinity) : source.scale bits < 2 ^ source.exponentBits := by
  have hquotient : bits / 2 ^ source.fractionBits < 2 ^ source.exponentBits - 1 :=
    (Nat.div_lt_iff_lt_mul (Nat.two_pow_pos _)).mpr h
  have := Nat.two_pow_pos source.exponentBits
  simp only [scale, Nat.pow_eq]
  omega

/-- The target has an encoding for what a significand and a scale of the source stand for. -/
theorem exists_embedded (h : Embeds source target) {m s : Nat} (hnonzero : m ≠ 0)
    (hsmall : m < 2 * 2 ^ source.fractionBits) (hscale : s < 2 ^ source.exponentBits) :
    ∃ wide < target.infinity,
      m * 2 ^ (s + target.unitExponent) = target.units wide * 2 ^ source.unitExponent := by
  obtain ⟨-, hwide, hleast, hgreatest⟩ := h
  have hlow : 2 ^ m.log2 ≤ m := Nat.log2_self_le hnonzero
  have hhigh : m < 2 ^ (m.log2 + 1) := (Nat.log2_lt hnonzero).mp (Nat.lt_succ_self _)
  have hlog : m.log2 ≤ source.fractionBits := by
    have hbound : m < 2 ^ (source.fractionBits + 1) := by
      rw [Nat.pow_succ]
      omega
    exact Nat.lt_succ_iff.mp ((Nat.log2_lt hnonzero).mpr hbound)
  -- The significand is shifted until its leading bit is the one that the target keeps implicit.
  obtain ⟨shift, hshift⟩ : ∃ shift, target.fractionBits = m.log2 + shift :=
    ⟨target.fractionBits - m.log2, by omega⟩
  obtain ⟨place, hplace⟩ : ∃ place,
      shift + place + source.unitExponent = s + target.unitExponent :=
    ⟨s + target.unitExponent - shift - source.unitExponent, by omega⟩
  have hm : 2 ^ target.fractionBits ≤ m * 2 ^ shift := by
    rw [hshift, Nat.pow_add]
    exact Nat.mul_le_mul_right _ hlow
  have hm' : m * 2 ^ shift < 2 * 2 ^ target.fractionBits := by
    rw [hshift, Nat.pow_add, ← Nat.mul_assoc, ← Nat.pow_succ']
    exact Nat.mul_lt_mul_of_pos_right hhigh (Nat.two_pow_pos _)
  obtain ⟨hsignificand, hbinade⟩ := significand_compose place hm hm'
  refine ⟨place * 2 ^ target.fractionBits + m * 2 ^ shift, ?_, ?_⟩
  · have hroom : place + 3 ≤ 2 ^ target.exponentBits := by omega
    calc place * 2 ^ target.fractionBits + m * 2 ^ shift
        < (place + 2) * 2 ^ target.fractionBits := by linarith
      _ ≤ (2 ^ target.exponentBits - 1) * 2 ^ target.fractionBits :=
        Nat.mul_le_mul_right _ (by omega)
  · simp only [units, Nat.pow_eq, hsignificand, hbinade, ← hplace]
    ring

/-- Widening keeps the value of a finite encoding and yields a finite encoding. -/
theorem convert_widen (h : Embeds source target) (hfinite : bits < source.infinity) :
    source.convert target bits < target.infinity ∧
      target.units (source.convert target bits) * 2 ^ source.unitExponent =
        source.units bits * 2 ^ target.unitExponent := by
  have hfraction : 0 < target.fractionBits := h.fraction.trans_le h.fractionBits
  by_cases hzero : bits = 0
  · subst hzero
    have hroom : 1 < 2 ^ target.exponentBits := by
      have := h.greatest
      have := h.least
      have := Nat.two_pow_pos source.exponentBits
      omega
    have hpos : 0 < (2 ^ target.exponentBits - 1) * 2 ^ target.fractionBits :=
      Nat.mul_pos (by omega) (Nat.two_pow_pos _)
    simpa [convert, units, significand, infinity] using hpos
  · obtain ⟨wide, hwideFinite, hvalue⟩ := exists_embedded h (source.significand_pos hzero).ne'
      (source.significand_lt bits) (scale_lt hfinite)
    rw [convert_eq_nearest, hvalue, nearest_units hfraction hwideFinite (Nat.two_pow_pos _)]
    refine ⟨hwideFinite, ?_⟩
    rw [← hvalue, units, Nat.pow_eq, Nat.mul_assoc, ← Nat.pow_add]

/-- Narrowing takes a widened number back to its encoding. -/
theorem convert_convert (h : Embeds source target) (hfinite : bits < source.infinity) :
    target.convert source (source.convert target bits) = bits := by
  have hvalue := (convert_widen h hfinite).2
  rw [convert_eq_nearest target source, Nat.pow_add, ← Nat.mul_assoc]
  rw [units, Nat.pow_eq] at hvalue
  rw [hvalue]
  exact nearest_units h.fraction hfinite (Nat.two_pow_pos _)

/-- A number of one format is taken from one format that holds it to another as if it came from its
own, whichever of the two is the wider. -/
theorem convert_through {other : BinaryFormat} (h : Embeds source target)
    (h' : Embeds source other) (hfinite : bits < source.infinity) :
    target.convert other (source.convert target bits) = source.convert other bits := by
  have hvalue := (convert_widen h hfinite).2
  obtain ⟨hfinite', hvalue'⟩ := convert_widen h' hfinite
  have hfraction : 0 < other.fractionBits := h'.fraction.trans_le h'.fractionBits
  generalize source.convert target bits = middle at hvalue ⊢
  generalize source.convert other bits = wide at hfinite' hvalue' ⊢
  -- the value of the encoding, in units of the last format and over a common denominator
  have hcommon : target.significand middle * 2 ^ (target.scale middle + other.unitExponent) *
      2 ^ source.unitExponent =
        other.units wide * (2 ^ target.unitExponent * 2 ^ source.unitExponent) := by
    calc target.significand middle * 2 ^ (target.scale middle + other.unitExponent) *
          2 ^ source.unitExponent
        = target.units middle * 2 ^ source.unitExponent * 2 ^ other.unitExponent := by
          simp only [units, Nat.pow_eq, pow_add]
          ring
      _ = source.units bits * 2 ^ other.unitExponent * 2 ^ target.unitExponent := by
          rw [hvalue]
          ring
      _ = other.units wide * (2 ^ target.unitExponent * 2 ^ source.unitExponent) := by
          rw [← hvalue']
          ring
  rw [convert_eq_nearest, ← nearest_scale (Nat.two_pow_pos source.unitExponent), hcommon]
  exact nearest_units hfraction hfinite' (Nat.mul_pos (Nat.two_pow_pos _) (Nat.two_pow_pos _))

theorem convert_le_infinity (source target : BinaryFormat) (bits : Nat) :
    source.convert target bits ≤ target.infinity := by
  unfold convert
  split
  · exact Nat.zero_le _
  · exact Nat.min_le_right _ _

end BinaryFormat

end TensorParity
