import TensorParity.Decimal.Notation
import TensorParity.Decimal.Shortest
import TensorParity.Proofs.Rounding.Conversion

/-!
The digits written for a double read back as it. A decimal in the rounding interval of a double is
read as that double, and every branch of the search for the shortest digits ends in that interval.
That no shorter decimal lies there is not shown.
-/
namespace TensorParity

open BinaryFormat

namespace BinaryFormat.Rounds

variable {f : BinaryFormat} {bits n d n' d' : Nat}

/-- Equal quotients lie in the same rounding interval. -/
theorem of_eq (h : f.Rounds bits n d) (hpos : 0 < d') (heq : n' * d = n * d') :
    f.Rounds bits n' d' := by
  obtain ⟨hd, hlow, hhigh, hodd⟩ := h
  have hleft : d * (4 * n') = d' * (4 * n) := by linarith
  have hgap : d * (f.gap bits * 2 ^ f.scale bits * d') =
      d' * (f.gap bits * 2 ^ f.scale bits * d) := by
    ring
  have hmiddle : d * (4 * f.significand bits * 2 ^ f.scale bits * d') =
      d' * (4 * f.significand bits * 2 ^ f.scale bits * d) := by
    ring
  have hright : d * ((4 * f.significand bits + 2) * 2 ^ f.scale bits * d') =
      d' * ((4 * f.significand bits + 2) * 2 ^ f.scale bits * d) := by
    ring
  refine ⟨hpos, ?_, ?_, fun hm => ⟨?_, ?_⟩⟩
  · refine Nat.le_of_mul_le_mul_left ?_ hd
    rw [Nat.mul_add, hmiddle, hleft, hgap, ← Nat.mul_add]
    exact Nat.mul_le_mul_left d' hlow
  · refine Nat.le_of_mul_le_mul_left ?_ hd
    rw [hleft, hright]
    exact Nat.mul_le_mul_left d' hhigh
  · refine Nat.lt_of_mul_lt_mul_left (a := d) ?_
    rw [Nat.mul_add, hmiddle, hleft, hgap, ← Nat.mul_add]
    exact Nat.mul_lt_mul_of_pos_left (hodd hm).1 hpos
  · refine Nat.lt_of_mul_lt_mul_left (a := d) ?_
    rw [hleft, hright]
    exact Nat.mul_lt_mul_of_pos_left (hodd hm).2 hpos

/-- Only zero rounds to zero's significand. -/
theorem bits_eq_zero (h : f.Rounds bits n d) (hsmall : 4 * n < d) : bits = 0 := by
  have hlow := h.low
  have hgap := f.gap_le bits
  have hstep : d ≤ 2 ^ f.scale bits * d := Nat.le_mul_of_pos_left d (Nat.two_pow_pos _)
  have hm : f.significand bits = 0 := by
    by_contra hm
    have := Nat.mul_le_mul_right (2 ^ f.scale bits * d)
      (show f.gap bits + 1 ≤ 4 * f.significand bits by omega)
    linarith
  have hs : f.scale bits = 0 := by
    by_contra hs
    have : 2 ^ f.fractionBits ≤ f.significand bits := le_significand (by omega)
    have := Nat.two_pow_pos f.fractionBits
    omega
  have := f.scale_add_significand bits
  simpa [hm, hs] using this.symm

end BinaryFormat.Rounds

namespace Decimal

variable {d : Decimal} {bits n k : Nat} {e : Int}

/-- One, counted in units of the least double. -/
@[irreducible] def one : Nat := Nat.pow 2 1074

theorem one_def : one = Nat.pow 2 1074 := by
  unfold one
  rfl

/-- The decimal lies in the rounding interval of a double. -/
def ReadsAs (d : Decimal) (bits : Nat) : Prop :=
  binary64.Rounds bits (d.digits * 10 ^ d.exponent.toNat * one) (10 ^ (-d.exponent).toNat)

theorem one_eq : one = 2 ^ binary64.unitExponent := by
  unfold one
  decide +kernel

theorem readsAs_zero : ReadsAs ⟨0, 0⟩ 0 := by
  have h := rounds_units binary64 0 Nat.one_pos
  simpa [ReadsAs, units, significand] using h

/-- A power of ten may stand among the digits or in the exponent. -/
theorem readsAs_shift : ReadsAs ⟨n * 10 ^ k, e⟩ bits ↔ ReadsAs ⟨n, e + k⟩ bits := by
  have hpowers : 10 ^ k * 10 ^ e.toNat * 10 ^ (-(e + k)).toNat =
      10 ^ (e + k).toNat * 10 ^ (-e).toNat := by
    simp only [← Nat.pow_add]
    congr 1
    omega
  have hvalue : n * 10 ^ k * 10 ^ e.toNat * one * 10 ^ (-(e + k)).toNat =
      n * 10 ^ (e + k).toNat * one * 10 ^ (-e).toNat := by
    calc
      _ = n * one * (10 ^ k * 10 ^ e.toNat * 10 ^ (-(e + k)).toNat) := by ring
      _ = _ := by rw [hpowers]; ring
  constructor
  · intro h
    exact h.of_eq (by positivity) hvalue.symm
  · intro h
    exact h.of_eq (by positivity) hvalue

theorem readsAs_strip {fuel : Nat} (h : d.ReadsAs bits) : (strip fuel d).ReadsAs bits := by
  induction fuel generalizing d with
  | zero => exact h
  | succ fuel ih =>
    unfold strip
    split
    · rename_i hzero
      refine ih ?_
      obtain ⟨n, e⟩ := d
      have hdigits : n / 10 * 10 ^ 1 = n := by
        have := hzero.2
        simp only at this
        omega
      exact readsAs_shift.mp (hdigits.symm ▸ h)
    · exact h

theorem pow_length_toDigits_le (hn : n ≠ 0) : 10 ^ ((Nat.toDigits 10 n).length - 1) ≤ n := by
  by_contra hless
  rcases Nat.eq_zero_or_pos ((Nat.toDigits 10 n).length - 1) with hone | hmore
  · rw [hone] at hless
    omega
  · have := (Nat.length_toDigits_le_iff (by omega) hmore).mpr (Nat.lt_of_not_le hless)
    omega

/-- A decimal in the interval of a finite double is not far beyond the largest of them. -/
theorem ReadsAs.value_le (h : d.ReadsAs bits) (hfinite : bits < binary64.infinity) :
    4 * (d.digits * 10 ^ d.exponent.toNat * one) ≤
      2 ^ 55 * (one * one) * 10 ^ (-d.exponent).toNat := by
  have hscale : 2 ^ binary64.scale bits ≤ one * one := by
    have hsquare : 2 ^ binary64.unitExponent * 2 ^ binary64.unitExponent = one * one := by
      rw [one_eq]
    rw [← hsquare, ← Nat.pow_add]
    have hexponents : 2 ^ binary64.exponentBits ≤
        binary64.unitExponent + binary64.unitExponent := by decide
    exact Nat.pow_le_pow_right (by omega)
      (Nat.le_trans (Nat.le_of_lt (scale_lt hfinite)) hexponents)
  have hsignificand : 4 * binary64.significand bits + 2 ≤ 2 ^ 55 := by
    have := binary64.significand_lt bits
    simp only [binary64] at this ⊢
    omega
  exact Nat.le_trans h.high (Nat.mul_le_mul_right _ (Nat.mul_le_mul hsignificand hscale))

/-! A decimal far outside the range of the format lies in no interval but that of zero. -/

private theorem not_far_above (h : d.ReadsAs bits) (hfinite : bits < binary64.infinity)
    (hdigits : d.digits ≠ 0) :
    ¬ 400 < ((Nat.toDigits 10 d.digits).length : Int) + d.exponent := by
  have hhigh := h.value_le hfinite
  obtain ⟨n, e⟩ := d
  simp only at hdigits hhigh ⊢
  intro hfar
  have hlength : 0 < (Nat.toDigits 10 n).length := Nat.length_toDigits_pos
  have hvalue : 10 ^ 400 * 10 ^ (-e).toNat ≤ n * 10 ^ e.toNat := by
    calc 10 ^ 400 * 10 ^ (-e).toNat = 10 ^ (400 + (-e).toNat) := by rw [Nat.pow_add]
      _ ≤ 10 ^ ((Nat.toDigits 10 n).length - 1 + e.toNat) :=
        Nat.pow_le_pow_right (by omega) (by omega)
      _ = 10 ^ ((Nat.toDigits 10 n).length - 1) * 10 ^ e.toNat := by rw [Nat.pow_add]
      _ ≤ n * 10 ^ e.toNat := Nat.mul_le_mul_right _ (pow_length_toDigits_le hdigits)
  have hpos : 0 < 10 ^ (-e).toNat := by positivity
  have hvalue' := Nat.mul_le_mul_right one hvalue
  have hcontra : 2 ^ 55 * (one * one) < 4 * (10 ^ 400 * one) := by
    rw [one_def]
    decide +kernel
  have hcontra' := Nat.mul_lt_mul_of_pos_right hcontra hpos
  generalize 10 ^ 400 = huge at hvalue' hcontra'
  linarith

private theorem bits_eq_zero_of_far_below (h : d.ReadsAs bits)
    (hfar : ((Nat.toDigits 10 d.digits).length : Int) + d.exponent < -400) : bits = 0 := by
  obtain ⟨n, e⟩ := d
  simp only at hfar
  refine h.bits_eq_zero ?_
  have hlength : 0 < (Nat.toDigits 10 n).length := Nat.length_toDigits_pos
  have hmost : n < 10 ^ (Nat.toDigits 10 n).length :=
    (Nat.length_toDigits_le_iff (by omega) hlength).mp (Nat.le_refl _)
  have hexponent : e.toNat = 0 := by omega
  have hone : 4 * one ≤ 10 ^ 400 := by
    rw [one_def]
    decide +kernel
  have honePos : 0 < one := one_eq ▸ Nat.two_pow_pos _
  simp only [hexponent, Nat.pow_zero, Nat.mul_one]
  calc 4 * (n * one) = n * (4 * one) := by ring
    _ < 10 ^ (Nat.toDigits 10 n).length * (4 * one) :=
      Nat.mul_lt_mul_of_pos_right hmost (by omega)
    _ ≤ 10 ^ (Nat.toDigits 10 n).length * 10 ^ 400 := Nat.mul_le_mul_left _ hone
    _ = 10 ^ ((Nat.toDigits 10 n).length + 400) := by rw [Nat.pow_add]
    _ ≤ 10 ^ (-e).toNat := Nat.pow_le_pow_right (by omega) (by omega)

/-- A decimal in the rounding interval of a finite double is read as that double. -/
theorem nearest_eq (hfinite : bits < binary64.infinity) (h : d.ReadsAs bits) :
    d.nearest = bits := by
  simp only [nearest]
  split
  · rename_i hzero
    have hone : (0 : Nat) < 10 ^ (-d.exponent).toNat := by positivity
    exact (h.bits_eq_zero (by simp [hzero])).symm
  · rename_i hdigits
    rw [if_neg (not_far_above h hfinite hdigits)]
    split
    · rename_i hfar
      exact (bits_eq_zero_of_far_below h hfar).symm
    · rw [ReadsAs, one_def] at h
      exact BinaryFormat.nearest_eq (by decide) hfinite h

/-! The branches of the search for the shortest digits. -/

theorem readsAs_exact (bits : Nat) : (exact bits).ReadsAs bits := by
  have h (k : Nat) : binary64.Rounds bits
      (binary64.units bits * Nat.pow 5 k * 10 ^ (-(k : Int)).toNat * Nat.pow 2 k)
      (10 ^ (- -(k : Int)).toNat) := by
    have hround := rounds_units binary64 bits (show 0 < 10 ^ k by positivity)
    have hpower : 5 ^ k * 2 ^ k = 10 ^ k := (Nat.mul_pow 5 2 k).symm
    simpa [Nat.mul_assoc, hpower] using hround
  rw [ReadsAs, one_def]
  exact h 1074

theorem readsAs_integral (h : integral? bits = some n) : ReadsAs ⟨n, 0⟩ bits := by
  unfold integral? at h
  simp only [Option.ite_none_left_eq_some, Option.ite_none_right_eq_some, Option.some.injEq,
    not_or, Nat.not_lt] at h
  obtain ⟨⟨-, hscale⟩, hdivides, rfl⟩ := h
  have hunits : binary64.units bits =
        binary64.significand bits / Nat.pow 2 (binary64.unitExponent - binary64.scale bits) *
          one := by
    have hone : one = Nat.pow 2 (binary64.unitExponent - binary64.scale bits) *
        Nat.pow 2 (binary64.scale bits) := by
      rw [Nat.pow_eq, Nat.pow_eq, ← Nat.pow_add, Nat.sub_add_cancel hscale, one_eq]
    rw [hone, ← Nat.mul_assoc, Nat.div_mul_cancel (Nat.dvd_of_mod_eq_zero hdivides), units]
  have hround := rounds_units binary64 bits Nat.one_pos
  rw [hunits] at hround
  simpa [ReadsAs] using hround

namespace Interval

variable {i : Interval} {tie : Tie} {step z drop : Nat}

/-- The ends of an interval enclose its value: the value lies below the next point after the
greatest, and no point above the value lies below the least. -/
structure Encloses (i : Interval) : Prop where
  least : i.least ≤ i.twice / (2 * i.denominator) + 1
  greatest : i.twice / (2 * i.denominator) ≤ i.greatest

theorem candidate_bounds (henc : i.Encloses) (hstep : 0 < step)
    (h : i.candidate tie step = some z) : i.least ≤ z ∧ z ≤ i.greatest := by
  obtain ⟨hleast, hgreatest⟩ := henc
  unfold candidate at h
  generalize i.twice / (2 * i.denominator) = value at *
  have hbelow : value / step * step ≤ value := Nat.div_mul_le_self value step
  have habove : value < value / step * step + step := Nat.lt_div_mul_add hstep
  grind

theorem search_bounds (henc : i.Encloses) (h : i.search tie drop = some z) :
    i.least ≤ z ∧ z ≤ i.greatest := by
  induction drop with
  | zero => exact candidate_bounds henc Nat.one_pos h
  | succ drop ih =>
    unfold search at h
    split at h
    · rename_i hfound
      obtain rfl : _ = z := Option.some.inj h
      exact candidate_bounds henc (Nat.pow_pos (by omega)) hfound
    · exact ih h

end Interval

section Ends

variable {closed : Prop} [Decidable closed] {low value high denominator z : Nat}

/-- The least integer that times the denominator is not below the end, or above it if the end does
not belong to the interval. -/
private theorem low_end (hpos : 0 < denominator)
    (h : (if closed ∧ low % denominator = 0 then low / denominator
      else low / denominator + 1) ≤ z) :
    low ≤ z * denominator ∧ (¬ closed → low < z * denominator) := by
  have hstrict : low / denominator + 1 ≤ z → low < z * denominator :=
    fun hz => (Nat.div_lt_iff_lt_mul hpos).mp hz
  split at h
  · rename_i hexact
    have hdivide := Nat.div_add_mod low denominator
    have hproduct := Nat.mul_le_mul_left denominator h
    have hswap : z * denominator = denominator * z := Nat.mul_comm _ _
    exact ⟨by omega, by simp [hexact.1]⟩
  · exact ⟨Nat.le_of_lt (hstrict h), fun _ => hstrict h⟩

private theorem high_end (hpos : 0 < denominator) (hhigh : 0 < high)
    (h : z ≤ if ¬ closed ∧ high % denominator = 0 then high / denominator - 1
      else high / denominator) :
    z * denominator ≤ high ∧ (¬ closed → z * denominator < high) := by
  split at h
  · rename_i hexact
    have hquotient : 0 < high / denominator :=
      Nat.div_pos (Nat.le_of_dvd hhigh (Nat.dvd_of_mod_eq_zero hexact.2)) hpos
    have hbelow : z * denominator < high := by
      calc z * denominator < high / denominator * denominator :=
            Nat.mul_lt_mul_of_pos_right (by omega) hpos
        _ ≤ high := Nat.div_mul_le_self _ _
    exact ⟨Nat.le_of_lt hbelow, fun _ => hbelow⟩
  · rename_i hexact
    have hle : z * denominator ≤ high := (Nat.le_div_iff_mul_le hpos).mp h
    refine ⟨hle, fun hclosed => Nat.lt_of_le_of_ne hle ?_⟩
    rintro rfl
    exact hexact ⟨hclosed, Nat.mul_mod_left z denominator⟩

private theorem ends_enclose (closed : Prop) [Decidable closed] (hpos : 0 < denominator)
    (hlow : low ≤ value) (hhigh : value < high) :
    (if closed ∧ low % denominator = 0 then low / denominator
      else low / denominator + 1) ≤ value / denominator + 1 ∧
    value / denominator ≤ if ¬ closed ∧ high % denominator = 0 then high / denominator - 1
      else high / denominator := by
  have hleft : low / denominator ≤ value / denominator := Nat.div_le_div_right hlow
  have hright : value / denominator ≤ high / denominator := Nat.div_le_div_right (by omega)
  refine ⟨by split <;> omega, ?_⟩
  split
  · rename_i hexact
    have : value / denominator < high / denominator := by
      rw [Nat.div_lt_iff_lt_mul hpos, Nat.div_mul_cancel (Nat.dvd_of_mod_eq_zero hexact.2)]
      exact hhigh
    omega
  · exact hright

end Ends

/-- A quarter of the last place of a double, and the step of the decimal grid, in a common unit. -/
private def quarter (bits : Nat) (place : Int) : Nat :=
  2 ^ (binary64.scale bits - 1074) * 10 ^ place.toNat

private def gridStep (bits : Nat) (place : Int) : Nat :=
  4 * 2 ^ (1074 - binary64.scale bits) * 10 ^ (-place).toNat

private theorem gridStep_pos (bits : Nat) (place : Int) : 0 < gridStep bits place := by
  unfold gridStep
  positivity

private theorem interval_least (bits : Nat) (place : Int) :
    (interval bits place).least =
      if binary64.significand bits % 2 = 0 ∧
          (4 * binary64.significand bits - binary64.gap bits) * quarter bits place %
            gridStep bits place = 0 then
        (4 * binary64.significand bits - binary64.gap bits) * quarter bits place /
          gridStep bits place
      else
        (4 * binary64.significand bits - binary64.gap bits) * quarter bits place /
          gridStep bits place + 1 := by
  have hgap : (if binary64.significand bits = Nat.pow 2 52 ∧ 1 < bits / Nat.pow 2 52 then 1
      else 2) = binary64.gap bits := by
    have hscale : 1 < bits / Nat.pow 2 52 ↔ 0 < binary64.scale bits := by
      simp only [scale, binary64]
      omega
    simp only [gap, hscale]
    rfl
  simp only [interval, hgap]
  rfl

private theorem interval_greatest (bits : Nat) (place : Int) :
    (interval bits place).greatest =
      if ¬ binary64.significand bits % 2 = 0 ∧
          (4 * binary64.significand bits + 2) * quarter bits place % gridStep bits place = 0 then
        (4 * binary64.significand bits + 2) * quarter bits place / gridStep bits place - 1
      else (4 * binary64.significand bits + 2) * quarter bits place / gridStep bits place := by
  simp only [interval]
  rfl

private theorem interval_value (bits : Nat) (place : Int) :
    (interval bits place).twice / (2 * (interval bits place).denominator) =
      4 * binary64.significand bits * quarter bits place / gridStep bits place := by
  have hdouble : 8 * binary64.significand bits * quarter bits place =
      2 * (4 * binary64.significand bits * quarter bits place) := by ring
  have htwice : (interval bits place).twice =
      2 * (4 * binary64.significand bits * quarter bits place) := hdouble
  have hstep : (interval bits place).denominator = gridStep bits place := rfl
  rw [htwice, hstep, Nat.mul_div_mul_left _ _ (by omega)]

private theorem interval_encloses (place : Int) (hbits : bits ≠ 0) :
    (interval bits place).Encloses := by
  have hm : 0 < binary64.significand bits := binary64.significand_pos hbits
  have hquarter : 0 < quarter bits place := by
    unfold quarter
    positivity
  have hlow : (4 * binary64.significand bits - binary64.gap bits) * quarter bits place ≤
      4 * binary64.significand bits * quarter bits place :=
    Nat.mul_le_mul_right _ (Nat.sub_le _ _)
  have hhigh : 4 * binary64.significand bits * quarter bits place <
      (4 * binary64.significand bits + 2) * quarter bits place :=
    Nat.mul_lt_mul_of_pos_right (by omega) hquarter
  obtain ⟨hleft, hright⟩ := ends_enclose (binary64.significand bits % 2 = 0)
    (gridStep_pos bits place) hlow hhigh
  constructor
  · rw [interval_least, interval_value]
    exact hleft
  · rw [interval_greatest, interval_value]
    exact hright

/-- The common unit of quarters and grid steps, counted in units of the least double. -/
private theorem scaled_quarter (bits x : Nat) (place : Int) :
    2 ^ binary64.scale bits * (x * quarter bits place) =
      2 ^ (binary64.scale bits - 1074) * (x * 2 ^ binary64.scale bits * 10 ^ place.toNat) := by
  rw [quarter]
  ring

private theorem scaled_gridStep (bits z : Nat) (place : Int) :
    2 ^ binary64.scale bits * (z * gridStep bits place) =
      2 ^ (binary64.scale bits - 1074) * (4 * (z * 10 ^ (-place).toNat * one)) := by
  have hshift : 2 ^ binary64.scale bits * 2 ^ (1074 - binary64.scale bits) =
      2 ^ (binary64.scale bits - 1074) * one := by
    rw [one_def, Nat.pow_eq, ← Nat.pow_add, ← Nat.pow_add,
      show binary64.scale bits + (1074 - binary64.scale bits) = binary64.scale bits - 1074 + 1074 by
        omega]
  calc _ = 4 * z * 10 ^ (-place).toNat *
        (2 ^ binary64.scale bits * 2 ^ (1074 - binary64.scale bits)) := by
        rw [gridStep]
        ring
    _ = _ := by
        rw [hshift]
        ring

/-- Each grid point inside the interval of a double is read as the double. -/
private theorem readsAs_of_bounds {place : Int} {z : Nat} (hbits : bits ≠ 0)
    (hleast : (interval bits place).least ≤ z) (hgreatest : z ≤ (interval bits place).greatest) :
    ReadsAs ⟨z, -place⟩ bits := by
  have hm : 0 < binary64.significand bits := binary64.significand_pos hbits
  have hgap := binary64.gap_le bits
  have hquarter : 0 < quarter bits place := by
    unfold quarter
    positivity
  rw [interval_least] at hleast
  rw [interval_greatest] at hgreatest
  obtain ⟨hlow, hlow'⟩ := low_end (gridStep_pos bits place) hleast
  obtain ⟨hhigh, hhigh'⟩ := high_end (gridStep_pos bits place)
    (Nat.mul_pos (by omega) hquarter) hgreatest
  have hunit : 0 < 2 ^ (binary64.scale bits - 1074) := Nat.two_pow_pos _
  have hbinade : 0 < 2 ^ binary64.scale bits := Nat.two_pow_pos _
  have hsplit (x : Nat) : 4 * binary64.significand bits * 2 ^ binary64.scale bits * x =
      (4 * binary64.significand bits - binary64.gap bits) * 2 ^ binary64.scale bits * x +
        binary64.gap bits * 2 ^ binary64.scale bits * x := by
    rw [← Nat.add_mul, ← Nat.add_mul, Nat.sub_add_cancel (by omega)]
  unfold ReadsAs
  simp only [Int.neg_neg]
  refine ⟨by positivity, ?_, ?_, fun hodd => ⟨?_, ?_⟩⟩
  · rw [hsplit, Nat.add_le_add_iff_right]
    refine Nat.le_of_mul_le_mul_left ?_ hunit
    rw [← scaled_gridStep, ← scaled_quarter]
    exact Nat.mul_le_mul_left _ hlow
  · refine Nat.le_of_mul_le_mul_left ?_ hunit
    rw [← scaled_gridStep, ← scaled_quarter]
    exact Nat.mul_le_mul_left _ hhigh
  · rw [hsplit, Nat.add_lt_add_iff_right]
    refine Nat.lt_of_mul_lt_mul_left (a := 2 ^ (binary64.scale bits - 1074)) ?_
    rw [← scaled_gridStep, ← scaled_quarter]
    exact Nat.mul_lt_mul_of_pos_left (hlow' (by omega)) hbinade
  · refine Nat.lt_of_mul_lt_mul_left (a := 2 ^ (binary64.scale bits - 1074)) ?_
    rw [← scaled_gridStep, ← scaled_quarter]
    exact Nat.mul_lt_mul_of_pos_left (hhigh' (by omega)) hbinade

theorem readsAs_shortest (tie : Tie) (hbits : bits ≠ 0) : (shortest tie bits).ReadsAs bits := by
  simp only [shortest]
  split
  · rename_i hintegral
    exact readsAs_strip (readsAs_integral hintegral)
  · split
    · rename_i hfound
      obtain ⟨hleast, hgreatest⟩ := Interval.search_bounds (interval_encloses _ hbits) hfound
      exact readsAs_strip (readsAs_of_bounds hbits hleast hgreatest)
    · exact readsAs_exact bits

end Decimal

/-- The digits written for a double lie in its rounding interval, in either tie rule. -/
theorem Notation.readsAs_magnitude (tie : Decimal.Tie) (bits : Nat) :
    (magnitude tie bits).ReadsAs bits := by
  unfold magnitude
  split
  · rename_i hzero
    rw [hzero]
    exact Decimal.readsAs_zero
  · rename_i hbits
    exact Decimal.readsAs_shortest tie hbits

/-- Only zero is written with no digit but zero, and then without a power of ten. -/
theorem Notation.exponent_magnitude {tie : Decimal.Tie} {bits : Nat}
    (h : (magnitude tie bits).digits = 0) : (magnitude tie bits).exponent = 0 := by
  have hround := readsAs_magnitude tie bits
  rw [Decimal.ReadsAs, h, Nat.zero_mul, Nat.zero_mul] at hround
  have hzero : bits = 0 := hround.bits_eq_zero (by positivity)
  simp [magnitude, hzero]

end TensorParity
