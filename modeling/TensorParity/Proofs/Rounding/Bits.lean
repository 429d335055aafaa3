import TensorParity.Proofs.Rounding.Conversion

/-!
Doubles and their bits. A double is its sign and magnitude, put together again bit for bit; it is
finite where the magnitude lies below the encoding of infinity, and every pattern above that
encoding is the one NaN.
-/
namespace TensorParity

open Float.Model Float.Model.UnpackedFloat BinaryFormat

/-- The fields of a word as numbers. -/
private theorem toNat_fields (b : BitVec Format.binary64.numBits) :
    (unpackExponent b).toNat = b.toNat / 2 ^ 52 % 2 ^ 11 ∧
      (unpackMantissa b).toNat = b.toNat % 2 ^ 52 := by
  constructor <;>
    simp [unpackExponent, unpackMantissa, BitVec.extractLsb, BitVec.extractLsb'_toNat,
      Nat.shiftRight_eq_div_pow]

/-- The three fields of a word, side by side, are the word. -/
private theorem packComponents_fields (b : BitVec Format.binary64.numBits) :
    packComponents .binary64 (Sign.ofBitVec (unpackSign b)) (unpackExponent b)
      (unpackMantissa b) = b := by
  have hsign (v : BitVec 1) : (Sign.ofBitVec v).toBitVec = v := by
    revert v
    decide
  simp only [packComponents, hsign, unpackSign, unpackExponent, unpackMantissa, BitVec.extractLsb]
  ext i hi
  grind

theorem toNat_leading_one (v : BitVec 52) : (1#1 ++ v).toNat = 2 ^ 52 + v.toNat := by
  have := v.isLt
  rw [BitVec.toNat_append, ← Nat.shiftLeft_add_eq_or_of_lt this]
  simp [Nat.shiftLeft_eq]

/-! What a finite number is packed into: with a leading bit, without one, and out of range. -/

section Pack

variable {sign : Sign} {m : Nat} {e : Int} {hm : 0 < m}

private theorem biased_exponent (e : Int) :
    e + (Format.binary64.exponentBias : Int) + (52 : Nat) = e + 1075 := by
  change e + ((1023 : Nat) : Int) + ((52 : Nat) : Int) = _
  omega

theorem pack_normal (hleading : m.log2 = 52) (hfits : e < 972) :
    UnpackedFloat.pack .binary64 (.finite sign m e hm) =
      packComponents .binary64 sign (BitVec.ofNat 11 (e + 1075).toNat) (BitVec.ofNat 52 m) := by
  have hwidth : m.log2 + 1 = Format.binary64.mantissaBits := congrArg (· + 1) hleading
  simp only [UnpackedFloat.pack, biased_exponent]
  rw [if_neg (by omega), if_pos hwidth]

theorem pack_subnormal (hshort : m.log2 < 52) (hfits : e < 972) :
    UnpackedFloat.pack .binary64 (.finite sign m e hm) =
      packComponents .binary64 sign 0#11 (BitVec.ofNat 52 m) := by
  have hwidth : Format.binary64.mantissaBits = 53 := rfl
  simp only [UnpackedFloat.pack, biased_exponent, hwidth]
  rw [if_neg (by omega), if_neg (by omega)]

theorem pack_overflow (hlarge : 972 ≤ e) :
    UnpackedFloat.pack .binary64 (.finite sign m e hm) = packedInfinity .binary64 sign := by
  simp only [UnpackedFloat.pack, biased_exponent]
  rw [if_pos (by omega)]

end Pack

/-- Every valid word is what its parts are packed into. A NaN keeps no payload, so the word of a NaN
must be the canonical one. -/
private theorem pack_unpack {b : BitVec Format.binary64.numBits}
    (hvalid : Format.binary64.Valid b) :
    UnpackedFloat.pack .binary64 (UnpackedFloat.unpack .binary64 b) = b := by
  have hfields := packComponents_fields b
  have hmantissa : (unpackMantissa b).toNat < 2 ^ 52 := (unpackMantissa b).isLt
  have hexponent : (unpackExponent b).toNat < 2 ^ 11 := (unpackExponent b).isLt
  have hbias : ((Format.binary64.exponentBias : Int) + (52 : Nat)) = 1075 := rfl
  simp only [UnpackedFloat.unpack, hbias]
  split
  · rename_i htop
    split
    · rename_i hnone
      rw [htop, hnone] at hfields
      exact hfields
    · rename_i hsome
      exact (hvalid.eq_packedNaN htop hsome).symm
  · rename_i htop
    split
    · rename_i hbottom
      rw [hbottom] at hfields
      split
      · rename_i hnone
        rw [hnone] at hfields
        exact hfields
      · rename_i hsome
        have hpositive : (unpackMantissa b).toNat ≠ 0 := by
          intro h
          exact hsome (BitVec.toNat_inj.mp (by simpa using h))
        have hzero : (unpackExponent b).toNat = 0 := by rw [hbottom]; rfl
        rw [pack_subnormal ((Nat.log2_lt hpositive).mpr hmantissa) (by omega),
          BitVec.ofNat_toNat, BitVec.setWidth_eq]
        exact hfields
    · have htop' : (unpackExponent b).toNat ≠ 2 ^ 11 - 1 := by
        intro h
        exact htop (BitVec.toNat_inj.mp (by simpa using h))
      have hleading := toNat_leading_one (unpackMantissa b)
      have hlog : (1#1 ++ unpackMantissa b).toNat.log2 = 52 :=
        (Nat.log2_eq_iff (by omega)).mpr (by omega)
      have hrest : BitVec.ofNat 52 (1#1 ++ unpackMantissa b).toNat = unpackMantissa b := by
        rw [← BitVec.toNat_inj, BitVec.toNat_ofNat, hleading]
        omega
      have hbiased : ((unpackExponent b).toNat - 1075 + 1075 : Int).toNat =
          (unpackExponent b).toNat := by omega
      rw [pack_normal hlog (by omega), hrest, hbiased, BitVec.ofNat_toNat, BitVec.setWidth_eq]
      exact hfields

theorem ofBits_toBits (x : Float) : Float.ofBits x.toBits = x := by
  obtain ⟨⟨word, hvalid⟩⟩ := x
  simp only [Float.ofBits, Float.toBits, Float.Model.ofBits, Float.Model.pack, pack_unpack hvalid]

/-- A word whose magnitude is at most infinity stands for itself. -/
theorem toBits_ofBits {word : UInt64} (h : word.toNat % 2 ^ 63 ≤ binary64.infinity) :
    (Float.ofBits word).toBits = word := by
  have hvalid : Format.binary64.Valid word.toBitVec := by
    refine ⟨fun htop hsome => absurd ?_ hsome⟩
    obtain ⟨hexponent, hmantissa⟩ := toNat_fields word.toBitVec
    rw [htop] at hexponent
    have htop' : (2047 : Nat) = word.toNat / 2 ^ 52 % 2 ^ 11 := hexponent
    have hinfinity : binary64.infinity = 2047 * 2 ^ 52 := rfl
    have hzero : (@unpackMantissa .binary64 word.toBitVec).toNat = 0 := by
      rw [hmantissa]
      change word.toNat % 2 ^ 52 = 0
      omega
    exact BitVec.toNat_inj.mp (by simpa using hzero)
  simp [Float.ofBits, Float.toBits, Float.Model.ofBits, Float.Model.pack, pack_unpack hvalid]

namespace SignedBits

theorem toWord_lt {width : Nat} {x : SignedBits} (h : x.bits < 2 ^ width) :
    x.toWord width < 2 ^ (width + 1) := by
  simp only [toWord, Nat.pow_eq, Nat.pow_succ]
  split <;> omega

theorem ofWord_toWord {width : Nat} {x : SignedBits} (h : x.bits < 2 ^ width) :
    ofWord width (x.toWord width) = x := by
  obtain ⟨negative, bits⟩ := x
  simp only at h
  cases negative
  · simp [ofWord, toWord, Nat.mod_eq_of_lt h, h]
  · simp [ofWord, toWord, Nat.mod_eq_of_lt h]

theorem toWord_ofWord {width word : Nat} (h : word < 2 ^ (width + 1)) :
    (ofWord width word).toWord width = word := by
  rw [Nat.pow_succ] at h
  by_cases hsign : 2 ^ width ≤ word
  · have hrest : word % 2 ^ width = word - 2 ^ width := by
      rw [Nat.mod_eq_sub_mod hsign, Nat.mod_eq_of_lt (by omega)]
    simp [ofWord, toWord, hsign, hrest]
  · simp [ofWord, toWord, hsign, Nat.mod_eq_of_lt (show word < 2 ^ width by omega)]

/-- A double is its sign and magnitude. -/
theorem toFloat_ofFloat (x : Float) : (ofFloat x).toFloat = x := by
  have hword : (ofFloat x).toWord 63 = x.toBits.toNat := toWord_ofWord x.toBits.toNat_lt
  rw [toFloat, hword]
  simp

/-- Sign and magnitude survive in a double unless they spell a NaN. -/
theorem ofFloat_toFloat {x : SignedBits} (h : x.bits ≤ binary64.infinity) :
    ofFloat x.toFloat = x := by
  have hinfinity : binary64.infinity < 2 ^ 63 := by decide
  have hbits : x.bits < 2 ^ 63 := by omega
  have hword : x.toWord 63 < 2 ^ 64 := toWord_lt hbits
  have hnat : (x.toWord 63).toUInt64.toNat = x.toWord 63 :=
    UInt64.toNat_ofNat_of_lt' hword
  have hmagnitude : (x.toWord 63).toUInt64.toNat % 2 ^ 63 ≤ binary64.infinity := by
    have hround := congrArg SignedBits.bits (ofWord_toWord hbits)
    rw [hnat]
    simpa [ofWord] using hround.trans_le h
  rw [ofFloat, toFloat, toBits_ofBits hmagnitude, hnat, ofWord_toWord hbits]

theorem isFinite_iff (x : Float) :
    x.isFinite = true ↔ (ofFloat x).bits < binary64.infinity := by
  obtain ⟨⟨word, hvalid⟩⟩ := x
  have hexponent := (toNat_fields word.toBitVec).1
  have hinfinity : binary64.infinity = 2047 * 2 ^ 52 := rfl
  have hbits : (ofFloat ⟨⟨word, hvalid⟩⟩).bits = word.toNat % 2 ^ 63 := rfl
  have htop : @unpackExponent .binary64 word.toBitVec = -1#_ ↔
      word.toNat / 2 ^ 52 % 2 ^ 11 = 2047 := by
    rw [← BitVec.toNat_inj, hexponent]
    rfl
  rw [hbits, hinfinity]
  simp only [Float.isFinite, Float.Model.isFinite, Float.Model.unpack, UnpackedFloat.unpack]
  split
  · rename_i h
    rw [htop] at h
    split <;> simp only [UnpackedFloat.isFinite, Bool.false_eq_true, false_iff] <;> omega
  · rename_i h
    rw [htop] at h
    split
    · split <;> simp only [UnpackedFloat.isFinite, true_iff] <;> omega
    · simp only [UnpackedFloat.isFinite, true_iff]
      omega

end SignedBits

theorem toFloat_isFinite {x : SignedBits} (h : x.bits < binary64.infinity) :
    x.toFloat.isFinite = true := by
  rw [SignedBits.isFinite_iff, SignedBits.ofFloat_toFloat (Nat.le_of_lt h)]
  exact h

namespace SignedBits

variable {source target other : BinaryFormat} {x : SignedBits}

/-- A converted encoding is at most infinity, or the quiet NaN. -/
theorem bits_convert (source target : BinaryFormat) (x : SignedBits) :
    (x.convert source target).bits ≤ target.infinity ∨
      (x.convert source target).bits = target.infinity + 2 ^ (target.fractionBits - 1) := by
  unfold convert
  split
  · exact .inl (convert_le_infinity _ _ _)
  · split
    · exact .inl le_rfl
    · exact .inr rfl

theorem convert_finite (target : BinaryFormat) (h : x.bits < source.infinity) :
    x.convert source target = ⟨x.negative, source.convert target x.bits⟩ :=
  if_pos h

theorem convert_infinity (target : BinaryFormat) (h : x.bits = source.infinity) :
    x.convert source target = ⟨x.negative, target.infinity⟩ := by
  rw [convert, if_neg (by omega), if_pos h]

/-- Narrowing takes back what was widened. -/
theorem convert_convert (h : Embeds source target) (hx : x.bits ≤ source.infinity) :
    (x.convert source target).convert target source = x := by
  rcases hx.lt_or_eq with hfinite | hinfinite
  · rw [convert_finite target hfinite, convert_finite source (convert_widen h hfinite).1,
      BinaryFormat.convert_convert h hfinite]
  · rw [convert_infinity target hinfinite, convert_infinity source rfl, ← hinfinite]

/-- What was widened is widened further, or narrowed half the way, as if it came from its own
format. -/
theorem convert_through (h : Embeds source target) (h' : Embeds source other)
    (hx : x.bits ≤ source.infinity) :
    (x.convert source target).convert target other = x.convert source other := by
  rcases hx.lt_or_eq with hfinite | hinfinite
  · rw [convert_finite target hfinite, convert_finite other (convert_widen h hfinite).1,
      convert_finite other hfinite, BinaryFormat.convert_through h h' hfinite]
  · rw [convert_infinity target hinfinite, convert_infinity other rfl,
      convert_infinity other hinfinite]

/-- A widened number survives in a double. -/
theorem ofFloat_widen (h : Embeds source binary64) (hx : x.bits ≤ source.infinity) :
    ofFloat (x.convert source binary64).toFloat = x.convert source binary64 := by
  apply ofFloat_toFloat
  rcases hx.lt_or_eq with hfinite | hinfinite
  · rw [convert_finite _ hfinite]
    exact (convert_widen h hfinite).1.le
  · rw [convert_infinity _ hinfinite]

end SignedBits

/-- A single-precision encoding of a double is at most infinity, or the quiet NaN. -/
theorem singleOf_bits (x : Float) : (singleOf x).bits ≤ binary32.infinity ∨
    (singleOf x).bits = binary32.infinity + 2 ^ 22 :=
  SignedBits.bits_convert binary64 binary32 _

theorem singleOf_bits_lt (x : Float) : (singleOf x).bits < 2 ^ 31 := by
  have hinfinity : binary32.infinity + 2 ^ 22 < 2 ^ 31 := by decide
  rcases singleOf_bits x with h | h <;> omega

/-- Single precision is part of double precision. -/
theorem singleOf_ofSingle {y : SignedBits} (h : y.bits ≤ binary32.infinity) :
    singleOf (ofSingle y) = y := by
  rw [singleOf, ofSingle, SignedBits.ofFloat_widen single_embeds h,
    SignedBits.convert_convert single_embeds h]

/-- Rounding through single precision a second time changes nothing. -/
theorem roundToSingle_roundToSingle (x : Float) :
    roundToSingle (roundToSingle x) = roundToSingle x := by
  rcases singleOf_bits x with h | h
  · exact congrArg ofSingle (singleOf_ofSingle h)
  · -- The quiet NaN of either sign is widened to the one NaN.
    have hnan (negative : Bool) : roundToSingle (ofSingle ⟨negative, binary32.infinity + 2 ^ 22⟩) =
        ofSingle ⟨negative, binary32.infinity + 2 ^ 22⟩ := by
      cases negative <;> decide +kernel
    obtain ⟨negative, hbits⟩ : ∃ negative,
        singleOf x = ⟨negative, binary32.infinity + 2 ^ 22⟩ := ⟨_, by rw [← h]⟩
    rw [show roundToSingle x = ofSingle (singleOf x) from rfl, hbits]
    exact hnan negative

/-- The double with the value of a half-precision encoding. -/
def ofHalf (y : SignedBits) : Float := (y.convert binary16 binary64).toFloat

/-- Rounding to half precision ends at a half-precision encoding. -/
theorem exists_ofHalf (x : Float) : ∃ y : SignedBits, roundToHalf x = ofHalf y ∧
    (y.bits ≤ binary16.infinity ∨ y.bits = binary16.infinity + 2 ^ 9) :=
  ⟨_, rfl, SignedBits.bits_convert binary32 binary16 _⟩

/-- Half precision is part of single precision. -/
theorem singleOf_ofHalf {y : SignedBits} (h : y.bits ≤ binary16.infinity) :
    singleOf (ofHalf y) = y.convert binary16 binary32 := by
  rw [singleOf, ofHalf, SignedBits.ofFloat_widen half_embeds h,
    SignedBits.convert_through half_embeds half_embeds_single h]

/-- The quiet half-precision NaN of either sign is widened to the one NaN, which every rounding
keeps. -/
theorem round_quietHalf (negative : Bool) :
    roundToSingle (ofHalf ⟨negative, binary16.infinity + 2 ^ 9⟩) =
        ofHalf ⟨negative, binary16.infinity + 2 ^ 9⟩ ∧
      roundToHalf (ofHalf ⟨negative, binary16.infinity + 2 ^ 9⟩) =
        ofHalf ⟨negative, binary16.infinity + 2 ^ 9⟩ := by
  cases negative <;> decide +kernel

/-- What half precision holds is kept by rounding through single and through half precision. -/
theorem round_ofHalf {y : SignedBits}
    (h : y.bits ≤ binary16.infinity ∨ y.bits = binary16.infinity + 2 ^ 9) :
    roundToSingle (ofHalf y) = ofHalf y ∧ roundToHalf (ofHalf y) = ofHalf y := by
  rcases h with hnumber | hnan
  · have hsingle := singleOf_ofHalf hnumber
    constructor
    · rw [roundToSingle, hsingle, ofSingle,
        SignedBits.convert_through half_embeds_single half_embeds hnumber, ofHalf]
    · rw [roundToHalf, hsingle, SignedBits.convert_convert half_embeds_single hnumber, ofHalf]
  · obtain ⟨negative, bits⟩ := y
    obtain rfl : bits = binary16.infinity + 2 ^ 9 := hnan
    exact round_quietHalf negative

/-- A number of half precision is one of single precision. -/
theorem roundToSingle_roundToHalf (x : Float) : roundToSingle (roundToHalf x) = roundToHalf x := by
  obtain ⟨y, hy, hbits⟩ := exists_ofHalf x
  rw [hy, (round_ofHalf hbits).1]

/-- Rounding to half precision a second time changes nothing. -/
theorem roundToHalf_roundToHalf (x : Float) : roundToHalf (roundToHalf x) = roundToHalf x := by
  obtain ⟨y, hy, hbits⟩ := exists_ofHalf x
  rw [hy, (round_ofHalf hbits).2]

end TensorParity
