import TensorParity.Proofs.Rounding.Numbers

/-!
Distances between doubles. Rounding treats both signs alike, so the magnitude of a difference does
not depend on which double is taken from which, be they numbers or not. A zero times the magnitude of
a number is a zero of the same sign, whatever the number.
-/
namespace TensorParity

open Float.Model Float.Model.UnpackedFloat

section Unpacked

variable {format : Format} {a b : UnpackedFloat}

theorem abs_round (sign sign' : Sign) (m : Nat) (e : ℤ) :
    (UnpackedFloat.round format sign m e).abs = (UnpackedFloat.round format sign' m e).abs := by
  simp only [UnpackedFloat.round, roundWithAccuracy]
  split <;> rfl

/-- A number and its opposite are rounded to the same magnitude. -/
theorem abs_normalize_neg (m e : ℤ) (zeroSign : Sign) :
    (UnpackedFloat.normalize format (-m) e zeroSign).abs =
      (UnpackedFloat.normalize format m e zeroSign).abs := by
  unfold UnpackedFloat.normalize
  rcases lt_trichotomy m 0 with hm | rfl | hm
  · rw [compare_lt_iff_lt.mpr hm, compare_gt_iff_gt.mpr (neg_pos.mpr hm)]
    exact abs_round _ _ _ _
  · rfl
  · rw [compare_gt_iff_gt.mpr hm, compare_lt_iff_lt.mpr (neg_lt_zero.mpr hm), neg_neg]
    exact abs_round _ _ _ _

theorem abs_sub_unpacked (a b : UnpackedFloat) :
    (UnpackedFloat.sub format a b).abs = (UnpackedFloat.sub format b a).abs := by
  cases a with
  | notANumber => cases b <;> rfl
  | infinity s =>
    cases b with
    | infinity s' => cases s <;> cases s' <;> rfl
    | _ => rfl
  | zero s =>
    cases b with
    | zero s' => cases s <;> cases s' <;> rfl
    | _ => rfl
  | finite s m e hm =>
    cases b with
    | finite s' m' e' hm' =>
      simp only [UnpackedFloat.sub, min_comm e' e]
      rw [← abs_normalize_neg, neg_sub]
    | _ => rfl

/-- A double of either sign has the same magnitude. -/
theorem abs_unpack_packComponents (sign sign' : Sign) (exponent : BitVec 11)
    (mantissa : BitVec 52) :
    (UnpackedFloat.unpack .binary64 (packComponents .binary64 sign exponent mantissa)).abs =
      (UnpackedFloat.unpack .binary64 (packComponents .binary64 sign' exponent mantissa)).abs := by
  simp only [UnpackedFloat.unpack, unpackExponent_packComponents, unpackMantissa_packComponents,
    unpackSign_packComponents]
  split
  · split <;> rfl
  · split
    · split <;> rfl
    · rfl

/-- The magnitude of a double is found from the magnitude that it was packed from. -/
theorem abs_unpack_pack (h : a.abs = b.abs) :
    (Float.Model.pack a).unpack.abs = (Float.Model.pack b).unpack.abs := by
  have habs (a : UnpackedFloat) :
      (Float.Model.pack a).unpack.abs = (Float.Model.pack a.abs).unpack.abs := by
    change (UnpackedFloat.unpack .binary64 (UnpackedFloat.pack .binary64 a)).abs =
      (UnpackedFloat.unpack .binary64 (UnpackedFloat.pack .binary64 a.abs)).abs
    cases a with
    | notANumber => rfl
    | infinity s => cases s <;> rfl
    | zero s => cases s <;> rfl
    | finite s m e hm =>
      rw [show (UnpackedFloat.finite s m e hm).abs = .finite .positive m e hm from rfl,
        UnpackedFloat.pack, UnpackedFloat.pack]
      split_ifs
      · cases s <;> rfl
      · exact abs_unpack_packComponents _ _ _ _
      · exact abs_unpack_packComponents _ _ _ _
  rw [habs, h, ← habs]

theorem compare_unpacked_swap (a b : UnpackedFloat) :
    b.compare a = (a.compare b).map Ordering.swap := by
  cases a with
  | notANumber => cases b <;> rfl
  | infinity s =>
    cases b with
    | notANumber => cases s <;> rfl
    | infinity s' => cases s <;> cases s' <;> rfl
    | zero s' => cases s <;> rfl
    | finite s' m' e' hm' => cases s <;> cases s' <;> rfl
  | zero s =>
    cases b with
    | notANumber => rfl
    | infinity s' => cases s' <;> rfl
    | zero s' => rfl
    | finite s' m' e' hm' => cases s' <;> rfl
  | finite s m e hm =>
    cases b with
    | notANumber => cases s <;> rfl
    | infinity s' => cases s <;> cases s' <;> rfl
    | zero s' => cases s <;> rfl
    | finite s' m' e' hm' =>
      have hmagnitude : (compare e' e).then (compare m' m) =
          ((compare e e').then (compare m m')).swap := by
        rw [Ordering.swap_then, ← Std.OrientedCmp.eq_swap, ← Std.OrientedCmp.eq_swap]
      cases s with
      | negative =>
        cases s' with
        | negative => exact congrArg (fun o => some o.swap) hmagnitude
        | positive => rfl
      | positive =>
        cases s' with
        | negative => rfl
        | positive => exact congrArg some hmagnitude

end Unpacked

variable {x y z : Float}

/-- The distance of two doubles is the same both ways. -/
theorem abs_sub_swap (x y : Float) : (x - y).abs = (y - x).abs :=
  congrArg (fun a => Float.ofModel (Float.Model.pack a)) (abs_unpack_pack (abs_sub_unpacked _ _))

theorem beq_swap (x y : Float) : (x == y) = (y == x) := by
  change (x.toModel.unpack.compare y.toModel.unpack == some .eq) =
    (y.toModel.unpack.compare x.toModel.unpack == some .eq)
  rw [compare_unpacked_swap x.toModel.unpack]
  cases x.toModel.unpack.compare y.toModel.unpack with
  | none => rfl
  | some order => cases order <;> rfl

theorem IsNumber.exists_zero (h : IsNumber x 0) : ∃ s, x.toModel.unpack = .zero s := by
  rw [IsNumber] at h
  cases hx : x.toModel.unpack with
  | notANumber => rw [hx] at h; cases h
  | infinity s => rw [hx] at h; cases h
  | zero s => exact ⟨s, rfl⟩
  | finite s m e hm =>
    rw [hx] at h
    have hvalue : s.apply (units m e) = 0 := Option.some.inj h
    have hpositive := units_pos hm e
    cases s with
    | negative => exact absurd (neg_eq_zero.mp hvalue) (Int.natCast_pos.mpr hpositive).ne'
    | positive => exact absurd hvalue (Int.natCast_pos.mpr hpositive).ne'

/-- What equals zero is one of the two zeros. -/
theorem exists_zero_of_beq (h : (x == 0.0) = true) : ∃ s, x.toModel.unpack = .zero s := by
  have hliteral : IsNumber 0.0 0 := by decide +kernel
  obtain ⟨sign, hzero⟩ := hliteral.exists_zero
  change (x.toModel.unpack.compare (0.0 : Float).toModel.unpack == some .eq) = true at h
  rw [hzero] at h
  cases hx : x.toModel.unpack with
  | notANumber => rw [hx] at h; cases h
  | infinity s => rw [hx] at h; cases s <;> cases h
  | zero s => exact ⟨s, rfl⟩
  | finite s m e hm => rw [hx] at h; cases s <;> cases h

/-- A zero times a magnitude does not depend on the magnitude. -/
theorem zero_mul_abs {s : Sign} (hz : z.toModel.unpack = .zero s) (hx : x.isFinite = true)
    (hy : y.isFinite = true) : z * x.abs = z * y.abs := by
  have hproduct (v : Float) (hv : v.isFinite = true) :
      z * v.abs = .ofModel (.pack (.zero (s * .positive))) := by
    have hsound : Sound v.toModel.unpack.abs := by
      have hunpacked := sound_unpack v
      cases hparts : v.toModel.unpack <;> rw [hparts] at hunpacked <;> exact hunpacked
    change Float.ofModel (.pack (UnpackedFloat.mul .binary64 z.toModel.unpack
      (Float.Model.pack v.toModel.unpack.abs).unpack)) = _
    rw [unpack_pack hsound, hz]
    change v.toModel.unpack.isFinite = true at hv
    cases hparts : v.toModel.unpack with
    | notANumber => rw [hparts] at hv; cases hv
    | infinity s' => rw [hparts] at hv; cases hv
    | zero s' => rfl
    | finite s' m e hm => rfl
  rw [hproduct x hx, hproduct y hy]

end TensorParity
