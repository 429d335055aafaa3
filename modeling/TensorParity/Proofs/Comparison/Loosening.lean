import TensorParity.Proofs.Comparison.Verdict
import TensorParity.Proofs.Rounding.Monotone

/-!
Comparisons under a looser tolerance. The bound of an element grows with both parts of the
tolerance, so elements that were close stay close. A comparison then goes at least as far before it
stops: what passed still passes, and what fails fails at the same place or behind it. A tuple is
equivalent to itself unless something in it is no number.
-/
namespace TensorParity

/-- Where a search comes upon a difference, as an address: the tuple position, followed for elements
by the flat position. In the order of addresses a tensor's shape stands before its elements, and a
difference in length before all tensors. -/
def Mismatch.place : Mismatch → List Nat
  | .length .. => []
  | .shape position .. => [position]
  | .numeric position flat .. => [position, flat]

namespace Tolerance

/-- A usable tolerance and another that is no stricter in either part. -/
structure Loosens (t t' : Tolerance) : Prop where
  usable : t.Usable
  usable' : t'.Usable
  relative : t.relative ≤ t'.relative
  absolute : t.absolute ≤ t'.absolute

section Bound

variable {t t' : Tolerance} {a b : Float}

/-- The bound of a finite reference is the rounded sum of the absolute part and the rounded share. -/
theorem standsAt_bound {relative absolute magnitude : Nat} (hrelative : IsNumber t.relative relative)
    (habsolute : IsNumber t.absolute absolute) (hmagnitude : IsNumber a.abs magnitude) :
    StandsAt (t.bound a) (min (Binade.rounded (absolute +
      min (Binade.rounded (relative * magnitude) unitsOfOne) beyond) 1) beyond : Nat) :=
  .add habsolute (.mul hrelative hmagnitude)

theorem Usable.exists_isNumber (h : t.Usable) : ∃ relative absolute : Nat,
    IsNumber t.relative relative ∧ IsNumber t.absolute absolute := by
  obtain ⟨relative, hrelative⟩ := exists_isNumber_natCast h.1.1 h.1.2
  obtain ⟨absolute, habsolute⟩ := exists_isNumber_natCast h.2.1 h.2.2
  exact ⟨relative, absolute, hrelative, habsolute⟩

theorem Loosens.bound_le (h : t.Loosens t') (ha : a.isFinite = true) : t.bound a ≤ t'.bound a := by
  obtain ⟨relative, absolute, hrelative, habsolute⟩ := h.usable.exists_isNumber
  obtain ⟨relative', absolute', hrelative', habsolute'⟩ := h.usable'.exists_isNumber
  obtain ⟨magnitude, hmagnitude⟩ := exists_isNumber_abs ha
  have hshare : relative ≤ relative' :=
    Int.ofNat_le.mp ((hrelative.le_iff hrelative').mp h.relative)
  have hoffset : absolute ≤ absolute' :=
    Int.ofNat_le.mp ((habsolute.le_iff habsolute').mp h.absolute)
  rw [(standsAt_bound hrelative habsolute hmagnitude).le_iff
    (standsAt_bound hrelative' habsolute' hmagnitude), Int.ofNat_le]
  have hproduct : min (Binade.rounded (relative * magnitude) unitsOfOne) beyond ≤
      min (Binade.rounded (relative' * magnitude) unitsOfOne) beyond :=
    min_le_min_right _ (Binade.rounded_mono (Nat.mul_le_mul_right _ hshare))
  exact min_le_min_right _ (Binade.rounded_mono (Nat.add_le_add hoffset hproduct))

/-- Only finite elements are measured against the bound. -/
theorem Loosens.isClose (h : t.Loosens t') (hclose : t.isClose a b = true) :
    t'.isClose a b = true := by
  unfold Tolerance.isClose at hclose ⊢
  split at hclose
  · cases hclose
  · rename_i hnumbers
    rw [if_neg hnumbers]
    split at hclose
    · rename_i hinfinite
      rwa [if_pos hinfinite]
    · rename_i hfinite
      rw [if_neg hfinite]
      have ha : a.isFinite = true := by
        simp only [Bool.or_eq_true, Bool.not_eq_true', not_or, Bool.not_eq_false] at hfinite
        exact hfinite.1
      exact decide_eq_true (le_trans_float (of_decide_eq_true hclose) (h.bound_le ha))

/-- An element is close to itself if it is a number or infinite. -/
theorem Usable.isClose_self (h : t.Usable) (a : Float) :
    t.isClose a a = true ↔ ¬a.isNaN := by
  unfold Tolerance.isClose
  simp only [Bool.or_self]
  by_cases hnan : a.isNaN = true
  · rw [if_pos hnan]
    exact iff_of_false Bool.false_ne_true (not_not_intro hnan)
  rw [if_neg hnan]
  refine iff_of_true ?_ hnan
  by_cases hfinite : a.isFinite = true
  · obtain ⟨relative, absolute, hrelative, habsolute⟩ := h.exists_isNumber
    obtain ⟨magnitude, hmagnitude⟩ := exists_isNumber_abs hfinite
    have hdistance : StandsAt (a - a).abs 0 := .of_isNumber (isNumber_sub_self hfinite).abs
    have hbound := standsAt_bound hrelative habsolute hmagnitude
    rw [hfinite, Bool.not_true, if_neg Bool.false_ne_true]
    exact decide_eq_true ((hdistance.le_iff hbound).mpr (Int.natCast_nonneg _))
  · obtain ⟨p, hp⟩ := StandsAt.of_not_isNaN hnan
    rw [Bool.eq_false_iff.mpr hfinite, Bool.not_false, if_pos rfl]
    exact hp.beq_self

end Bound

section Tensors

variable {t t' : Tolerance} {r x : Tensor Float}

theorem Loosens.closeAt (h : t.Loosens t') {i : Nat} (hclose : t.CloseAt r x i) :
    t'.CloseAt r x i :=
  fun a b ha hb => h.isClose (hclose a b ha hb)

theorem Loosens.agrees (h : t.Loosens t') (hagrees : t.Agrees r x) : t'.Agrees r x where
  shape := hagrees.shape
  close i := h.closeAt (hagrees.close i)

/-- In one pair of tensors the looser search does not stop earlier. -/
theorem Loosens.place_le (h : t.Loosens t') {position : Nat} {m m' : Mismatch}
    (hm : t.Differs r x position m) (hm' : t'.Differs r x position m') : m.place ≤ m'.place := by
  cases hm with
  | shape hshape =>
    cases hm' with
    | shape => exact le_rfl
    | numeric hsame => exact absurd hsame hshape
  | @numeric flat a b index hsame hbefore ha hb hapart =>
    cases hm' with
    | shape hshape => exact absurd hsame hshape
    | @numeric flat' a' b' index' _ _ ha' hb' hapart' =>
      rcases Nat.lt_trichotomy flat flat' with hlater | rfl | hearlier
      · have hplace : [position, flat] < [position, flat'] := .cons (.rel hlater)
        exact hplace.le
      · exact le_rfl
      · have hclose := h.closeAt (hbefore flat' hearlier) a' b' ha' hb'
        rw [hapart'] at hclose
        cases hclose

/-- A difference at an earlier position stands at an earlier place. -/
theorem Differs.place_lt {r' x' : Tensor Float} {position position' : Nat} {m m' : Mismatch}
    (hm : t.Differs r x position m) (hm' : t'.Differs r' x' position' m')
    (hposition : position < position') : m.place < m'.place := by
  cases hm <;> cases hm' <;> exact .rel hposition

/-- A tensor agrees with itself if its elements do. -/
theorem Usable.agrees_self (h : t.Usable) (r : Tensor Float) :
    t.Agrees r r ↔ ∀ a ∈ r.data, ¬a.isNaN := by
  constructor
  · intro hagrees a ha
    obtain ⟨i, hi⟩ := Array.getElem?_of_mem ha
    exact (h.isClose_self a).mp (hagrees.close i a a hi hi)
  · intro hnumbers
    refine ⟨rfl, fun i a b ha hb => ?_⟩
    obtain rfl : a = b := Option.some.inj (ha.symm.trans hb)
    exact (h.isClose_self a).mpr (hnumbers a (Array.mem_of_getElem? ha))

end Tensors

section Verdicts

variable {t t' : Tolerance} {reference target : OutputTuple}

/-- What is refused is refused under every usable tolerance. -/
theorem Loosens.error_iff (h : t.Loosens t') (e : ComparisonError) :
    t.Judged reference target (.error e) ↔ t'.Judged reference target (.error e) := by
  constructor
  · intro he
    cases he with
    | invalid hnot => exact absurd h.usable hnot
    | empty _ hreference htarget => exact .empty h.usable' hreference htarget
  · intro he
    cases he with
    | invalid hnot => exact absurd h.usable' hnot
    | empty _ hreference htarget => exact .empty h.usable hreference htarget


/-- A verdict under the looser tolerance goes at least as far as one under the stricter. -/
theorem Loosens.goes_on (h : t.Loosens t') {v v' : Verdict}
    (hv : t.Judged reference target (.ok v)) (hv' : t'.Judged reference target (.ok v')) :
    (v.passed = true → v'.passed = true) ∧ v.pairsChecked ≤ v'.pairsChecked ∧
      ∀ m m', v.mismatch = some m → v'.mismatch = some m' → m.place ≤ m'.place := by
  cases hv with
  | length _ hlength =>
    refine ⟨nofun, Nat.zero_le _, ?_⟩
    rintro _ m' ⟨⟩ -
    cases hplace : m'.place with
    | nil => exact le_rfl
    | cons first rest =>
      have hfirst : [] < first :: rest := .nil
      exact hfirst.le
  | passed _ hsome hagrees =>
    have hloosened : t'.Judged reference target (.ok ⟨reference.length, t', none⟩) :=
      .passed h.usable' hsome (hagrees.imp fun _ _ => h.agrees)
    obtain rfl := Except.ok.inj (hloosened.unique hv')
    exact ⟨fun _ => rfl, le_rfl, nofun⟩
  | @failed position r x m _ hlength hbefore hr hx hdiffers =>
    refine ⟨nofun, ?_⟩
    have hinside : position < reference.length := (List.getElem?_eq_some_iff.mp hr).1
    cases hv' with
    | length _ hnot => exact absurd hlength hnot
    | passed => exact ⟨hinside, nofun⟩
    | @failed position' r' x' m' _ _ _ hr' hx' hdiffers' =>
      rcases Nat.lt_trichotomy position position' with hlater | rfl | hearlier
      · refine ⟨Nat.succ_le_succ hlater.le, ?_⟩
        rintro _ _ ⟨⟩ ⟨⟩
        exact (hdiffers.place_lt hdiffers' hlater).le
      · obtain rfl : r = r' := Option.some.inj (hr.symm.trans hr')
        obtain rfl : x = x' := Option.some.inj (hx.symm.trans hx')
        refine ⟨le_rfl, ?_⟩
        rintro _ _ ⟨⟩ ⟨⟩
        exact h.place_le hdiffers hdiffers'
      · -- what the looser search stops at agreed already for the stricter
        have hagrees := h.agrees (agrees_before hearlier hbefore hr' hx')
        exact absurd hagrees hdiffers'.not_agrees

/-- A tuple compared with itself passes unless something in it is no number. -/
theorem Usable.compare_self (h : t.Usable) (hsome : reference ≠ []) :
    ∃ v, compare reference reference t = .ok v ∧
      (v.passed = true ↔ ∀ tensor ∈ reference, ∀ a ∈ tensor.data, ¬a.isNaN) := by
  have hjudged := judged_compare t reference reference
  cases hresult : compare reference reference t with
  | error e =>
    rw [hresult] at hjudged
    cases hjudged with
    | invalid hnot => exact absurd h hnot
    | empty _ hreference => exact absurd hreference hsome
  | ok v =>
    rw [hresult] at hjudged
    refine ⟨v, rfl, ?_⟩
    cases hjudged with
    | length _ hlength => exact absurd rfl hlength
    | passed _ _ hagrees =>
      refine iff_of_true rfl fun tensor htensor => ?_
      exact (h.agrees_self tensor).mp (List.forall₂_same.mp hagrees tensor htensor)
    | @failed position r x m _ _ _ hr hx hdiffers =>
      obtain rfl : r = x := Option.some.inj (hr.symm.trans hx)
      refine iff_of_false Bool.false_ne_true fun hnumbers => hdiffers.not_agrees ?_
      exact (h.agrees_self r).mpr (hnumbers r (List.mem_of_getElem? hr))

end Verdicts

end Tolerance

/-- Loosening a tolerance never makes a comparison worse. The same tuples are refused; what passed
passes still; and of two failures the one under the looser tolerance stands at the same place or a
later one, after no fewer pairs. Compared with itself, a tuple passes exactly if nothing in it is no
number. -/
theorem compare_loosens :
    (∀ t t' : Tolerance, t.valid = true → t'.valid = true → t.relative ≤ t'.relative →
      t.absolute ≤ t'.absolute → ∀ reference target : OutputTuple,
        (∀ e, compare reference target t = .error e ↔ compare reference target t' = .error e) ∧
        ∀ v, compare reference target t = .ok v → ∃ v', compare reference target t' = .ok v' ∧
          (v.passed = true → v'.passed = true) ∧ v.pairsChecked ≤ v'.pairsChecked ∧
          ∀ m m', v.mismatch = some m → v'.mismatch = some m' → m.place ≤ m'.place) ∧
    ∀ t : Tolerance, t.valid = true → ∀ tuple : OutputTuple, tuple ≠ [] →
      ∃ v, compare tuple tuple t = .ok v ∧
        (v.passed = true ↔ ∀ tensor ∈ tuple, ∀ a ∈ tensor.data, ¬a.isNaN) := by
  constructor
  · intro t t' hvalid hvalid' hrelative habsolute reference target
    have hloosens : t.Loosens t' :=
      ⟨t.valid_iff.mp hvalid, t'.valid_iff.mp hvalid', hrelative, habsolute⟩
    have herror (e : ComparisonError) :
        compare reference target t = .error e ↔ compare reference target t' = .error e := by
      rw [compare_eq_iff, compare_eq_iff]
      exact hloosens.error_iff e
    refine ⟨herror, fun v hv => ?_⟩
    cases hresult : compare reference target t' with
    | error e =>
      rw [(herror e).mpr hresult] at hv
      cases hv
    | ok v' =>
      exact ⟨v', rfl, hloosens.goes_on ((compare_eq_iff _ _ _ _).mp hv)
        ((compare_eq_iff _ _ _ _).mp hresult)⟩
  · intro t hvalid tuple hsome
    exact (t.valid_iff.mp hvalid).compare_self hsome

/-- The second element is too far away without a relative part. With one it is close, and the
comparison goes on to the element that is no number. -/
theorem compare_loosens_further :
    let t : Tolerance := ⟨0.0, 0.5⟩
    let t' : Tolerance := ⟨0.5, 0.5⟩
    let reference : OutputTuple := [⟨[2], #[1.0, 4.0], rfl⟩, ⟨[1], #[0.0 / 0.0], rfl⟩]
    let target : OutputTuple := [⟨[2], #[1.25, 6.0], rfl⟩, ⟨[1], #[8.0], rfl⟩]
    t.valid = true ∧ t'.valid = true ∧ t.relative ≤ t'.relative ∧ t.absolute ≤ t'.absolute ∧
      (∃ v', compare reference target t' = .ok v' ∧ 1 ≤ v'.pairsChecked ∧
        ∀ m', v'.mismatch = some m' → [0, 1] ≤ m'.place) ∧
      ∃ v, compare reference reference t = .ok v ∧ v.passed = false := by
  intro t t' reference target
  have hvalid : t.valid = true := by decide +kernel
  have hvalid' : t'.valid = true := by decide +kernel
  have hrelative : t.relative ≤ t'.relative := by decide +kernel
  have habsolute : t.absolute ≤ t'.absolute := by decide +kernel
  have hverdict : compare reference target t =
      .ok ⟨1, t, some (.numeric 0 1 [1] 4.0 6.0 2.0 0.5)⟩ := by
    decide +kernel
  obtain ⟨hloosens, hself⟩ := compare_loosens
  obtain ⟨-, hverdicts⟩ := hloosens t t' hvalid hvalid' hrelative habsolute reference target
  obtain ⟨v', hv', -, hpairs, hplace⟩ := hverdicts _ hverdict
  obtain ⟨v, hv, hpassed⟩ := hself t hvalid reference (List.cons_ne_nil _ _)
  have hnan : ¬ ∀ tensor ∈ reference, ∀ a ∈ tensor.data, ¬a.isNaN := by
    decide +kernel
  exact ⟨hvalid, hvalid', hrelative, habsolute, ⟨v', hv', hpairs, fun m' => hplace _ m' rfl⟩, v, hv,
    Bool.eq_false_iff.mpr fun h => hnan (hpassed.mp h)⟩

end TensorParity
