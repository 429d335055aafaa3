import TensorParity.Comparison.Verdict
import TensorParity.Proofs.Except
import TensorParity.Proofs.Shape

/-!
What a comparison says. `Judged` lists the possible answers with their conditions, which exclude each
other, and a comparison gives exactly the answer whose condition holds. A difference of two tensors
always has coordinates, so a comparison is never refused for want of them.
-/
namespace TensorParity

namespace Tolerance

/-- Both bounds are finite and not negative. -/
def Usable (t : Tolerance) : Prop :=
  (t.relative.isFinite = true ∧ 0.0 ≤ t.relative) ∧ t.absolute.isFinite = true ∧ 0.0 ≤ t.absolute

/-- The elements at a flat position are close. -/
def CloseAt (t : Tolerance) (reference target : Tensor Float) (i : Nat) : Prop :=
  ∀ a b, reference.data[i]? = some a → target.data[i]? = some b → t.isClose a b = true

/-- Tensors of one shape whose elements are all close. -/
structure Agrees (t : Tolerance) (reference target : Tensor Float) : Prop where
  shape : reference.shape = target.shape
  close : ∀ i, t.CloseAt reference target i

/-- The first difference of two tensors at a tuple position: their shapes, or else the first pair of
elements that is not close, with its coordinates. -/
inductive Differs (t : Tolerance) (reference target : Tensor Float) (position : Nat) :
    Mismatch → Prop where
  | shape (hshape : reference.shape ≠ target.shape) :
    Differs t reference target position (.shape position reference.shape target.shape)
  | numeric {flat : Nat} {a b : Float} {index : List Nat}
    (hshape : reference.shape = target.shape)
    (hbefore : ∀ i < flat, t.CloseAt reference target i)
    (hreference : reference.data[flat]? = some a) (htarget : target.data[flat]? = some b)
    (hapart : t.isClose a b = false) (hinside : reference.shape.Inside index)
    (hindex : Shape.position reference.shape index = flat) :
    Differs t reference target position
      (.numeric position flat index a b (a - b).abs (t.bound a))

/-- The answers of a comparison. -/
inductive Judged (t : Tolerance) (reference target : OutputTuple) :
    Except ComparisonError Verdict → Prop where
  | invalid (husable : ¬ t.Usable) : Judged t reference target (.error (.invalidTolerance t))
  | length (husable : t.Usable) (hlength : reference.length ≠ target.length) :
    Judged t reference target (.ok ⟨0, t, some (.length reference.length target.length)⟩)
  | empty (husable : t.Usable) (hreference : reference = []) (htarget : target = []) :
    Judged t reference target (.error .emptyOutputs)
  | passed (husable : t.Usable) (hsome : reference ≠ [])
    (hagrees : List.Forall₂ t.Agrees reference target) :
    Judged t reference target (.ok ⟨reference.length, t, none⟩)
  | failed {position : Nat} {r x : Tensor Float} {m : Mismatch} (husable : t.Usable)
    (hlength : reference.length = target.length)
    (hbefore : List.Forall₂ t.Agrees (reference.take position) (target.take position))
    (hreference : reference[position]? = some r) (htarget : target[position]? = some x)
    (hdiffers : t.Differs r x position m) :
    Judged t reference target (.ok ⟨position + 1, t, some m⟩)

end Tolerance

open Tolerance

theorem Tolerance.valid_iff (t : Tolerance) : t.valid = true ↔ t.Usable := by
  simp only [valid, usable, Usable, Bool.and_eq_true, decide_eq_true_eq]

section Elements

variable {t : Tolerance} {flat : Nat} {pairs : List (Float × Float)}

theorem firstApart_eq_none_iff :
    firstApart t flat pairs = none ↔ ∀ pair ∈ pairs, t.isClose pair.1 pair.2 = true := by
  induction pairs generalizing flat with
  | nil => simp [firstApart]
  | cons pair pairs ih =>
    obtain ⟨a, b⟩ := pair
    rw [firstApart, List.forall_mem_cons]
    by_cases hclose : t.isClose a b = true
    · rw [if_pos hclose, ih]
      exact (and_iff_right hclose).symm
    · rw [if_neg hclose]
      simp [hclose]

/-- The pair that is found is not close, and all before it are. -/
theorem firstApart_eq_some {place : Nat} {a b : Float}
    (h : firstApart t flat pairs = some (place, a, b)) :
    ∃ i, place = flat + i ∧ pairs[i]? = some (a, b) ∧ t.isClose a b = false ∧
      ∀ j < i, ∀ pair, pairs[j]? = some pair → t.isClose pair.1 pair.2 = true := by
  induction pairs generalizing flat with
  | nil => cases h
  | cons pair pairs ih =>
    obtain ⟨r, x⟩ := pair
    rw [firstApart] at h
    split at h
    · rename_i hclose
      obtain ⟨i, hplace, hpair, hapart, hbefore⟩ := ih h
      refine ⟨i + 1, by omega, hpair, hapart, ?_⟩
      intro j hj other hother
      cases j with
      | zero =>
        obtain rfl : (r, x) = other := Option.some.inj hother
        exact hclose
      | succ j => exact hbefore j (by omega) other hother
    · rename_i hclose
      obtain ⟨rfl, rfl, rfl⟩ : flat = place ∧ r = a ∧ x = b := by simpa using h
      exact ⟨0, rfl, rfl, by simpa using hclose, fun j hj => absurd hj (Nat.not_lt_zero j)⟩

end Elements

section Pairs

variable {t : Tolerance} {r x : Tensor Float} {position : Nat}

theorem getElem?_zip_data {i : Nat} {a b : Float} :
    (r.data.toList.zip x.data.toList)[i]? = some (a, b) ↔
      r.data[i]? = some a ∧ x.data[i]? = some b := by
  simp [List.getElem?_zip_eq_some]

theorem closeAt_iff {i : Nat} : t.CloseAt r x i ↔
    ∀ pair, (r.data.toList.zip x.data.toList)[i]? = some pair →
      t.isClose pair.1 pair.2 = true := by
  constructor
  · rintro hclose ⟨a, b⟩ hpair
    obtain ⟨ha, hb⟩ := getElem?_zip_data.mp hpair
    exact hclose a b ha hb
  · intro hclose a b ha hb
    exact hclose (a, b) (getElem?_zip_data.mpr ⟨ha, hb⟩)

/-- Two tensors agree, or they have a first difference. -/
theorem comparePair_cases (t : Tolerance) (position : Nat) (r x : Tensor Float) :
    (comparePair t position r x = .ok none ∧ t.Agrees r x) ∨
      ∃ m, comparePair t position r x = .ok (some m) ∧ t.Differs r x position m := by
  unfold comparePair
  by_cases hshape : r.shape = x.shape
  · rw [if_neg (not_not_intro hshape)]
    cases hfound : firstApart t 0 (r.data.toList.zip x.data.toList) with
    | none =>
      refine .inl ⟨rfl, hshape, fun i => closeAt_iff.mpr fun pair hpair => ?_⟩
      exact firstApart_eq_none_iff.mp hfound pair (List.mem_of_getElem? hpair)
    | some found =>
      obtain ⟨flat, a, b⟩ := found
      obtain ⟨i, hplace, hpair, hapart, hbefore⟩ := firstApart_eq_some hfound
      obtain rfl : flat = i := by omega
      obtain ⟨ha, hb⟩ := getElem?_zip_data.mp hpair
      have hflat : flat < r.data.size := (Array.getElem?_eq_some_iff.mp ha).1
      have hindex : r.unravel flat = .ok (r.shape.coordinates flat) := if_pos hflat
      obtain ⟨hinside, hposition⟩ := (Tensor.unravel_eq_ok_iff hflat).mp hindex
      refine .inr ⟨_, by simp only [hindex, Except.mapError, ok_bind]; rfl, ?_⟩
      exact .numeric hshape (fun j hj => closeAt_iff.mpr (hbefore j hj)) ha hb hapart hinside
        hposition
  · rw [if_pos hshape]
    exact .inr ⟨_, rfl, .shape hshape⟩

theorem Tolerance.Differs.not_agrees {m : Mismatch} (h : t.Differs r x position m) :
    ¬ t.Agrees r x := by
  intro hagrees
  cases h with
  | shape hshape => exact hshape hagrees.shape
  | numeric _ _ ha hb hapart _ _ =>
    rw [hagrees.close _ _ _ ha hb] at hapart
    cases hapart

theorem Tolerance.Differs.unique {m m' : Mismatch} (h : t.Differs r x position m)
    (h' : t.Differs r x position m') : m = m' := by
  cases h with
  | shape hshape =>
    cases h' with
    | shape _ => rfl
    | numeric hsame => exact absurd hsame hshape
  | @numeric flat a b index hshape hbefore ha hb hapart hinside hposition =>
    cases h' with
    | shape hother => exact absurd hshape hother
    | @numeric flat' a' b' index' _ hbefore' ha' hb' hapart' hinside' hposition' =>
      -- an earlier place of one would be close for the other
      have hplace : flat = flat' := by
        rcases Nat.lt_trichotomy flat flat' with hlt | heq | hlt
        · rw [hbefore' flat hlt a b ha hb] at hapart
          cases hapart
        · exact heq
        · rw [hbefore flat' hlt a' b' ha' hb'] at hapart'
          cases hapart'
      subst hplace
      obtain rfl : a = a' := Option.some.inj (ha.symm.trans ha')
      obtain rfl : b = b' := Option.some.inj (hb.symm.trans hb')
      have hflat : flat < r.data.size := (Array.getElem?_eq_some_iff.mp ha).1
      have hindex := (Tensor.unravel_eq_ok_iff hflat).mpr ⟨hinside, hposition⟩
      rw [(Tensor.unravel_eq_ok_iff hflat).mpr ⟨hinside', hposition'⟩] at hindex
      rw [Except.ok.inj hindex]

/-- A walk over the pairs ends after all of them, or at the first pair that differs. -/
theorem comparePairs_cases (t : Tolerance) (position : Nat)
    (pairs : List (Tensor Float × Tensor Float)) :
    (comparePairs t position pairs = .ok (position + pairs.length, none) ∧
        ∀ pair ∈ pairs, t.Agrees pair.1 pair.2) ∨
      ∃ i r x m, comparePairs t position pairs = .ok (position + i + 1, some m) ∧
        pairs[i]? = some (r, x) ∧ t.Differs r x (position + i) m ∧
        ∀ pair ∈ pairs.take i, t.Agrees pair.1 pair.2 := by
  induction pairs generalizing position with
  | nil => exact .inl ⟨rfl, by simp⟩
  | cons pair pairs ih =>
    -- the walk goes on from the next position, so places count from `position`
    obtain ⟨r, x⟩ := pair
    rw [comparePairs]
    rcases comparePair_cases t position r x with ⟨hnone, hagrees⟩ | ⟨m, hsome, hdiffers⟩
    · rw [hnone, ok_bind]
      rcases ih (position + 1) with ⟨hend, hall⟩ | ⟨i, r', x', m, hstop, hpair, hdiffers, hbefore⟩
      · refine .inl ⟨?_, List.forall_mem_cons.mpr ⟨hagrees, hall⟩⟩
        rw [hend, List.length_cons, Nat.add_right_comm, Nat.add_assoc]
      · have hplace : position + (i + 1) = position + 1 + i := by omega
        refine .inr ⟨i + 1, r', x', m, ?_, hpair, ?_, ?_⟩
        · rw [hplace]
          exact hstop
        · rw [hplace]
          exact hdiffers
        · exact List.forall_mem_cons.mpr ⟨hagrees, hbefore⟩
    · rw [hsome, ok_bind]
      exact .inr ⟨0, r, x, m, rfl, rfl, hdiffers, by simp⟩

end Pairs

variable {t : Tolerance} {reference target : OutputTuple}

theorem judged_compare (t : Tolerance) (reference target : OutputTuple) :
    t.Judged reference target (compare reference target t) := by
  unfold compare
  by_cases husable : t.Usable
  · have hvalidate : t.validate = .ok () := if_pos ((valid_iff t).mpr husable)
    rw [hvalidate, ok_bind]
    by_cases hlength : reference.length = target.length
    · simp only [hlength, ne_eq, not_true_eq_false, if_false]
      cases hreference : reference with
      | nil =>
        subst hreference
        have htarget : target = [] := List.length_eq_zero_iff.mp hlength.symm
        exact .empty husable rfl htarget
      | cons first rest =>
        rw [← hreference]
        have hsome : reference ≠ [] := by simp [hreference]
        simp only [List.isEmpty_eq_false_iff.mpr hsome]
        have hzip : (reference.zip target).length = reference.length := by
          rw [List.length_zip, hlength, Nat.min_self]
        rcases comparePairs_cases t 0 (reference.zip target) with
          ⟨hend, hall⟩ | ⟨i, r, x, m, hstop, hpair, hdiffers, hbefore⟩
        · simp only [hend, hzip, Nat.zero_add]
          refine .passed husable hsome (List.forall₂_iff_zip.mpr ⟨hlength, ?_⟩)
          intro a b hmem
          exact hall (a, b) hmem
        · obtain ⟨hr, hx⟩ := List.getElem?_zip_eq_some.mp hpair
          rw [Nat.zero_add] at hstop hdiffers
          simp only [hstop]
          refine .failed husable hlength (List.forall₂_iff_zip.mpr ⟨?_, ?_⟩) hr hx hdiffers
          · rw [List.length_take, List.length_take, hlength]
          · intro a b hmem
            rw [List.zip_eq_zipWith, ← List.take_zipWith, ← List.zip_eq_zipWith] at hmem
            exact hbefore (a, b) hmem
    · simp only [hlength, ne_eq, not_false_eq_true, if_true]
      exact .length husable hlength
  · have hvalidate : t.validate = .error (.invalidTolerance t) :=
      if_neg fun hvalid => husable ((valid_iff t).mp hvalid)
    rw [hvalidate]
    exact .invalid husable

/-- Related lists are related place by place. -/
theorem related_getElem? {α β : Type} {related : α → β → Prop} {as : List α} {bs : List β}
    (h : List.Forall₂ related as bs) {i : Nat} {a : α} {b : β} (ha : as[i]? = some a)
    (hb : bs[i]? = some b) : related a b := by
  have hpair : (as.zip bs)[i]? = some (a, b) := List.getElem?_zip_eq_some.mpr ⟨ha, hb⟩
  exact (List.forall₂_iff_zip.mp h).2 (List.mem_of_getElem? hpair)

theorem agrees_before {position place : Nat} {r x : Tensor Float} (hplace : place < position)
    (hbefore : List.Forall₂ t.Agrees (reference.take position) (target.take position))
    (hreference : reference[place]? = some r) (htarget : target[place]? = some x) :
    t.Agrees r x := by
  refine related_getElem? hbefore (i := place) ?_ ?_
  · rwa [List.getElem?_take_of_lt hplace]
  · rwa [List.getElem?_take_of_lt hplace]

/-- The conditions of different answers exclude each other. -/
theorem Tolerance.Judged.unique {result result' : Except ComparisonError Verdict}
    (h : t.Judged reference target result) (h' : t.Judged reference target result') :
    result = result' := by
  cases h with
  | invalid husable =>
    cases h' with
    | invalid _ => rfl
    | _ => contradiction
  | length husable hlength =>
    cases h' with
    | invalid hnot => exact absurd husable hnot
    | length _ _ => rfl
    | empty _ hreference htarget => exact absurd (by rw [hreference, htarget]) hlength
    | passed _ _ hagrees => exact absurd hagrees.length_eq hlength
    | failed _ hsame => exact absurd hsame hlength
  | empty husable hreference htarget =>
    cases h' with
    | invalid hnot => exact absurd husable hnot
    | length _ hlength => exact absurd (by rw [hreference, htarget]) hlength
    | empty _ _ _ => rfl
    | passed _ hsome _ => exact absurd hreference hsome
    | failed _ _ _ hplace _ _ => simp [hreference] at hplace
  | passed husable hsome hagrees =>
    cases h' with
    | invalid hnot => exact absurd husable hnot
    | length _ hlength => exact absurd hagrees.length_eq hlength
    | empty _ hreference _ => exact absurd hreference hsome
    | passed _ _ _ => rfl
    | failed _ _ _ hr hx hdiffers => exact absurd (related_getElem? hagrees hr hx) hdiffers.not_agrees
  | @failed position r x m husable hlength hbefore hr hx hdiffers =>
    cases h' with
    | invalid hnot => exact absurd husable hnot
    | length _ hother => exact absurd hlength hother
    | empty _ hreference _ => simp [hreference] at hr
    | passed _ _ hagrees => exact absurd (related_getElem? hagrees hr hx) hdiffers.not_agrees
    | @failed position' r' x' m' _ _ hbefore' hr' hx' hdiffers' =>
      have hposition : position = position' := by
        rcases Nat.lt_trichotomy position position' with hlt | heq | hlt
        · exact absurd (agrees_before hlt hbefore' hr hx) hdiffers.not_agrees
        · exact heq
        · exact absurd (agrees_before hlt hbefore hr' hx') hdiffers'.not_agrees
      subst hposition
      obtain rfl : r = r' := Option.some.inj (hr.symm.trans hr')
      obtain rfl : x = x' := Option.some.inj (hx.symm.trans hx')
      rw [hdiffers.unique hdiffers']

/-- A comparison gives an answer exactly under the condition of that answer. -/
theorem compare_eq_iff (reference target : OutputTuple) (t : Tolerance)
    (result : Except ComparisonError Verdict) :
    compare reference target t = result ↔ t.Judged reference target result := by
  constructor
  · rintro rfl
    exact judged_compare t reference target
  · intro hjudged
    exact (judged_compare t reference target).unique hjudged

end TensorParity
