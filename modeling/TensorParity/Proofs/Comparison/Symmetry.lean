import TensorParity.Proofs.Comparison.Verdict
import TensorParity.Proofs.Rounding.Distance

/-!
Comparisons without a relative part. The bound is then the same whichever side is the reference, so
the two sides play the same part: exchanged, they get the same refusal or the same verdict with its
sides exchanged. A numeric difference stands at the same place and distance. Only the bound it
reports belongs to the value taken as reference, which need not be a number.
-/
namespace TensorParity

/-- The same difference with reference and target exchanged. -/
def Mismatch.swapped (t : Tolerance) : Mismatch → Mismatch
  | .length reference target => .length target reference
  | .shape position reference target => .shape position target reference
  | .numeric position flat index reference target distance _ =>
    .numeric position flat index target reference distance (t.bound target)

/-- The element that a numeric difference names, by its flat position and its coordinates. -/
def Mismatch.element : Mismatch → Option (Nat × List Nat)
  | .numeric _ flat index .. => some (flat, index)
  | .length .. | .shape .. => none

@[simp] theorem Mismatch.code_swapped (t : Tolerance) (m : Mismatch) :
    (m.swapped t).code = m.code := by
  cases m <;> rfl

@[simp] theorem Mismatch.position_swapped (t : Tolerance) (m : Mismatch) :
    (m.swapped t).position = m.position := by
  cases m <;> rfl

@[simp] theorem Mismatch.element_swapped (t : Tolerance) (m : Mismatch) :
    (m.swapped t).element = m.element := by
  cases m <;> rfl

/-- The verdict on the same two sides, exchanged. -/
def Verdict.swapped (v : Verdict) : Verdict :=
  { v with mismatch := v.mismatch.map (·.swapped v.tolerance) }

section Verdict

variable (v : Verdict)

@[simp] theorem Verdict.pairsChecked_swapped : v.swapped.pairsChecked = v.pairsChecked := rfl

@[simp] theorem Verdict.passed_swapped : v.swapped.passed = v.passed :=
  Option.isNone_map

@[simp] theorem Verdict.code_swapped : v.swapped.code = v.code := by
  cases hm : v.mismatch with
  | none => simp [Verdict.code, Verdict.swapped, hm]
  | some m => simp [Verdict.code, Verdict.swapped, hm]

theorem Verdict.bind_mismatch_swapped {α : Type} {f : Mismatch → Option α}
    (hf : ∀ m, f (m.swapped v.tolerance) = f m) :
    v.swapped.mismatch.bind f = v.mismatch.bind f := by
  cases hm : v.mismatch with
  | none => simp [Verdict.swapped, hm]
  | some m => simp [Verdict.swapped, hm, hf]

end Verdict

namespace Tolerance

variable {t : Tolerance} {r x : Tensor Float} {position : Nat}

/-- Without a relative part the bound does not depend on the reference. -/
theorem bound_eq (h : (t.relative == 0.0) = true) {a b : Float} (ha : a.isFinite = true)
    (hb : b.isFinite = true) : t.bound a = t.bound b := by
  obtain ⟨sign, hzero⟩ := exists_zero_of_beq h
  rw [bound, bound, zero_mul_abs hzero ha hb]

theorem isClose_swap (h : (t.relative == 0.0) = true) (a b : Float) :
    t.isClose b a = t.isClose a b := by
  simp only [isClose, Bool.or_comm b.isNaN, Bool.or_comm (!b.isFinite), beq_swap b a]
  split_ifs with hnan hinfinite
  · rfl
  · rfl
  · -- only finite values are measured against the bound
    obtain ⟨ha, hb⟩ : a.isFinite = true ∧ b.isFinite = true := by simpa using hinfinite
    rw [abs_sub_swap b a, bound_eq h hb ha]

theorem CloseAt.swap (h : (t.relative == 0.0) = true) {i : Nat} (hclose : t.CloseAt r x i) :
    t.CloseAt x r i := by
  intro b a hb ha
  rw [isClose_swap h]
  exact hclose a b ha hb

theorem Agrees.swap (h : (t.relative == 0.0) = true) (hagrees : t.Agrees r x) :
    t.Agrees x r where
  shape := hagrees.shape.symm
  close i := (hagrees.close i).swap h

theorem Differs.swap (h : (t.relative == 0.0) = true) {m : Mismatch}
    (hdiffers : t.Differs r x position m) : t.Differs x r position (m.swapped t) := by
  cases hdiffers with
  | shape hshape => exact .shape hshape.symm
  | @numeric flat a b index hshape hbefore ha hb hapart hinside hposition =>
    -- the bound is that of the new reference, so nothing is asked of it here
    rw [Mismatch.swapped, abs_sub_swap a b]
    refine .numeric hshape.symm (fun i hi => (hbefore i hi).swap h) hb ha ?_ ?_ ?_
    · rw [isClose_swap h, hapart]
    · rwa [← hshape]
    · rwa [← hshape]

/-- Each answer's condition holds of the exchanged sides for the answer with its sides exchanged. -/
theorem Judged.swap (h : (t.relative == 0.0) = true) {reference target : OutputTuple}
    {result : Except ComparisonError Verdict} (hjudged : t.Judged reference target result) :
    t.Judged target reference (result.map Verdict.swapped) := by
  have hagrees {rs xs : OutputTuple} (hall : List.Forall₂ t.Agrees rs xs) :
      List.Forall₂ t.Agrees xs rs :=
    (hall.imp fun _ _ hone => hone.swap h).flip
  cases hjudged with
  | invalid husable => exact .invalid husable
  | length husable hlength => exact .length husable hlength.symm
  | empty husable hreference htarget => exact .empty husable htarget hreference
  | passed husable hsome hall =>
    have htarget : target ≠ [] := by
      rintro rfl
      exact hsome (List.forall₂_nil_right_iff.mp hall)
    change t.Judged target reference (.ok ⟨reference.length, t, none⟩)
    rw [hall.length_eq]
    exact .passed husable htarget (hagrees hall)
  | failed husable hlength hbefore hreference htarget hdiffers =>
    exact .failed husable hlength.symm (hagrees hbefore) htarget hreference (hdiffers.swap h)

end Tolerance

variable {t : Tolerance}

/-- Without a relative part the exchanged comparison gives the exchanged answer. -/
theorem compare_swap (h : (t.relative == 0.0) = true) (reference target : OutputTuple) :
    compare target reference t = (compare reference target t).map Verdict.swapped :=
  (compare_eq_iff target reference t _).mpr ((judged_compare t reference target).swap h)

/-- Without a relative part it does not matter which tuple is the reference. Both ways the
comparison is refused for the same reason, or its verdicts agree on whether it passed, on the reason
code, on the number of pairs examined, on the position and on the element where the tuples differ. -/
theorem compare_symmetric (h : (t.relative == 0.0) = true) (reference target : OutputTuple) :
    (∀ e, compare reference target t = .error e ↔ compare target reference t = .error e) ∧
      ∀ v, compare reference target t = .ok v → ∃ w, compare target reference t = .ok w ∧
        w.passed = v.passed ∧ w.code = v.code ∧ w.pairsChecked = v.pairsChecked ∧
        w.mismatch.bind Mismatch.position = v.mismatch.bind Mismatch.position ∧
        w.mismatch.bind Mismatch.element = v.mismatch.bind Mismatch.element := by
  have hswap := compare_swap h reference target
  cases hresult : compare reference target t with
  | error e =>
    rw [hresult] at hswap
    refine ⟨fun e' => ?_, nofun⟩
    rw [hswap]
    rfl
  | ok v =>
    rw [hresult] at hswap
    refine ⟨fun e => ?_, ?_⟩
    · rw [hswap]
      exact ⟨nofun, nofun⟩
    · rintro v' hv'
      obtain rfl := Except.ok.inj hv'
      exact ⟨v.swapped, hswap, v.passed_swapped, v.code_swapped, v.pairsChecked_swapped,
        v.bind_mismatch_swapped (Mismatch.position_swapped _),
        v.bind_mismatch_swapped (Mismatch.element_swapped _)⟩

/-- Zeros of both signs and equal infinities are close, and a value that is no number differs from
a number whichever side it is on. -/
theorem compare_symmetric_special :
    let t : Tolerance := ⟨-0.0, 0.0⟩
    let nan : Float := 0.0 / 0.0
    let infinity : Float := 1.0 / 0.0
    let reference : OutputTuple := [⟨[1], #[0.0], rfl⟩, ⟨[2, 1], #[infinity, nan], rfl⟩]
    let target : OutputTuple := [⟨[1], #[-0.0], rfl⟩, ⟨[2, 1], #[infinity, 1.0], rfl⟩]
    (t.relative == 0.0) = true ∧ ∃ w, compare target reference t = .ok w ∧
      w.code = "numeric_mismatch" ∧ w.pairsChecked = 2 ∧
      w.mismatch.bind Mismatch.position = some 1 ∧
      w.mismatch.bind Mismatch.element = some (1, [1, 0]) := by
  intro t nan infinity reference target
  have hzero : (t.relative == 0.0) = true := by decide +kernel
  have hverdict : compare reference target t =
      .ok ⟨2, t, some (.numeric 1 1 [1, 0] nan 1.0 (nan - 1.0).abs (t.bound nan))⟩ := by
    decide +kernel
  obtain ⟨-, hsame⟩ := compare_symmetric hzero reference target
  obtain ⟨w, hw, -, hcode, hchecked, hposition, helement⟩ := hsame _ hverdict
  exact ⟨hzero, w, hw, hcode, hchecked, hposition, helement⟩

end TensorParity
