import TensorParity.Proofs.Artifact.Export

/-!
Captures and runs accept the same work. A capture repeats the checks of a run in double precision
with code and refusals of its own, and asks for finite constants after the inputs and before the
nodes. So what a run refuses it refuses as well: for the same reason where the inputs are wrong, and
otherwise for a constant before any kernel.
-/
namespace TensorParity

/-- The constant with the least name of those that have an element that is not finite. -/
structure Table.LeastNonFinite (constants : Table (Tensor Float)) (name : String) : Prop where
  nonFinite : ∃ t, constants.find? name = some t ∧ ¬t.Finite
  least : ∀ other t, constants.find? other = some t → ¬t.Finite → name ≤ other

namespace Artifact

/-- How a capture puts what a run is refused for. -/
inductive Restates (m : Model) (inputs : List (Tensor Float)) :
    ExecError → ArtifactError → Prop where
  | inputCount {expected actual : Nat} :
    Restates m inputs (.inputCount expected actual) (.inputCount expected actual)
  | inputShape {position : Nat} {decl : InputDecl} {t : Tensor Float}
    (hfirst : m.FirstMismatch inputs position decl t) :
    Restates m inputs (.inputShape decl.name decl.shape t.shape)
      (.inputShape position decl.name decl.shape t.shape)
  | nonFinite {node : String} {kind : OperatorKind} {source : KernelError} {name : String}
    (hleast : m.constants.LeastNonFinite name) :
    Restates m inputs (.kernel node kind source) (.nonFinite name)
  | kernel {node : String} {kind : OperatorKind} {source : KernelError}
    (hfinite : ∀ entry ∈ m.constants.entries, entry.2.Finite) :
    Restates m inputs (.kernel node kind source) (.trace (.kernel node kind source))

variable {m : Model} {inputs : List (Tensor Float)}

/-- The inputs are compared in order, and the first that differs is named with its position. -/
theorem checkInputs_of_mismatch {before after : List (InputDecl × Tensor Float)}
    {decl : InputDecl} {t : Tensor Float}
    (hbefore : ∀ pair ∈ before, pair.2.shape = pair.1.shape) (hshape : t.shape ≠ decl.shape)
    (start : Nat) : checkInputs start (before ++ (decl, t) :: after) =
      .error (.inputShape (start + before.length) decl.name decl.shape t.shape) := by
  induction before generalizing start with
  | nil => exact if_neg hshape
  | cons pair before ih =>
    obtain ⟨first, u⟩ := pair
    obtain ⟨hfirst, hothers⟩ := List.forall_mem_cons.mp hbefore
    rw [List.cons_append, checkInputs, if_pos hfirst, ih hothers, List.length_cons,
      Nat.add_right_comm, Nat.add_assoc]

theorem freeze_eq_error {entry : String × Tensor Float} {e : ArtifactError}
    (h : freeze entry = .error e) : ¬entry.2.Finite ∧ e = .nonFinite entry.1 := by
  by_cases hfinite : entry.2.Finite
  · rw [freeze_of_finite hfinite] at h
    cases h
  · refine ⟨hfinite, ?_⟩
    rw [freeze] at h
    split at h
    · cases h
    · exact (Except.error.inj h).symm

/-- Constants are visited by ascending names, so a refusal names the least. -/
theorem leastNonFinite_of_freeze {e : ArtifactError}
    (h : m.constants.entries.mapM freeze = .error e) :
    ∃ name, e = .nonFinite name ∧ m.constants.LeastNonFinite name := by
  obtain ⟨before, ⟨name, t⟩, after, hsplit, hbefore, hrefused⟩ := mapM_eq_error_iff.mp h
  obtain ⟨hnonFinite, rfl⟩ := freeze_eq_error hrefused
  have hsorted := List.pairwise_map.mp m.constants.sorted
  rw [hsplit, List.pairwise_append, List.pairwise_cons] at hsorted
  refine ⟨name, rfl, ⟨t, Table.find?_eq_some_iff.mpr (by simp [hsplit]), hnonFinite⟩, ?_⟩
  intro other u hother hu
  have hmem := Table.find?_eq_some_iff.mp hother
  rw [hsplit, List.mem_append, List.mem_cons] at hmem
  rcases hmem with hmem | heq | hmem
  · obtain ⟨c, hc⟩ := hbefore _ hmem
    obtain ⟨rfl, hfinite⟩ := freeze_eq_ok hc
    exact absurd hfinite hu
  · exact (Prod.mk.inj heq).1 ▸ String.le_refl name
  · exact String.not_lt.mp fun hlt =>
      String.lt_irrefl other (String.lt_trans hlt (hsorted.2.1.1 _ hmem))

theorem finite_of_freeze {constants : List FrozenConstant}
    (h : m.constants.entries.mapM freeze = .ok constants) :
    ∀ entry ∈ m.constants.entries, entry.2.Finite := by
  intro entry hentry
  obtain ⟨c, hc⟩ := mapM_step h entry hentry
  obtain ⟨rfl, hfinite⟩ := freeze_eq_ok hc
  exact hfinite

/-- What a run refuses a capture refuses, in its own words. -/
theorem capture_of_refused {refusal : ExecError} (h : m.run .double inputs = .error refusal) :
    ∃ e, capture m inputs = .error e ∧ Restates m inputs refusal e := by
  have hevaluate := Model.evaluate_of_run h
  cases Model.refuses_of_evaluate hevaluate with
  | inputCount hcount =>
    refine ⟨_, ?_, .inputCount⟩
    unfold capture
    rw [if_pos (Ne.symm hcount)]
    rfl
  | inputShape hcount hfirst =>
    refine ⟨_, ?_, .inputShape hfirst⟩
    obtain ⟨before, after, hsplit, rfl, hbefore, hshape⟩ := hfirst
    unfold capture
    rw [if_neg (not_not_intro hcount.symm), hsplit, checkInputs_of_mismatch hbefore hshape,
      Nat.zero_add]
    rfl
  | kernel hcount hshapes hnode =>
    rw [capture_of_shapes hcount hshapes]
    cases hconstants : m.constants.entries.mapM freeze with
    | error e =>
      obtain ⟨name, rfl, hleast⟩ := leastNonFinite_of_freeze hconstants
      exact ⟨_, rfl, .nonFinite hleast⟩
    | ok constants =>
      refine ⟨_, ?_, .kernel (finite_of_freeze hconstants)⟩
      rw [ok_bind, Model.trace, hevaluate]
      rfl

/-- A capture succeeds exactly when a run does and all constants are finite. Where a run is refused
the capture restates why, unless it finds a constant at fault before a kernel; and where the run
succeeds such a constant alone stands in the way. -/
theorem capture_iff_run (m : Model) (inputs : List (Tensor Float)) :
    ((∃ a, capture m inputs = .ok a) ↔
      (∃ results, m.run .double inputs = .ok results) ∧
        ∀ entry ∈ m.constants.entries, entry.2.Finite) ∧
    (∀ refusal, m.run .double inputs = .error refusal →
      ∃ e, capture m inputs = .error e ∧ Restates m inputs refusal e) ∧
    ∀ results e, m.run .double inputs = .ok results → capture m inputs = .error e →
      ∃ name, e = .nonFinite name ∧ m.constants.LeastNonFinite name := by
  refine ⟨⟨?_, ?_⟩, fun refusal => capture_of_refused, ?_⟩
  · rintro ⟨a, ha⟩
    obtain ⟨-, -, constants, shapes, hconstants, htrace, -⟩ := capture_eq_ok ha
    obtain ⟨values, hvalues, -⟩ := bind_eq_ok.mp htrace
    exact ⟨Model.run_of_evaluate hvalues, finite_of_freeze hconstants⟩
  · rintro ⟨⟨results, hrun⟩, hfinite⟩
    exact exists_capture hrun hfinite
  · intro results e hrun hcapture
    obtain ⟨values, hvalues, -⟩ := bind_eq_ok.mp hrun
    obtain ⟨hdeclared, -⟩ := Model.evaluate_eq_ok_iff.mp hvalues
    obtain ⟨hcount, hshapes⟩ := List.forall₂_iff_zip.mp hdeclared
    rw [capture_of_shapes hcount.symm fun _ hpair => hshapes hpair] at hcapture
    rcases bind_eq_error.mp hcapture with hconstants | ⟨constants, -, htrace⟩
    · exact leastNonFinite_of_freeze hconstants
    · rw [Model.trace, hvalues] at htrace
      cases htrace

end Artifact

end TensorParity
