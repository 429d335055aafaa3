import TensorParity.Proofs.Model.Order

/-!
What the check of a model accepts. Names are defined once, a node reads names that are defined by
then, and outputs name what is defined at the end.
-/
namespace TensorParity

namespace Model

variable {defined after : List String} {nodes : List Node}

theorem define_eq_ok_iff {name : String} :
    define defined name = .ok after ↔ name ∉ defined ∧ after = name :: defined := by
  unfold define
  split
  · rename_i hmem
    simp [hmem]
  · rename_i hnew
    simp [hnew, eq_comm]

theorem foldlM_define_eq_ok_iff {names : List String} :
    names.foldlM define defined = .ok after ↔
      names.Nodup ∧ (∀ name ∈ names, name ∉ defined) ∧ after = names.reverse ++ defined := by
  induction names generalizing defined with
  | nil => simp [pure, Except.pure, eq_comm]
  | cons name names ih =>
    rw [List.foldlM_cons, bind_eq_ok, List.nodup_cons, List.forall_mem_cons]
    simp only [define_eq_ok_iff, ih, List.reverse_cons, List.append_assoc, List.singleton_append]
    constructor
    · rintro ⟨_, ⟨hnew, rfl⟩, hdistinct, hothers, rfl⟩
      have hname : name ∉ names := fun hmem => by simpa using hothers name hmem
      exact ⟨⟨hname, hdistinct⟩, ⟨hnew, fun other hother hmem =>
        hothers other hother (List.mem_cons_of_mem _ hmem)⟩, rfl⟩
    · rintro ⟨⟨hname, hdistinct⟩, ⟨hnew, hothers⟩, rfl⟩
      refine ⟨_, ⟨hnew, rfl⟩, hdistinct, fun other hother hmem => ?_, rfl⟩
      rcases List.mem_cons.mp hmem with rfl | hmem
      · exact hname hother
      · exact hothers other hother hmem

theorem defineNode_eq_ok_iff {node : Node} : defineNode defined node = .ok after ↔
    (∀ name ∈ node.op.operands, name ∈ defined) ∧ node.output ∉ defined ∧
      after = node.output :: defined := by
  unfold defineNode
  split
  · rename_i name hfound
    have hread : name ∈ node.op.operands := List.mem_of_find?_eq_some hfound
    have hmissing : name ∉ defined := by simpa using List.find?_some hfound
    constructor
    · intro h
      cases h
    · rintro ⟨hall, -⟩
      exact absurd (hall name hread) hmissing
  · rename_i hread
    rw [define_eq_ok_iff, iff_and_self]
    intro _ name hname
    simpa using List.find?_eq_none.mp hread name hname

theorem foldlM_defineNode_eq_ok_iff : nodes.foldlM defineNode defined = .ok after ↔
    Ordered defined nodes ∧ after = (nodes.map (·.output)).reverse ++ defined := by
  induction nodes generalizing defined with
  | nil => simp [Ordered, pure, Except.pure, eq_comm]
  | cons node nodes ih =>
    rw [List.foldlM_cons, bind_eq_ok]
    simp only [defineNode_eq_ok_iff, ih, Ordered, List.map_cons, List.reverse_cons,
      List.append_assoc, List.singleton_append]
    constructor
    · rintro ⟨_, ⟨hread, hnew, rfl⟩, hordered, rfl⟩
      exact ⟨⟨hread, hnew, hordered⟩, rfl⟩
    · rintro ⟨⟨hread, hnew, hordered⟩, rfl⟩
      exact ⟨_, ⟨hread, hnew, rfl⟩, hordered, rfl⟩

/-- The outputs that the last part of a check accepts. -/
theorem outputs_eq_ok_iff {outputs : List String} :
    (if outputs.isEmpty then Except.error GraphError.noOutputs else
        match outputs.find? (· ∉ defined) with
        | some name => Except.error (GraphError.unknownOutput name)
        | none => pure ()) = .ok () ↔
      outputs ≠ [] ∧ ∀ name ∈ outputs, name ∈ defined := by
  cases outputs with
  | nil => simp
  | cons first rest =>
    rw [if_neg (by simp)]
    cases hfound : (first :: rest).find? (· ∉ defined) with
    | some name =>
      have hmem : name ∈ first :: rest := List.mem_of_find?_eq_some hfound
      have hmissing : name ∉ defined := by simpa using List.find?_some hfound
      constructor
      · intro h
        cases h
      · rintro ⟨-, hall⟩
        exact absurd (hall name hmem) hmissing
    | none =>
      refine iff_of_true rfl ⟨List.cons_ne_nil _ _, fun name hname => ?_⟩
      simpa using List.find?_eq_none.mp hfound name hname

/-- The check accepts names that are defined once and before they are read, and outputs that are
defined at all. -/
theorem check_eq_ok_iff {inputs constants outputs : List String} :
    check inputs constants nodes outputs = .ok () ↔
      (inputs ++ constants).Nodup ∧ Ordered (inputs ++ constants).reverse nodes ∧ outputs ≠ [] ∧
        ∀ name ∈ outputs, name ∈ inputs ++ constants ++ nodes.map (·.output) := by
  have hnames (name : String) :
      name ∈ (nodes.map (·.output)).reverse ++ (inputs ++ constants).reverse ↔
        name ∈ inputs ++ constants ++ nodes.map (·.output) := by
    simp only [List.mem_append, List.mem_reverse]
    exact or_comm
  unfold check
  simp only [bind_eq_ok, foldlM_define_eq_ok_iff, foldlM_defineNode_eq_ok_iff, error_bind]
  constructor
  · rintro ⟨_, ⟨hdistinct, -, rfl⟩, _, ⟨hordered, rfl⟩, h⟩
    rw [List.append_nil] at hordered h
    obtain ⟨hsome, hall⟩ := outputs_eq_ok_iff.mp h
    exact ⟨hdistinct, hordered, hsome, fun name hname => (hnames name).mp (hall name hname)⟩
  · rintro ⟨hdistinct, hordered, hsome, hall⟩
    refine ⟨_, ⟨hdistinct, by simp, rfl⟩, _, ⟨by rwa [List.append_nil], rfl⟩, ?_⟩
    rw [List.append_nil]
    exact outputs_eq_ok_iff.mpr ⟨hsome, fun name hname => (hnames name).mpr (hall name hname)⟩

theorem Ordered.nodup (h : Ordered defined nodes) : (nodes.map (·.output)).Nodup := by
  induction nodes generalizing defined with
  | nil => exact .nil
  | cons node nodes ih =>
    obtain ⟨-, -, hrest⟩ := h
    rw [List.map_cons, List.nodup_cons]
    refine ⟨fun hmem => ?_, ih hrest⟩
    obtain ⟨other, hother, heq⟩ := List.mem_map.mp hmem
    exact hrest.output_notMem hother (heq ▸ List.mem_cons_self)

/-- No two of a model's inputs, constants and nodes have one name. -/
theorem nodup_names (m : Model) :
    (m.inputs.map (·.name) ++ m.constants.keys ++ m.nodes.map (·.output)).Nodup := by
  obtain ⟨hdistinct, hordered, -⟩ := check_eq_ok_iff.mp m.valid
  refine hdistinct.append hordered.nodup fun name hname hnode => ?_
  obtain ⟨node, hmem, rfl⟩ := List.mem_map.mp hnode
  exact hordered.output_notMem hmem (List.mem_reverse.mpr hname)

end Model

end TensorParity
