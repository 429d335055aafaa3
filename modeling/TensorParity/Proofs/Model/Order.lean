import TensorParity.Proofs.Model.Run
import TensorParity.Scenario.Builtin

/-!
The order of nodes. Every name is defined once, before it is read, so what a run computes is the one
solution of the equations that the nodes state, in whatever order they are listed.
-/
namespace TensorParity

namespace Model

/-- Every node reads names that are defined by then, and defines a new one. -/
def Ordered : List String → List Node → Prop
  | _, [] => True
  | defined, node :: rest =>
    (∀ name ∈ node.op.operands, name ∈ defined) ∧ node.output ∉ defined ∧
      Ordered (node.output :: defined) rest

/-- Values that solve the equations of some nodes: each result is what its node computes from the
same values, and no other name has changed. -/
structure Solves (m : Model) (p : Precision) (start : Values) (nodes : List Node)
    (values : Values) : Prop where
  keeps : ∀ name, (∀ node ∈ nodes, node.output ≠ name) → values.find? name = start.find? name
  computes : ∀ node ∈ nodes,
    ∃ t, m.apply p values node = .ok t ∧ values.find? node.output = some (p.quantize t)

variable {m m' : Model} {p : Precision} {defined : List String} {nodes nodes' : List Node}
  {start values : Values}

theorem ordered_of_defineNodes {after : List String}
    (h : nodes.foldlM defineNode defined = .ok after) : Ordered defined nodes := by
  induction nodes generalizing defined with
  | nil => trivial
  | cons node rest ih =>
    rw [List.foldlM_cons] at h
    obtain ⟨next, hnode, hrest⟩ := bind_eq_ok.mp h
    unfold defineNode at hnode
    split at hnode
    · cases hnode
    · rename_i hread
      unfold define at hnode
      split at hnode
      · cases hnode
      · rename_i hnew
        obtain rfl := Except.ok.inj hnode
        refine ⟨fun name hname => ?_, hnew, ih hrest⟩
        simpa using List.find?_eq_none.mp hread name hname

theorem exists_ordered (m : Model) : ∃ defined, Ordered defined m.nodes := by
  obtain ⟨before, -, h⟩ := bind_eq_ok.mp m.valid
  obtain ⟨after, hnodes, -⟩ := bind_eq_ok.mp h
  exact ⟨before, ordered_of_defineNodes hnodes⟩

theorem Ordered.output_notMem (h : Ordered defined nodes) {node : Node} (hnode : node ∈ nodes) :
    node.output ∉ defined := by
  induction nodes generalizing defined with
  | nil => cases hnode
  | cons first rest ih =>
    obtain ⟨-, hnew, hrest⟩ := h
    rcases List.mem_cons.mp hnode with rfl | hnode
    · exact hnew
    · exact fun hmem => ih hrest hnode (List.mem_cons_of_mem _ hmem)

theorem lookup_congr {v w : Values} {name : String} (h : v.find? name = w.find? name) :
    m.lookup p v name = m.lookup p w name := by
  unfold lookup
  rw [h]

theorem apply_first {node : Node} {rest : List Node}
    (hordered : Ordered defined (node :: rest))
    (hkeeps : ∀ name, (∀ other ∈ node :: rest, other.output ≠ name) →
      values.find? name = start.find? name) :
    m.apply p values node = m.apply p start node := by
  apply apply_congr
  intro name hname
  apply lookup_congr
  apply hkeeps
  intro other hother heq
  exact hordered.output_notMem hother (heq ▸ hordered.1 name hname)

theorem solves_nil_iff : Solves m p start [] values ↔ start = values := by
  constructor
  · intro h
    exact Table.eq_of_find? fun name => (h.keeps name (by simp)).symm
  · rintro rfl
    exact ⟨fun _ _ => rfl, by simp⟩

/-- The equations of the first node can be solved before the others: it reads names that no node
of the list defines, and none of the others defines its result again. -/
theorem solves_cons_iff {node : Node} {rest : List Node}
    (hordered : Ordered defined (node :: rest)) :
    Solves m p start (node :: rest) values ↔
      ∃ next, m.step p start node = .ok next ∧ Solves m p next rest values := by
  constructor
  · rintro ⟨hkeeps, hcomputes⟩
    obtain ⟨⟨t, happly, hvalue⟩, hothers⟩ := List.forall_mem_cons.mp hcomputes
    rw [apply_first hordered hkeeps] at happly
    refine ⟨start.insert node.output (p.quantize t), bind_eq_ok.mpr ⟨t, happly, rfl⟩, ?_, hothers⟩
    intro name hname
    rw [Table.find?_insert]
    split
    · rename_i heq
      rw [heq, hvalue]
    · rename_i hne
      exact hkeeps name (List.forall_mem_cons.mpr ⟨fun heq => hne heq.symm, hname⟩)
  · rintro ⟨next, hstep, hkeeps, hcomputes⟩
    obtain ⟨t, happly, rfl⟩ := step_eq_ok hstep
    have hkept : ∀ name, (∀ other ∈ node :: rest, other.output ≠ name) →
        values.find? name = start.find? name := by
      intro name hname
      obtain ⟨hfirst, hothers⟩ := List.forall_mem_cons.mp hname
      rw [hkeeps name hothers, Table.find?_insert, if_neg (Ne.symm hfirst)]
    have hlater : ∀ other ∈ rest, other.output ≠ node.output := by
      intro other hother heq
      exact hordered.2.2.output_notMem hother (heq ▸ List.mem_cons_self)
    refine ⟨hkept, List.forall_mem_cons.mpr ⟨⟨t, ?_, ?_⟩, hcomputes⟩⟩
    · rw [apply_first hordered hkept, happly]
    · rw [hkeeps node.output hlater, Table.find?_insert, if_pos rfl]

/-- Computing nodes in their order solves their equations, and finds every solution. -/
theorem foldlM_step_eq_ok_iff (hordered : Ordered defined nodes) :
    nodes.foldlM (m.step p) start = .ok values ↔ Solves m p start nodes values := by
  induction nodes generalizing defined start with
  | nil =>
    rw [solves_nil_iff]
    constructor
    · exact fun h => Except.ok.inj h
    · exact fun h => congrArg Except.ok h
  | cons node rest ih =>
    rw [List.foldlM_cons, bind_eq_ok, solves_cons_iff hordered]
    simp only [ih hordered.2.2]

/-- Equations have the same solutions in any order, for models with the same constants. -/
theorem Solves.perm (hconstants : m.constants = m'.constants) (hperm : nodes.Perm nodes')
    (h : Solves m p start nodes values) : Solves m' p start nodes' values := by
  have happly (node : Node) : m'.apply p values node = m.apply p values node := by
    apply apply_congr
    intro name _
    simp only [lookup, hconstants]
  constructor
  · intro name hname
    apply h.keeps name
    intro node hnode
    exact hname node (hperm.mem_iff.mp hnode)
  · intro node hnode
    obtain ⟨t, hresult, hvalue⟩ := h.computes node (hperm.mem_iff.mpr hnode)
    exact ⟨t, (happly node).trans hresult, hvalue⟩

theorem evaluate_perm (hinputs : m.inputs = m'.inputs) (hconstants : m.constants = m'.constants)
    (hnodes : m.nodes.Perm m'.nodes) {inputs : List (Tensor Float)}
    (h : m.evaluate p inputs = .ok values) : m'.evaluate p inputs = .ok values := by
  obtain ⟨before, hordered⟩ := m.exists_ordered
  obtain ⟨before', hordered'⟩ := m'.exists_ordered
  rw [evaluate_iff_steps] at h ⊢
  obtain ⟨hcount, bound, hbound, hsteps⟩ := h
  have hsolves := (foldlM_step_eq_ok_iff hordered).mp hsteps
  rw [← hinputs]
  exact ⟨hcount, bound, hbound,
    (foldlM_step_eq_ok_iff hordered').mpr (hsolves.perm hconstants hnodes)⟩

theorem evaluate_perm_iff (hinputs : m.inputs = m'.inputs) (hconstants : m.constants = m'.constants)
    (hnodes : m.nodes.Perm m'.nodes) {inputs : List (Tensor Float)} :
    m.evaluate p inputs = .ok values ↔ m'.evaluate p inputs = .ok values :=
  ⟨evaluate_perm hinputs hconstants hnodes,
    evaluate_perm hinputs.symm hconstants.symm hnodes.symm⟩

/-- Outputs and shapes do not depend on the order in which nodes are listed, as long as every name
is defined before it is read. -/
theorem run_perm {name : String} {decls : List InputDecl} {constants : Table (Tensor Float)}
    {outputs : List String} (h : ofParts name decls constants nodes outputs = .ok m)
    (h' : ofParts name decls constants nodes' outputs = .ok m') (hperm : nodes.Perm nodes')
    (p : Precision) (inputs : List (Tensor Float)) :
    (∀ results, m.run p inputs = .ok results ↔ m'.run p inputs = .ok results) ∧
      (∀ shapes, m.trace p inputs = .ok shapes ↔ m'.trace p inputs = .ok shapes) ∧
      ((∃ results, m.run p inputs = .ok results) → ∃ shapes, m.trace p inputs = .ok shapes) := by
  obtain ⟨-, hdecls, hconstants, hnodes, houtputs⟩ := ofParts_eq_ok h
  obtain ⟨-, hdecls', hconstants', hnodes', houtputs'⟩ := ofParts_eq_ok h'
  have hsame : m.constants = m'.constants := hconstants.trans hconstants'.symm
  have hvalues {values : Values} :
      m.evaluate p inputs = .ok values ↔ m'.evaluate p inputs = .ok values :=
    evaluate_perm_iff (hdecls.trans hdecls'.symm) hsame (by rwa [hnodes, hnodes'])
  have hlookup (values : Values) : m.lookup p values = m'.lookup p values := by
    funext name
    simp only [lookup, hsame]
  refine ⟨fun results => ?_, fun shapes => ?_, ?_⟩
  · simp only [run, bind_eq_ok, hvalues, houtputs, houtputs', hlookup]
  · simp only [trace, bind_eq_ok, hvalues, hsame]
  · rintro ⟨results, hrun⟩
    obtain ⟨values, hevaluate, -⟩ := bind_eq_ok.mp hrun
    exact ⟨_, bind_eq_ok.mpr ⟨values, hevaluate, rfl⟩⟩

/-- Two nodes that do not read each other: an input and a weight lose their mean. -/
def branches : List Node :=
  [⟨"a", .batchNorm "x" "v" "v" none none 0.0⟩, ⟨"b", .batchNorm "w" "v" "v" none none 0.0⟩]

/-- Reads what both branches define. -/
def join : Node := ⟨"c", .conv2d "a" "b" none Scenario.padded⟩

def joined : Model :=
  ⟨"m", [⟨"x", [1, 1, 1, 1]⟩],
    ⟨[("v", ⟨[1], #[4.0], by decide⟩), ("w", ⟨[1, 1, 1, 1], #[8.0], by decide⟩)], by decide⟩,
    branches ++ [join], ["c", "a"], by decide⟩

/-- The same model with its branches in the other order. -/
def joinedOtherwise : Model :=
  { joined with nodes := branches.reverse ++ [join], valid := by decide }

/-- The join, and the first branch alone. -/
def joinedResults : List (Tensor Float) :=
  [⟨[1, 1, 3, 3], #[0.0, 0.0, 0.0, 0.0, 8.0, 0.0, 0.0, 0.0, 0.0], by decide⟩,
    ⟨[1, 1, 1, 1], #[4.0], by decide⟩]

theorem run_joined :
    joined.run .double [⟨[1, 1, 1, 1], #[12.0], by decide⟩] = .ok joinedResults ∧
      joinedOtherwise.run .double [⟨[1, 1, 1, 1], #[12.0], by decide⟩] = .ok joinedResults := by
  have hrun : joined.run .double [⟨[1, 1, 1, 1], #[12.0], by decide⟩] = .ok joinedResults := by
    decide +kernel
  have hperm : joined.nodes.Perm joinedOtherwise.nodes := by decide
  refine ⟨hrun, ?_⟩
  exact ((run_perm (ofParts_parts joined) (ofParts_parts joinedOtherwise) hperm .double _).1 _).mp
    hrun

end Model

end TensorParity
