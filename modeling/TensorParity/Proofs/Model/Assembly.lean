import TensorParity.Proofs.Model.Check

/-!
What makes a model of its parts, and which fault is named when nothing does. The check of a model is
one scan of demands, each met or not by the names that are defined before it; the fault is that of
the first demand that is not met. A draft collects the parts, and adds one demand of its own: no
name of a constant may be registered twice.
-/
namespace TensorParity

namespace Model

/-- One thing that a scan of a model's parts asks for. -/
inductive Demand where
  | fresh (name : String)
  | operand (node name : String)
  | someOutput (outputs : List String)
  | output (name : String)

namespace Demand

/-- The name that is defined from here on. -/
def defines : Demand → Option String
  | fresh name => some name
  | _ => none

/-- Whether the names defined so far meet a demand. -/
def Met (defined : List String) : Demand → Prop
  | fresh name => name ∉ defined
  | operand _ name | output name => name ∈ defined
  | someOutput outputs => outputs ≠ []

/-- What is reported if a demand is not met. -/
def fault : Demand → GraphError
  | fresh name => .duplicateValue name
  | operand node name => .undefinedValue node name
  | someOutput _ => .noOutputs
  | output name => .unknownOutput name

instance (defined : List String) (d : Demand) : Decidable (d.Met defined) :=
  match d with
  | fresh name => inferInstanceAs (Decidable (name ∉ defined))
  | operand _ name | output name => inferInstanceAs (Decidable (name ∈ defined))
  | someOutput outputs => inferInstanceAs (Decidable (outputs ≠ []))

/-- The names that demands define, in order. -/
def names (demands : List Demand) : List String := demands.filterMap defines

/-- Each demand is met by the names that are defined before it. -/
def AllMet (demands : List Demand) : Prop :=
  ∀ before d after, demands = before ++ d :: after → d.Met (names before)

/-- A demand that is not met, after others that all are. -/
def FirstUnmet (demands : List Demand) (d : Demand) : Prop :=
  ∃ before after, demands = before ++ d :: after ∧ AllMet before ∧ ¬d.Met (names before)

/-- One step of a scan. -/
def meet (defined : List String) (d : Demand) : Except GraphError (List String) :=
  if d.Met defined then .ok (d.defines.toList ++ defined) else .error d.fault

variable {demands before after : List Demand} {d : Demand} {defined defined' : List String}

theorem met_congr (h : ∀ name, name ∈ defined ↔ name ∈ defined') :
    d.Met defined ↔ d.Met defined' := by
  cases d with
  | fresh name => exact not_congr (h name)
  | operand _ name | output name => exact h name
  | someOutput outputs => exact Iff.rfl

theorem names_append_singleton (demands : List Demand) (d : Demand) :
    names (demands ++ [d]) = names demands ++ d.defines.toList := by
  rw [names, List.filterMap_append]
  cases d <;> rfl

theorem allMet_append_singleton :
    AllMet (demands ++ [d]) ↔ AllMet demands ∧ d.Met (names demands) := by
  constructor
  · intro h
    refine ⟨?_, h demands d [] rfl⟩
    rintro before e after rfl
    exact h before e (after ++ [d]) (by simp)
  · rintro ⟨hearlier, hlast⟩ before e after hsplit
    rcases List.eq_nil_or_concat after with rfl | ⟨after, last, rfl⟩
    · obtain ⟨rfl, hsame⟩ := List.append_inj' hsplit rfl
      obtain rfl : d = e := List.head_eq_of_cons_eq hsame
      exact hlast
    · have hshort : demands ++ [d] = (before ++ e :: after) ++ [last] := by
        rw [hsplit]
        simp
      obtain ⟨rfl, -⟩ := List.append_inj' hshort rfl
      exact hearlier before e after rfl

theorem meet_eq_ok_iff : meet defined d = .ok defined' ↔
    d.Met defined ∧ defined' = d.defines.toList ++ defined := by
  unfold meet
  split <;> simp_all [eq_comm]

theorem meet_eq_error_iff {e : GraphError} :
    meet defined d = .error e ↔ ¬d.Met defined ∧ d.fault = e := by
  unfold meet
  split <;> simp_all

/-- A scan gets to the end exactly when every demand is met, and then holds the names defined. -/
theorem foldlM_meet_eq_ok_iff : demands.foldlM meet [] = .ok defined ↔
    AllMet demands ∧ defined = (names demands).reverse := by
  induction demands using List.reverseRecOn generalizing defined with
  | nil =>
    have hnone : AllMet [] := by
      intro before d after hsplit
      simp at hsplit
    simp [hnone, names, pure, Except.pure, eq_comm]
  | append_singleton demands d ih =>
    have hmembers (name : String) : name ∈ (names demands).reverse ↔ name ∈ names demands :=
      List.mem_reverse
    rw [List.foldlM_append, bind_eq_ok, allMet_append_singleton, names_append_singleton,
      List.reverse_append]
    simp only [List.foldlM_cons, List.foldlM_nil, bind_eq_ok, meet_eq_ok_iff, ih]
    have hown : d.defines.toList.reverse = d.defines.toList := by
      cases d <;> rfl
    rw [hown]
    constructor
    · rintro ⟨_, ⟨hall, rfl⟩, _, ⟨hmet, rfl⟩, hend⟩
      exact ⟨⟨hall, (met_congr hmembers).mp hmet⟩, (Except.ok.inj hend).symm⟩
    · rintro ⟨⟨hall, hmet⟩, rfl⟩
      exact ⟨_, ⟨hall, rfl⟩, _, ⟨(met_congr hmembers).mpr hmet, rfl⟩, rfl⟩

/-- A scan stops at the first demand that is not met, and reports its fault. -/
theorem foldlM_meet_eq_error_iff {e : GraphError} : demands.foldlM meet [] = .error e ↔
    ∃ d, FirstUnmet demands d ∧ d.fault = e := by
  rw [foldlM_eq_error_iff]
  simp only [foldlM_meet_eq_ok_iff, meet_eq_error_iff]
  have hmembers (before : List Demand) (name : String) :
      name ∈ (names before).reverse ↔ name ∈ names before := List.mem_reverse
  constructor
  · rintro ⟨before, d, after, _, hsplit, ⟨hall, rfl⟩, hunmet, hfault⟩
    exact ⟨d, ⟨before, after, hsplit, hall, fun hmet =>
      hunmet ((met_congr (hmembers before)).mpr hmet)⟩, hfault⟩
  · rintro ⟨d, ⟨before, after, hsplit, hall, hunmet⟩, hfault⟩
    exact ⟨before, d, after, _, hsplit, ⟨hall, rfl⟩, fun hmet =>
      hunmet ((met_congr (hmembers before)).mp hmet), hfault⟩

/-- A scan of names that have to be known stops at the first that is not. -/
theorem foldlM_meet_known {f : String → Demand}
    (hmet : ∀ name, (f name).Met defined ↔ name ∈ defined) (hnone : ∀ name, (f name).defines = none)
    (known : List String) : (known.map f).foldlM meet defined =
      match known.find? (· ∉ defined) with
      | some name => .error (f name).fault
      | none => .ok defined := by
  induction known with
  | nil => rfl
  | cons name known ih =>
    rw [List.map_cons, List.foldlM_cons, List.find?_cons, meet, hnone]
    by_cases hmem : name ∈ defined
    · rw [if_pos ((hmet name).mpr hmem), decide_eq_false (not_not.mpr hmem), ok_bind]
      exact ih
    · rw [if_neg (fun h => hmem ((hmet name).mp h)), decide_eq_true hmem, error_bind]

theorem foldlM_meet_fresh (defined : List String) (fresh : List String) :
    (fresh.map Demand.fresh).foldlM meet defined = fresh.foldlM define defined := by
  rw [List.foldlM_map]
  congr 1
  funext defined name
  unfold meet define
  exact ite_not _ _ _

end Demand

open Demand

/-- A node asks for its operands, in order, and then for a new name. -/
def nodeDemands (node : Node) : List Demand :=
  node.op.operands.map (.operand node.output) ++ [.fresh node.output]

/-- Inputs and constants come first, then the nodes, then the outputs. -/
def demands (inputs constants : List String) (nodes : List Node) (outputs : List String) :
    List Demand :=
  (inputs ++ constants).map .fresh ++ nodes.flatMap nodeDemands ++
    .someOutput outputs :: outputs.map .output

variable {inputs constants outputs : List String} {nodes : List Node} {defined : List String}

theorem foldlM_meet_node (node : Node) :
    (nodeDemands node).foldlM meet defined = defineNode defined node := by
  rw [nodeDemands, List.foldlM_append,
    foldlM_meet_known (f := .operand node.output) (fun _ => Iff.rfl) (fun _ => rfl), defineNode]
  cases node.op.operands.find? (· ∉ defined) with
  | some name => rfl
  | none => exact (foldlM_meet_fresh defined [node.output]).trans (bind_pure _)

theorem foldlM_meet_nodes :
    (nodes.flatMap nodeDemands).foldlM meet defined = nodes.foldlM defineNode defined := by
  induction nodes generalizing defined with
  | nil => rfl
  | cons node nodes ih =>
    rw [List.flatMap_cons, List.foldlM_append, foldlM_meet_node, List.foldlM_cons]
    simp only [ih]

/-- The check of a model is a scan of what its parts demand. -/
theorem check_eq_scan : check inputs constants nodes outputs =
    (demands inputs constants nodes outputs).foldlM meet [] >>= fun _ => .ok () := by
  rw [demands, List.foldlM_append, List.foldlM_append, foldlM_meet_fresh, check, bind_assoc,
    bind_assoc]
  congr 1
  funext defined
  rw [foldlM_meet_nodes]
  congr 1
  funext defined
  cases outputs with
  | nil => rfl
  | cons first rest =>
    have hsome : meet defined (.someOutput (first :: rest)) = .ok defined :=
      if_pos (List.cons_ne_nil _ _)
    rw [List.foldlM_cons, hsome, ok_bind,
      foldlM_meet_known (f := .output) (fun _ => Iff.rfl) (fun _ => rfl)]
    change (match (first :: rest).find? (· ∉ defined) with
      | some name => Except.error (GraphError.unknownOutput name)
      | none => Except.ok ()) = _
    cases (first :: rest).find? (· ∉ defined) <;> rfl

/-- Names of inputs, constants and results that are all different, operands that come before the
node that reads them, and outputs that exist. -/
structure WellFormed (inputs constants : List String) (nodes : List Node)
    (outputs : List String) : Prop where
  distinct : (inputs ++ constants ++ nodes.map (·.output)).Nodup
  earlier : ∀ before node after, nodes = before ++ node :: after →
    ∀ name ∈ node.op.operands, name ∈ inputs ++ constants ++ before.map (·.output)
  someOutput : outputs ≠ []
  known : ∀ name ∈ outputs, name ∈ inputs ++ constants ++ nodes.map (·.output)

/-- Nodes in order, by the place of each among them. -/
theorem ordered_iff : Ordered defined nodes ↔
    (∀ before node after, nodes = before ++ node :: after →
      ∀ name ∈ node.op.operands, name ∈ defined ∨ name ∈ before.map (·.output)) ∧
    (nodes.map (·.output)).Nodup ∧ ∀ name ∈ nodes.map (·.output), name ∉ defined := by
  induction nodes generalizing defined with
  | nil => simp [Ordered]
  | cons node rest ih =>
    rw [Ordered, ih, List.map_cons, List.nodup_cons, List.forall_mem_cons]
    constructor
    · rintro ⟨hread, hnew, hearlier, hdistinct, hothers⟩
      refine ⟨?_, ⟨fun hmem => hothers _ hmem List.mem_cons_self, hdistinct⟩, hnew,
        fun name hname hmem => hothers name hname (List.mem_cons_of_mem _ hmem)⟩
      intro before other after hsplit name hname
      cases before with
      | nil =>
        obtain ⟨rfl, -⟩ := List.cons.inj hsplit
        exact .inl (hread name hname)
      | cons first before =>
        obtain ⟨rfl, rfl⟩ := List.cons.inj hsplit
        rcases hearlier before other after rfl name hname with hmem | hmem
        · rcases List.mem_cons.mp hmem with rfl | hmem
          · exact .inr List.mem_cons_self
          · exact .inl hmem
        · exact .inr (List.mem_cons_of_mem _ hmem)
    · rintro ⟨hearlier, ⟨hfresh, hdistinct⟩, hnew, hothers⟩
      refine ⟨?_, hnew, ?_, hdistinct, ?_⟩
      · intro name hname
        simpa using hearlier [] node rest rfl name hname
      · intro before other after hsplit name hname
        have hmem := hearlier (node :: before) other after (by rw [hsplit]; rfl) name hname
        rw [List.map_cons, List.mem_cons] at hmem
        rw [List.mem_cons]
        tauto
      · intro name hname hmem
        rcases List.mem_cons.mp hmem with rfl | hmem
        · exact hfresh hname
        · exact hothers name hname hmem

/-- The check accepts what is well formed. -/
theorem check_eq_ok_iff_wellFormed :
    check inputs constants nodes outputs = .ok () ↔ WellFormed inputs constants nodes outputs := by
  rw [check_eq_ok_iff, ordered_iff]
  simp only [List.mem_reverse]
  constructor
  · rintro ⟨hdistinct, ⟨hearlier, hresults, hothers⟩, hsome, hknown⟩
    refine ⟨hdistinct.append hresults fun name hname hresult => hothers name hresult hname, ?_,
      hsome, hknown⟩
    intro before node after hsplit name hname
    exact List.mem_append.mpr (hearlier before node after hsplit name hname)
  · rintro ⟨hdistinct, hearlier, hsome, hknown⟩
    obtain ⟨hnames, hresults, hdisjoint⟩ := List.nodup_append'.mp hdistinct
    refine ⟨hnames, ⟨?_, hresults, fun name hresult hname => hdisjoint hname hresult⟩, hsome,
      hknown⟩
    intro before node after hsplit name hname
    exact List.mem_append.mp (hearlier before node after hsplit name hname)

theorem check_eq_error_iff {e : GraphError} : check inputs constants nodes outputs = .error e ↔
    ∃ d, FirstUnmet (demands inputs constants nodes outputs) d ∧ d.fault = e := by
  rw [check_eq_scan, bind_eq_error, foldlM_meet_eq_error_iff]
  simp

theorem exists_ofParts_iff {name : String} {inputs : List InputDecl}
    {constants : Table (Tensor Float)} :
    (∃ m, ofParts name inputs constants nodes outputs = .ok m) ↔
      WellFormed (inputs.map (·.name)) constants.keys nodes outputs := by
  rw [← check_eq_ok_iff_wellFormed, ofParts]
  split
  · rename_i hcheck
    exact iff_of_true ⟨_, rfl⟩ hcheck
  · rename_i e hcheck
    simp [hcheck]

theorem ofParts_eq_error_iff {name : String} {inputs : List InputDecl}
    {constants : Table (Tensor Float)} {e : GraphError} :
    ofParts name inputs constants nodes outputs = .error e ↔
      ∃ d, FirstUnmet (demands (inputs.map (·.name)) constants.keys nodes outputs) d ∧
        d.fault = e := by
  rw [← check_eq_error_iff, ofParts]
  split
  · rename_i hcheck
    simp [hcheck]
  · rename_i fault hcheck
    rw [hcheck, Except.error.injEq, Except.error.injEq]

end Model

namespace Draft

section Constants

variable {α ι : Type} (key : ι → String) (value : ι → α) {items : List ι} {t : Table α}

theorem insertNew_eq_ok_iff {name : String} {x : α} {t' : Table α} :
    insertNew t name x = .ok t' ↔ name ∉ t.keys ∧ t' = t.insert name x := by
  unfold insertNew
  split <;> simp_all [eq_comm]

theorem insertNew_eq_error_iff {name : String} {x : α} {e : GraphError} :
    insertNew t name x = .error e ↔ name ∈ t.keys ∧ .duplicateValue name = e := by
  unfold insertNew
  split <;> simp_all

theorem mem_keys_inserted (items : List ι) (name : String) :
    name ∈ (items.foldl (fun (t : Table α) c => t.insert (key c) (value c)) .empty).keys ↔
      name ∈ items.map key := by
  rw [Table.mem_keys_foldl_insert]
  exact or_iff_left List.not_mem_nil

/-- Constants make a table exactly when no name is registered twice. -/
theorem foldlM_insertNew_eq_ok_iff :
    items.foldlM (fun t c => insertNew t (key c) (value c)) .empty = .ok t ↔
      (items.map key).Nodup ∧ t = items.foldl (fun t c => t.insert (key c) (value c)) .empty := by
  induction items using List.reverseRecOn generalizing t with
  | nil => simp [pure, Except.pure, eq_comm]
  | append_singleton items c ih =>
    have hkeys := mem_keys_inserted key value items (key c)
    rw [List.foldlM_append, bind_eq_ok, List.map_append, List.map_singleton, List.foldl_append,
      ← List.concat_eq_append, List.nodup_concat]
    simp only [ih, List.foldlM_cons, List.foldlM_nil, bind_eq_ok, insertNew_eq_ok_iff]
    constructor
    · rintro ⟨_, ⟨hdistinct, rfl⟩, _, ⟨hnew, rfl⟩, hend⟩
      exact ⟨⟨fun hmem => hnew (hkeys.mpr hmem), hdistinct⟩, (Except.ok.inj hend).symm⟩
    · rintro ⟨⟨hnew, hdistinct⟩, rfl⟩
      exact ⟨_, ⟨hdistinct, rfl⟩, _, ⟨fun hmem => hnew (hkeys.mp hmem), rfl⟩, rfl⟩

end Constants

/-- One call on a draft. -/
inductive Call where
  | input (name : String) (shape : Shape)
  | constant (name : String) (tensor : Tensor Float)
  | node (output : String) (op : Op)
  | output (name : String)

namespace Call

def input? : Call → Option InputDecl
  | input name shape => some ⟨name, shape⟩
  | _ => none

def constant? : Call → Option (String × Tensor Float)
  | constant name tensor => some (name, tensor)
  | _ => none

def node? : Call → Option Node
  | node name op => some ⟨name, op⟩
  | _ => none

def output? : Call → Option String
  | output name => some name
  | _ => none

end Call

/-- A draft after one more call. -/
def call (d : Draft) : Call → Draft
  | .input name shape => d.input name shape
  | .constant name tensor => d.constant name tensor
  | .node output op => d.node output op
  | .output name => d.output name

/-- A draft after these calls. -/
def ofCalls (name : String) (calls : List Call) : Draft := calls.foldl call { name }

variable {d : Draft} {name : String} {calls : List Call}

/-- Calls add to what has been collected, each kind in its order. -/
theorem foldl_call : calls.foldl call d = ⟨d.name, d.inputs ++ calls.filterMap Call.input?,
    d.constants ++ calls.filterMap Call.constant?, d.nodes ++ calls.filterMap Call.node?,
    d.outputs ++ calls.filterMap Call.output?⟩ := by
  induction calls generalizing d with
  | nil => simp
  | cons c calls ih =>
    rw [List.foldl_cons, ih]
    cases c <;>
      simp [call, Draft.input, Draft.constant, Draft.node, Draft.output, List.filterMap_cons,
        Call.input?, Call.constant?, Call.node?, Call.output?]

theorem ofCalls_eq : ofCalls name calls = ⟨name, calls.filterMap Call.input?,
    calls.filterMap Call.constant?, calls.filterMap Call.node?, calls.filterMap Call.output?⟩ :=
  foldl_call

theorem finish_eq_bind : d.finish =
    d.constants.foldlM (fun t c => insertNew t c.1 c.2) .empty >>= fun constants =>
      Model.ofParts d.name d.inputs constants d.nodes d.outputs := rfl

/-- Constants with different names leave the check of the parts to do. -/
theorem finish_eq_ofParts (hdistinct : (d.constants.map (·.1)).Nodup) :
    d.finish = Model.ofParts d.name d.inputs (Table.ofList d.constants) d.nodes d.outputs := by
  have htable := (foldlM_insertNew_eq_ok_iff Prod.fst Prod.snd).mpr ⟨hdistinct, rfl⟩
  rw [finish_eq_bind, htable]
  rfl

/-- The first constant that has the name of an earlier one is what a draft is refused for. -/
theorem finish_eq_duplicate (hrepeated : ¬(d.constants.map (·.1)).Nodup) :
    ∃ before again after, d.constants = before ++ again :: after ∧ (before.map (·.1)).Nodup ∧
      again.1 ∈ before.map (·.1) ∧ d.finish = .error (.duplicateValue again.1) := by
  cases htable : d.constants.foldlM (fun t c => insertNew t c.1 c.2) .empty with
  | ok t => exact absurd ((foldlM_insertNew_eq_ok_iff Prod.fst Prod.snd).mp htable).1 hrepeated
  | error e =>
    obtain ⟨before, again, after, _, hsplit, hbefore, hagain⟩ := foldlM_eq_error_iff.mp htable
    obtain ⟨hdistinct, rfl⟩ := (foldlM_insertNew_eq_ok_iff Prod.fst Prod.snd).mp hbefore
    obtain ⟨hmem, rfl⟩ := insertNew_eq_error_iff.mp hagain
    refine ⟨before, again, after, hsplit, hdistinct, (mem_keys_inserted _ _ _ _).mp hmem, ?_⟩
    rw [finish_eq_bind, htable, error_bind]

theorem exists_finish_iff : (∃ m, d.finish = .ok m) ↔ (d.constants.map (·.1)).Nodup ∧
    Model.WellFormed (d.inputs.map (·.name)) (Table.ofList d.constants).keys d.nodes d.outputs := by
  by_cases hdistinct : (d.constants.map (·.1)).Nodup
  · rw [finish_eq_ofParts hdistinct, Model.exists_ofParts_iff, and_iff_right hdistinct]
  · obtain ⟨_, _, _, -, -, -, hrefused⟩ := finish_eq_duplicate hdistinct
    simp [hrefused, hdistinct]

end Draft

namespace Model

/-- Parts make a model, which has them, exactly when they are well formed; if they are not, the
fault is that of the first demand of the scan that is not met. Calls on a draft collect the parts in
their order, and finishing it makes the model of the parts if no name of a constant is registered
twice; otherwise the first name that is gets the blame. -/
theorem ofParts_and_finish_scan :
    (∀ name inputs constants nodes outputs,
      ((∃ m, ofParts name inputs constants nodes outputs = .ok m) ↔
        WellFormed (inputs.map (·.name)) constants.keys nodes outputs) ∧
      (∀ m, ofParts name inputs constants nodes outputs = .ok m →
        m.name = name ∧ m.inputs = inputs ∧ m.constants = constants ∧ m.nodes = nodes ∧
          m.outputs = outputs) ∧
      ∀ e, ofParts name inputs constants nodes outputs = .error e ↔
        ∃ d, Demand.FirstUnmet (demands (inputs.map (·.name)) constants.keys nodes outputs) d ∧
          d.fault = e) ∧
    ∀ name calls,
      let inputs := calls.filterMap Draft.Call.input?
      let constants := calls.filterMap Draft.Call.constant?
      let nodes := calls.filterMap Draft.Call.node?
      let outputs := calls.filterMap Draft.Call.output?
      let finished := (Draft.ofCalls name calls).finish
      ((∃ m, finished = .ok m) ↔ (constants.map (·.1)).Nodup ∧
        WellFormed (inputs.map (·.name)) (Table.ofList constants).keys nodes outputs) ∧
      ((constants.map (·.1)).Nodup →
        finished = ofParts name inputs (Table.ofList constants) nodes outputs) ∧
      (¬(constants.map (·.1)).Nodup → ∃ before again after,
        constants = before ++ again :: after ∧ (before.map (·.1)).Nodup ∧
          again.1 ∈ before.map (·.1) ∧ finished = .error (.duplicateValue again.1)) := by
  refine ⟨fun name inputs constants nodes outputs => ⟨exists_ofParts_iff, fun m => ofParts_eq_ok,
    fun e => ofParts_eq_error_iff⟩, ?_⟩
  intro name calls inputs constants nodes outputs finished
  let d : Draft := ⟨name, inputs, constants, nodes, outputs⟩
  have hfinished : finished = d.finish := congrArg Draft.finish Draft.ofCalls_eq
  rw [hfinished]
  exact ⟨Draft.exists_finish_iff (d := d), Draft.finish_eq_ofParts (d := d),
    Draft.finish_eq_duplicate (d := d)⟩

end Model

end TensorParity
