import TensorParity.Proofs.Model.Check
import TensorParity.Proofs.Model.Shapes

/-!
What a model means: the one solution of its equations. Inputs and constants stand for their tensors
at the precision of the run, and a node for what its kernel makes of the values of its operands. A run
finds the solution whenever there is one, and no name is ever without a value.
-/
namespace TensorParity

/-- The value of an optional operand, where the operand is given. -/
inductive Given (env : Values) : Option String → Option (Tensor Float) → Prop where
  | absent : Given env none none
  | present {name : String} {t : Tensor Float} (h : env.find? name = some t) :
    Given env (some name) (some t)

/-- What the kernel of an operator makes of the values of its operands. -/
inductive Op.Computes (env : Values) : Op → Tensor Float → Prop where
  | batchNorm {input mean var : String} {weight bias : Option String} {eps : Float}
    {x m v t : Tensor Float} {w b : Option (Tensor Float)} (hinput : env.find? input = some x)
    (hmean : env.find? mean = some m) (hvar : env.find? var = some v) (hweight : Given env weight w)
    (hbias : Given env bias b) (h : TensorParity.batchNorm x m v w b eps = .ok t) :
    Computes env (.batchNorm input mean var weight bias eps) t
  | conv2d {input weight : String} {bias : Option String} {params : ConvParams}
    {x w t : Tensor Float} {b : Option (Tensor Float)} (hinput : env.find? input = some x)
    (hweight : env.find? weight = some w) (hbias : Given env bias b)
    (h : TensorParity.conv2d x w b params = .ok t) :
    Computes env (.conv2d input weight bias params) t
  | deformConv2d {input offset weight : String} {mask bias : Option String} {params : ConvParams}
    {x o w t : Tensor Float} {k b : Option (Tensor Float)} (hinput : env.find? input = some x)
    (hoffset : env.find? offset = some o) (hmask : Given env mask k)
    (hweight : env.find? weight = some w) (hbias : Given env bias b)
    (h : TensorParity.deformConv2d x o k w b params = .ok t) :
    Computes env (.deformConv2d input offset mask weight bias params) t
  | sigmoid {input : String} {x : Tensor Float} (hinput : env.find? input = some x) :
    Computes env (.sigmoid input) (TensorParity.sigmoid x)

namespace Model

/-- The equations of a model, and that they are about its names and no others. -/
structure Means (m : Model) (p : Precision) (inputs : List (Tensor Float)) (env : Values) :
    Prop where
  names : env.keys.Perm (m.inputs.map (·.name) ++ m.constants.keys ++ m.nodes.map (·.output))
  inputs : List.Forall₂
    (fun decl t => t.shape = decl.shape ∧ env.find? decl.name = some (p.quantize t)) m.inputs inputs
  constants : ∀ name t, m.constants.find? name = some t → env.find? name = some (p.quantize t)
  nodes : ∀ node ∈ m.nodes,
    ∃ t, node.op.Computes env t ∧ env.find? node.output = some (p.quantize t)

variable {m : Model} {p : Precision} {inputs : List (Tensor Float)} {values env : Values}

section Apply

variable (henv : ∀ name t, m.lookup p values name = .ok t ↔ env.find? name = some t)

include henv

theorem lookup?_eq_ok_iff {name : Option String} {t : Option (Tensor Float)} :
    m.lookup? p values name = .ok t ↔ Given env name t := by
  cases name with
  | none =>
    constructor
    · intro h
      obtain rfl := Except.ok.inj h
      exact .absent
    · rintro ⟨⟩
      rfl
  | some name =>
    constructor
    · intro h
      obtain ⟨t, hlookup, rfl⟩ := map_eq_ok.mp h
      exact .present ((henv name t).mp hlookup)
    · rintro (_ | hfound)
      exact map_eq_ok.mpr ⟨_, (henv name _).mpr hfound, rfl⟩

/-- A node computes what its kernel makes of the values that are found under its operands. -/
theorem apply_eq_ok_iff {node : Node} {t : Tensor Float} :
    m.apply p values node = .ok t ↔ node.op.Computes env t := by
  obtain ⟨output, op⟩ := node
  cases op with
  | batchNorm input mean var weight bias eps =>
    simp only [apply, bind_eq_ok, mapError_eq_ok, henv, lookup?_eq_ok_iff henv]
    constructor
    · rintro ⟨w, hweight, b, hbias, x, hinput, m, hmean, v, hvar, result, hresult, h⟩
      obtain rfl := Except.ok.inj hresult
      exact .batchNorm hinput hmean hvar hweight hbias h
    · intro h
      cases h with
      | batchNorm hinput hmean hvar hweight hbias h =>
        exact ⟨_, hweight, _, hbias, _, hinput, _, hmean, _, hvar, _, rfl, h⟩
  | conv2d input weight bias params =>
    simp only [apply, bind_eq_ok, mapError_eq_ok, henv, lookup?_eq_ok_iff henv]
    constructor
    · rintro ⟨b, hbias, x, hinput, w, hweight, result, hresult, h⟩
      obtain rfl := Except.ok.inj hresult
      exact .conv2d hinput hweight hbias h
    · intro h
      cases h with
      | conv2d hinput hweight hbias h =>
        exact ⟨_, hbias, _, hinput, _, hweight, _, rfl, h⟩
  | deformConv2d input offset mask weight bias params =>
    simp only [apply, bind_eq_ok, mapError_eq_ok, henv, lookup?_eq_ok_iff henv]
    constructor
    · rintro ⟨k, hmask, b, hbias, x, hinput, o, hoffset, w, hweight, result, hresult, h⟩
      obtain rfl := Except.ok.inj hresult
      exact .deformConv2d hinput hoffset hmask hweight hbias h
    · intro h
      cases h with
      | deformConv2d hinput hoffset hmask hweight hbias h =>
        exact ⟨_, hmask, _, hbias, _, hinput, _, hoffset, _, hweight, _, rfl, h⟩
  | sigmoid input =>
    simp only [apply, bind_eq_ok, mapError_eq_ok, henv]
    constructor
    · rintro ⟨x, hinput, result, hresult, h⟩
      obtain rfl := Except.ok.inj hresult
      obtain rfl := Except.ok.inj h
      exact .sigmoid hinput
    · intro h
      cases h with
      | sigmoid hinput => exact ⟨_, hinput, _, rfl, rfl⟩

end Apply

section Inputs

theorem exists_mem_zip {α β : Type} {as : List α} {bs : List β} (h : as.length = bs.length) {a : α}
    (ha : a ∈ as) : ∃ b, (a, b) ∈ as.zip bs := by
  rw [← List.map_fst_zip (Nat.le_of_eq h)] at ha
  obtain ⟨⟨a, b⟩, hmem, rfl⟩ := List.mem_map.mp ha
  exact ⟨b, hmem⟩

/-- The inputs of a run under their declared names. -/
def inputValues (m : Model) (p : Precision) (inputs : List (Tensor Float)) : Values :=
  ((m.inputs.zip inputs).map fun pair => (pair.1.name, pair.2)).foldl
    (fun values (name, t) => values.insert name (p.quantize t)) .empty

theorem foldlM_bindInput_eq_ok_iff {pairs : List (InputDecl × Tensor Float)} {after : Values} :
    pairs.foldlM (bindInput p) values = .ok after ↔
      (∀ pair ∈ pairs, pair.2.shape = pair.1.shape) ∧
        (pairs.map fun pair => (pair.1.name, pair.2)).foldl
          (fun values (name, t) => values.insert name (p.quantize t)) values = after := by
  induction pairs generalizing values with
  | nil => simp [pure, Except.pure]
  | cons pair pairs ih =>
    obtain ⟨decl, t⟩ := pair
    rw [List.foldlM_cons, List.forall_mem_cons, List.map_cons, List.foldl_cons, bindInput]
    by_cases hshape : t.shape = decl.shape
    · rw [if_pos hshape, ok_bind, ih]
      simp [hshape]
    · rw [if_neg hshape]
      simp [hshape]

theorem evaluate_eq_ok_iff : m.evaluate p inputs = .ok values ↔
    List.Forall₂ (fun decl t => t.shape = decl.shape) m.inputs inputs ∧
      Solves m p (m.inputValues p inputs) m.nodes values := by
  obtain ⟨defined, hordered⟩ := m.exists_ordered
  rw [← foldlM_step_eq_ok_iff hordered, List.forall₂_iff_zip, evaluate_iff_steps]
  simp only [foldlM_bindInput_eq_ok_iff, Prod.forall, inputValues]
  constructor
  · rintro ⟨hcount, _, ⟨hshapes, rfl⟩, hsteps⟩
    exact ⟨⟨hcount.symm, hshapes⟩, hsteps⟩
  · rintro ⟨⟨hcount, hshapes⟩, hsteps⟩
    exact ⟨hcount.symm, _, ⟨hshapes, rfl⟩, hsteps⟩

theorem find?_inputValues (hlength : m.inputs.length = inputs.length) {name : String}
    {t : Tensor Float} : (m.inputValues p inputs).find? name = some t ↔
      ∃ pair ∈ m.inputs.zip inputs, pair.1.name = name ∧ p.quantize pair.2 = t := by
  have hkeys : ((m.inputs.zip inputs).map fun pair => (pair.1.name, pair.2)).map (·.1) =
      m.inputs.map (·.name) := by
    rw [List.map_map]
    change (m.inputs.zip inputs).map ((·.name) ∘ Prod.fst) = _
    rw [← List.map_map, List.map_fst_zip (Nat.le_of_eq hlength)]
  have hdistinct :
      (((m.inputs.zip inputs).map fun pair => (pair.1.name, pair.2)).map (·.1)).Nodup := by
    rw [hkeys]
    exact (List.nodup_append.mp (List.nodup_append.mp m.nodup_names).1).1
  rw [inputValues, Table.find?_foldl_insert p.quantize hdistinct, Table.find?_empty,
    Option.or_none, Option.map_eq_some_iff]
  simp only [Table.find?_entries hdistinct, List.mem_map, Prod.exists, Prod.mk.injEq]
  constructor
  · rintro ⟨_, ⟨decl, t, hmem, rfl, rfl⟩, rfl⟩
    exact ⟨decl, t, hmem, rfl, rfl⟩
  · rintro ⟨decl, t, hmem, rfl, rfl⟩
    exact ⟨t, ⟨decl, t, hmem, rfl, rfl⟩, rfl⟩

end Inputs

section Environment

/-- Computed values, and constants under the names that have none. -/
def environment (m : Model) (p : Precision) (values : Values) : Values :=
  values.entries.foldl (fun env (name, t) => env.insert name t) (m.constants.map p.quantize)

theorem find?_environment (m : Model) (p : Precision) (values : Values) (name : String) :
    (m.environment p values).find? name =
      (values.find? name).or ((m.constants.find? name).map p.quantize) := by
  refine (Table.find?_foldl_insert id values.nodup_keys (m.constants.map p.quantize) name).trans ?_
  rw [Table.find?_map, Option.map_id]
  rfl

/-- What is looked up is what the environment holds. -/
theorem lookup_eq_ok_iff (m : Model) (p : Precision) (values : Values) (name : String)
    (t : Tensor Float) :
    m.lookup p values name = .ok t ↔ (m.environment p values).find? name = some t := by
  rw [find?_environment]
  unfold lookup
  cases values.find? name with
  | some found => simp
  | none => cases m.constants.find? name <;> simp

/-- The shapes that a trace lists are those of the environment. -/
theorem shapes_eq (m : Model) (p : Precision) (values : Values) :
    values.entries.foldl (fun shapes (name, t) => shapes.insert name t.shape)
        (m.constants.map (·.shape)) =
      (m.environment p values).map (·.shape) := by
  refine Table.eq_of_find? fun name => ?_
  rw [find?_shapes, Table.find?_map, Table.find?_map, find?_environment]
  cases values.find? name with
  | some t => rfl
  | none =>
    cases m.constants.find? name with
    | none => rfl
    | some t => exact congrArg some (p.shape_quantize t).symm

/-- The names of inputs, constants and nodes are of three kinds. -/
theorem names_disjoint (m : Model) :
    (∀ decl ∈ m.inputs, decl.name ∉ m.constants.keys) ∧
      (∀ decl ∈ m.inputs, ∀ node ∈ m.nodes, node.output ≠ decl.name) ∧
      ∀ name ∈ m.constants.keys, ∀ node ∈ m.nodes, node.output ≠ name := by
  have hdistinct := m.nodup_names
  simp only [List.nodup_append, List.mem_append, List.mem_map] at hdistinct
  obtain ⟨⟨-, -, hinputs⟩, -, hnodes⟩ := hdistinct
  refine ⟨fun decl hdecl hkey => ?_, fun decl hdecl node hnode heq => ?_,
    fun name hname node hnode heq => ?_⟩
  · exact hinputs _ ⟨decl, hdecl, rfl⟩ _ hkey rfl
  · exact hnodes _ (.inl ⟨decl, hdecl, rfl⟩) _ ⟨node, hnode, rfl⟩ heq.symm
  · exact hnodes _ (.inr hname) _ ⟨node, hnode, rfl⟩ heq.symm

/-- Values of a run that was completed solve all equations of the model, once they are completed by
the constants. -/
theorem means_of_evaluate (h : m.evaluate p inputs = .ok values) :
    m.Means p inputs (m.environment p values) := by
  obtain ⟨hshapes, hsolves⟩ := evaluate_eq_ok_iff.mp h
  obtain ⟨hinputConstant, hinputNode, hconstantNode⟩ := m.names_disjoint
  have hlength := hshapes.length_eq
  -- no node has the name of an input or of a constant, so the steps keep what stands under it
  have hinput (decl : InputDecl) (t : Tensor Float) (hmem : (decl, t) ∈ m.inputs.zip inputs) :
      values.find? decl.name = some (p.quantize t) := by
    rw [hsolves.keeps _ (hinputNode decl (List.of_mem_zip hmem).1)]
    exact (find?_inputValues hlength).mpr ⟨(decl, t), hmem, rfl, rfl⟩
  have hconstant (name : String) (hname : name ∈ m.constants.keys) : values.find? name = none := by
    rw [hsolves.keeps _ (hconstantNode name hname), Option.eq_none_iff_forall_ne_some]
    intro t hfound
    obtain ⟨pair, hmem, rfl, -⟩ := (find?_inputValues hlength).mp hfound
    exact hinputConstant pair.1 (List.of_mem_zip hmem).1 hname
  refine ⟨?_, ?_, ?_, ?_⟩
  · refine (List.perm_ext_iff_of_nodup (Table.nodup_keys _) m.nodup_names).mpr fun name => ?_
    rw [Table.mem_keys_iff, find?_environment]
    simp only [List.mem_append, List.mem_map]
    constructor
    · rintro ⟨t, hfound⟩
      by_cases hnode : ∃ node ∈ m.nodes, node.output = name
      · exact .inr hnode
      rcases Option.or_eq_some_iff.mp hfound with hvalue | ⟨-, hconstant⟩
      · rw [hsolves.keeps name fun node hmem heq => hnode ⟨node, hmem, heq⟩] at hvalue
        obtain ⟨pair, hmem, hname, -⟩ := (find?_inputValues hlength).mp hvalue
        exact .inl (.inl ⟨pair.1, (List.of_mem_zip hmem).1, hname⟩)
      · obtain ⟨c, hfrozen, -⟩ := Option.map_eq_some_iff.mp hconstant
        exact .inl (.inr (Table.mem_keys_iff.mpr ⟨c, hfrozen⟩))
    · rintro ((⟨decl, hdecl, rfl⟩ | hkey) | ⟨node, hnode, rfl⟩)
      · obtain ⟨t, hmem⟩ := exists_mem_zip hlength hdecl
        exact ⟨p.quantize t, by rw [hinput decl t hmem, Option.some_or]⟩
      · obtain ⟨c, hfrozen⟩ := Table.mem_keys_iff.mp hkey
        exact ⟨p.quantize c, by rw [hconstant name hkey, hfrozen]; rfl⟩
      · obtain ⟨t, -, hvalue⟩ := hsolves.computes node hnode
        exact ⟨p.quantize t, by rw [hvalue, Option.some_or]⟩
  · refine List.forall₂_iff_zip.mpr ⟨hlength, fun {decl t} hmem => ⟨?_, ?_⟩⟩
    · exact (List.forall₂_iff_zip.mp hshapes).2 hmem
    · rw [find?_environment, hinput decl t hmem, Option.some_or]
  · intro name c hfrozen
    rw [find?_environment, hconstant name (Table.mem_keys_iff.mpr ⟨c, hfrozen⟩), hfrozen]
    rfl
  · intro node hnode
    obtain ⟨t, happly, hvalue⟩ := hsolves.computes node hnode
    refine ⟨t, (apply_eq_ok_iff (m.lookup_eq_ok_iff p values)).mp happly, ?_⟩
    rw [find?_environment, hvalue, Option.some_or]

/-- A solution of the equations is found by the run, and completed by the constants again. -/
theorem evaluate_of_means (h : m.Means p inputs env) :
    ∃ values, m.evaluate p inputs = .ok values ∧ m.environment p values = env := by
  obtain ⟨hinputConstant, hinputNode, hconstantNode⟩ := m.names_disjoint
  have hlength := h.inputs.length_eq
  have hinputs {decl : InputDecl} {t : Tensor Float} (hmem : (decl, t) ∈ m.inputs.zip inputs) :
      env.find? decl.name = some (p.quantize t) :=
    ((List.forall₂_iff_zip.mp h.inputs).2 hmem).2
  -- a run computes every value but those of the constants
  have hfind (name : String) : (env.without m.constants.keys).find? name =
      if name ∈ m.constants.keys then none else env.find? name := Table.find?_without _ _ _
  have henvironment : m.environment p (env.without m.constants.keys) = env := by
    refine Table.eq_of_find? fun name => ?_
    rw [find?_environment, hfind]
    split
    · rename_i hkey
      obtain ⟨c, hfrozen⟩ := Table.mem_keys_iff.mp hkey
      rw [hfrozen, h.constants name c hfrozen]
      rfl
    · rename_i hnew
      have hnone : m.constants.find? name = none := by
        rw [Option.eq_none_iff_forall_ne_some]
        exact fun c hfrozen => hnew (Table.mem_keys_iff.mpr ⟨c, hfrozen⟩)
      rw [hnone, Option.map_none, Option.or_none]
  refine ⟨env.without m.constants.keys, evaluate_eq_ok_iff.mpr ⟨?_, ?_, ?_⟩, henvironment⟩
  · exact h.inputs.imp fun _ _ hpair => hpair.1
  · intro name hnode
    rw [hfind, Option.ext_iff]
    intro t
    rw [find?_inputValues hlength]
    constructor
    · intro hfound
      split at hfound
      · cases hfound
      · rename_i hnew
        have hname := h.names.mem_iff.mp (Table.mem_keys_iff.mpr ⟨t, hfound⟩)
        simp only [List.mem_append, List.mem_map] at hname
        rcases hname with (⟨decl, hdecl, rfl⟩ | hkey) | ⟨node, hmem, heq⟩
        · obtain ⟨u, hmem⟩ := exists_mem_zip hlength hdecl
          refine ⟨(decl, u), hmem, rfl, ?_⟩
          rw [hinputs hmem] at hfound
          exact Option.some.inj hfound
        · exact absurd hkey hnew
        · exact absurd heq (hnode node hmem)
    · rintro ⟨⟨decl, u⟩, hmem, rfl, rfl⟩
      rw [if_neg (hinputConstant decl (List.of_mem_zip hmem).1)]
      exact hinputs hmem
  · intro node hnode
    obtain ⟨t, hcomputes, hvalue⟩ := h.nodes node hnode
    refine ⟨t, (apply_eq_ok_iff fun name t => ?_).mpr hcomputes, ?_⟩
    · rw [lookup_eq_ok_iff, henvironment]
    · rw [hfind, if_neg fun hkey => hconstantNode _ hkey node hnode rfl]
      exact hvalue

theorem evaluate_iff_means : (∃ values, m.evaluate p inputs = .ok values ∧
    m.environment p values = env) ↔ m.Means p inputs env := by
  constructor
  · rintro ⟨values, hvalues, rfl⟩
    exact means_of_evaluate hvalues
  · exact evaluate_of_means

end Environment

section Refusals

variable {defined : List String} {nodes : List Node} {node : Node} {e : ExecError}

/-- Names that have values. -/
def Covers (m : Model) (p : Precision) (values : Values) (names : List String) : Prop :=
  ∀ name ∈ names, ∃ t, m.lookup p values name = .ok t

theorem lookup?_total {operand : Option String} (h : m.Covers p values operand.toList) :
    ∃ t, m.lookup? p values operand = .ok t := by
  cases operand with
  | none => exact ⟨none, rfl⟩
  | some name =>
    obtain ⟨t, hlookup⟩ := h name (by simp)
    exact ⟨some t, map_eq_ok.mpr ⟨t, hlookup, rfl⟩⟩

/-- A node whose operands have values is refused by its kernel or not at all. -/
theorem apply_eq_error (h : m.Covers p values node.op.operands)
    (hrefused : m.apply p values node = .error e) :
    ∃ source, e = .kernel node.output node.op.kind source := by
  have hkernel {result : Except KernelError (Tensor Float)}
      (hresult : result.mapError (ExecError.kernel node.output node.op.kind) = .error e) :
      ∃ source, e = .kernel node.output node.op.kind source := by
    obtain ⟨source, -, he⟩ := mapError_eq_error.mp hresult
    exact ⟨source, he⟩
  obtain ⟨output, op⟩ := node
  cases op with
  | batchNorm input mean var weight bias eps =>
    simp only [Op.operands, Covers, List.forall_mem_append, List.forall_mem_cons] at h
    obtain ⟨⟨⟨⟨x, hinput⟩, ⟨u, hmean⟩, ⟨v, hvar⟩, -⟩, hweight⟩, hbias⟩ := h
    obtain ⟨w, hweight⟩ := lookup?_total hweight
    obtain ⟨b, hbias⟩ := lookup?_total hbias
    simp only [apply, hinput, hmean, hvar, hweight, hbias, ok_bind, pure_bind] at hrefused
    exact hkernel hrefused
  | conv2d input weight bias params =>
    simp only [Op.operands, Covers, List.forall_mem_append, List.forall_mem_cons] at h
    obtain ⟨⟨⟨x, hinput⟩, ⟨w, hweight⟩, -⟩, hbias⟩ := h
    obtain ⟨b, hbias⟩ := lookup?_total hbias
    simp only [apply, hinput, hweight, hbias, ok_bind, pure_bind] at hrefused
    exact hkernel hrefused
  | deformConv2d input offset mask weight bias params =>
    simp only [Op.operands, Covers, List.forall_mem_append, List.forall_mem_cons] at h
    obtain ⟨⟨⟨⟨⟨x, hinput⟩, ⟨o, hoffset⟩, -⟩, hmask⟩, ⟨w, hweight⟩, -⟩, hbias⟩ := h
    obtain ⟨k, hmask⟩ := lookup?_total hmask
    obtain ⟨b, hbias⟩ := lookup?_total hbias
    simp only [apply, hinput, hoffset, hmask, hweight, hbias, ok_bind, pure_bind] at hrefused
    exact hkernel hrefused
  | sigmoid input =>
    obtain ⟨x, hinput⟩ := h input (by simp [Op.operands])
    simp only [apply, hinput, ok_bind, pure_bind] at hrefused
    exact hkernel hrefused

/-- A name that has a value keeps one. -/
theorem Covers.insert {names : List String} (h : m.Covers p values names) (key : String)
    (t : Tensor Float) : m.Covers p (values.insert key t) (key :: names) := by
  intro name hname
  by_cases hkey : name = key
  · exact lookup_eq_ok (.inl (hkey ▸ isSome_insert_self values key t))
  · have hsame : (values.insert key t).find? name = values.find? name := by
      rw [Table.find?_insert, if_neg hkey]
    rw [lookup_congr hsame]
    exact h name ((List.mem_cons.mp hname).resolve_left hkey)

/-- Nodes that read names with values only, or results of earlier nodes, are refused by the kernel
of one of them. -/
theorem foldlM_step_eq_error (hordered : Ordered defined nodes) (h : m.Covers p values defined)
    (hrefused : nodes.foldlM (m.step p) values = .error e) :
    ∃ node ∈ nodes, ∃ source, e = .kernel node.output node.op.kind source := by
  induction nodes generalizing defined values with
  | nil => cases hrefused
  | cons node nodes ih =>
    obtain ⟨hread, -, hrest⟩ := hordered
    rw [List.foldlM_cons] at hrefused
    rcases bind_eq_error.mp hrefused with hfirst | ⟨next, hstep, hnext⟩
    · rcases bind_eq_error.mp hfirst with happly | ⟨_, -, hinsert⟩
      · exact ⟨node, List.mem_cons_self,
          apply_eq_error (fun name hname => h name (hread name hname)) happly⟩
      · cases hinsert
    · obtain ⟨t, -, rfl⟩ := step_eq_ok hstep
      obtain ⟨later, hmem, hsource⟩ := ih hrest (h.insert node.output _) hnext
      exact ⟨later, List.mem_cons_of_mem _ hmem, hsource⟩

/-- The first input whose shape is not the declared one, and where it stands. -/
def FirstMismatch (m : Model) (inputs : List (Tensor Float)) (position : Nat) (decl : InputDecl)
    (t : Tensor Float) : Prop :=
  ∃ before after, m.inputs.zip inputs = before ++ (decl, t) :: after ∧ before.length = position ∧
    (∀ pair ∈ before, pair.2.shape = pair.1.shape) ∧ t.shape ≠ decl.shape

/-- What keeps the values of a model from being computed: too few inputs or too many, then one of
another shape, then the kernel of a node. -/
inductive Refuses (m : Model) (inputs : List (Tensor Float)) : ExecError → Prop where
  | inputCount (hcount : inputs.length ≠ m.inputs.length) :
    Refuses m inputs (.inputCount m.inputs.length inputs.length)
  | inputShape {position : Nat} {decl : InputDecl} {t : Tensor Float}
    (hcount : inputs.length = m.inputs.length) (hfirst : m.FirstMismatch inputs position decl t) :
    Refuses m inputs (.inputShape decl.name decl.shape t.shape)
  | kernel {node : Node} {source : KernelError} (hcount : inputs.length = m.inputs.length)
    (hshapes : ∀ pair ∈ m.inputs.zip inputs, pair.2.shape = pair.1.shape) (hnode : node ∈ m.nodes) :
    Refuses m inputs (.kernel node.output node.op.kind source)

theorem refuses_of_evaluate (h : m.evaluate p inputs = .error e) : m.Refuses inputs e := by
  obtain ⟨-, hordered, -⟩ := check_eq_ok_iff.mp m.valid
  unfold evaluate at h
  split at h
  · rename_i hcount
    obtain rfl := Except.error.inj h
    exact .inputCount hcount
  rename_i hcount
  rw [ne_eq, not_not] at hcount
  rcases bind_eq_error.mp h with hbind | ⟨bound, hbound, hsteps⟩
  · obtain ⟨before, ⟨decl, t⟩, after, middle, hsplit, hbefore, hrefused⟩ :=
      foldlM_eq_error_iff.mp hbind
    simp only [bindInput] at hrefused
    split at hrefused
    · cases hrefused
    · rename_i hshape
      obtain rfl := Except.error.inj hrefused
      exact .inputShape hcount
        ⟨before, after, hsplit, rfl, (foldlM_bindInput_eq_ok_iff.mp hbefore).1, hshape⟩
  · obtain ⟨hshapes, rfl⟩ := foldlM_bindInput_eq_ok_iff.mp hbound
    have hcovers : m.Covers p (m.inputValues p inputs)
        (m.inputs.map (·.name) ++ m.constants.keys).reverse := by
      intro name hname
      apply lookup_eq_ok
      rcases List.mem_append.mp (List.mem_reverse.mp hname) with hinput | hconstant
      · obtain ⟨decl, hdecl, rfl⟩ := List.mem_map.mp hinput
        obtain ⟨t, hmem⟩ := exists_mem_zip hcount.symm hdecl
        exact .inl (Option.isSome_iff_exists.mpr
          ⟨p.quantize t, (find?_inputValues hcount.symm).mpr ⟨(decl, t), hmem, rfl, rfl⟩⟩)
      · exact .inr hconstant
    obtain ⟨node, hnode, source, rfl⟩ := foldlM_step_eq_error hordered hcovers hsteps
    exact .kernel hcount hshapes hnode

/-- Once the values are computed, the outputs are looked up without fail. -/
theorem evaluate_of_run (h : m.run p inputs = .error e) : m.evaluate p inputs = .error e := by
  rcases bind_eq_error.mp h with hvalues | ⟨values, hvalues, -⟩
  · exact hvalues
  · obtain ⟨outputs, hok⟩ := run_of_evaluate hvalues
    rw [h] at hok
    cases hok

theorem evaluate_of_trace (h : m.trace p inputs = .error e) : m.evaluate p inputs = .error e := by
  rcases bind_eq_error.mp h with hvalues | ⟨_, -, hshapes⟩
  · exact hvalues
  · cases hshapes

theorem evaluate_ne_missing (m : Model) (p : Precision) (inputs : List (Tensor Float))
    (name : String) : m.evaluate p inputs ≠ .error (.missingValue name) := by
  intro h
  cases refuses_of_evaluate h

end Refusals

/-- A run never misses a value. It succeeds exactly when the equations of the model have a solution,
which is the only one then, and yields what the solution holds under the outputs, in their order; a
trace yields the shapes of the solution. -/
theorem run_eq_ok_iff_means (m : Model) (p : Precision) (inputs : List (Tensor Float)) :
    (∀ name, m.run p inputs ≠ .error (.missingValue name) ∧
        m.trace p inputs ≠ .error (.missingValue name)) ∧
      (∀ results, m.run p inputs = .ok results ↔ ∃ env, m.Means p inputs env ∧
        List.Forall₂ (fun name t => env.find? name = some t) m.outputs results) ∧
      (∀ shapes, m.trace p inputs = .ok shapes ↔
        ∃ env, m.Means p inputs env ∧ shapes = env.map (·.shape)) ∧
      ∀ env env', m.Means p inputs env → m.Means p inputs env' → env = env' := by
  refine ⟨fun name => ⟨fun hrun => ?_, fun htrace => ?_⟩, fun results => ?_, fun shapes => ?_,
    fun env env' h h' => ?_⟩
  · exact m.evaluate_ne_missing p inputs name (evaluate_of_run hrun)
  · exact m.evaluate_ne_missing p inputs name (evaluate_of_trace htrace)
  · rw [run, bind_eq_ok]
    simp only [mapM_eq_ok_iff, lookup_eq_ok_iff, ← evaluate_iff_means]
    constructor
    · rintro ⟨values, hvalues, houtputs⟩
      exact ⟨_, ⟨values, hvalues, rfl⟩, houtputs⟩
    · rintro ⟨_, ⟨values, hvalues, rfl⟩, houtputs⟩
      exact ⟨values, hvalues, houtputs⟩
  · rw [trace, bind_eq_ok]
    simp only [pure, Except.pure, Except.ok.injEq, ← evaluate_iff_means]
    constructor
    · rintro ⟨values, hvalues, rfl⟩
      exact ⟨_, ⟨values, hvalues, rfl⟩, m.shapes_eq p values⟩
    · rintro ⟨_, ⟨values, hvalues, rfl⟩, rfl⟩
      exact ⟨values, hvalues, m.shapes_eq p values⟩
  · obtain ⟨values, hvalues, rfl⟩ := evaluate_of_means h
    obtain ⟨values', hvalues', rfl⟩ := evaluate_of_means h'
    rw [hvalues] at hvalues'
    rw [Except.ok.inj hvalues']

end Model

end TensorParity
