import TensorParity.Model.Run
import TensorParity.Proofs.Except
import TensorParity.Proofs.Rounding.Bits
import TensorParity.Proofs.Table

/-!
What a run finds. Every name that a checked model reads has a value by then, so a run whose nodes
were computed has its outputs; and a run at single precision sees numbers of single precision only,
so it does not notice which inputs and constants were rounded before.
-/
namespace TensorParity

namespace Model

variable {m m' : Model} {p : Precision} {inputs : List (Tensor Float)} {values : Values}

/-- Names are defined by inputs, constants and nodes. -/
theorem mem_of_check {inputs constants : List String} {nodes : List Node} {outputs : List String}
    (h : check inputs constants nodes outputs = .ok ()) :
    ∀ name ∈ outputs, name ∈ inputs ∨ name ∈ constants ∨ ∃ node ∈ nodes, node.output = name := by
  obtain ⟨before, hbefore, h⟩ := bind_eq_ok.mp h
  obtain ⟨after, hafter, h⟩ := bind_eq_ok.mp h
  have hstart : ∀ name ∈ before, name ∈ inputs ∨ name ∈ constants := by
    refine foldlM_invariant (fun defined => ∀ name ∈ defined, name ∈ inputs ∨ name ∈ constants)
      (fun name hname defined defined' hdefined hstep => ?_) (by simp) hbefore
    unfold define at hstep
    split at hstep
    · simp at hstep
    · obtain rfl := Except.ok.inj hstep
      exact List.forall_mem_cons.mpr ⟨List.mem_append.mp hname, hdefined⟩
  have hnodes : ∀ name ∈ after,
      name ∈ inputs ∨ name ∈ constants ∨ ∃ node ∈ nodes, node.output = name := by
    refine foldlM_invariant (fun defined => ∀ name ∈ defined, name ∈ inputs ∨ name ∈ constants ∨
      ∃ node ∈ nodes, node.output = name) (fun node hnode defined defined' hdefined hstep => ?_)
      (fun name hname => ?_) hafter
    · unfold defineNode define at hstep
      split at hstep
      · simp at hstep
      · split at hstep
        · simp at hstep
        · obtain rfl := Except.ok.inj hstep
          exact List.forall_mem_cons.mpr ⟨.inr (.inr ⟨node, hnode, rfl⟩), hdefined⟩
    · rcases hstart name hname with hinput | hconstant
      · exact .inl hinput
      · exact .inr (.inl hconstant)
  intro name hname
  cases hfound : outputs.find? (· ∉ after) with
  | some missing =>
    simp only [hfound] at h
    split at h
    · simp at h
    · simp at h
  | none => exact hnodes name (by simpa using List.find?_eq_none.mp hfound name hname)

/-- The parts of a model pass the check. -/
theorem ofParts_parts (m : Model) :
    ofParts m.name m.inputs m.constants m.nodes m.outputs = .ok m := by
  unfold ofParts
  split
  · rfl
  · rename_i e hcheck
    rw [m.valid] at hcheck
    cases hcheck

/-- A model that is assembled has the parts it was assembled from. -/
theorem ofParts_eq_ok {name : String} {decls : List InputDecl} {constants : Table (Tensor Float)}
    {nodes : List Node} {outputs : List String}
    (h : ofParts name decls constants nodes outputs = .ok m) :
    m.name = name ∧ m.inputs = decls ∧ m.constants = constants ∧ m.nodes = nodes ∧
      m.outputs = outputs := by
  unfold ofParts at h
  split at h
  · obtain rfl := Except.ok.inj h
    exact ⟨rfl, rfl, rfl, rfl, rfl⟩
  · cases h

/-- A name that has a value keeps one. -/
theorem isSome_insert {values : Values} {name : String} (h : (values.find? name).isSome = true)
    (key : String) (t : Tensor Float) : ((values.insert key t).find? name).isSome = true := by
  rw [Table.find?_insert]
  split
  · rfl
  · exact h

theorem isSome_insert_self (values : Values) (key : String) (t : Tensor Float) :
    ((values.insert key t).find? key).isSome = true := by
  rw [Table.find?_insert, if_pos rfl]
  rfl

theorem bindInput_eq_ok {values' : Values} {pair : InputDecl × Tensor Float}
    (h : bindInput p values pair = .ok values') :
    values' = values.insert pair.1.name (p.quantize pair.2) := by
  obtain ⟨decl, t⟩ := pair
  simp only [bindInput] at h
  split at h
  · exact (Except.ok.inj h).symm
  · simp at h

theorem step_eq_ok {values' : Values} {node : Node} (h : m.step p values node = .ok values') :
    ∃ t, m.apply p values node = .ok t ∧ values' = values.insert node.output (p.quantize t) := by
  obtain ⟨t, happly, hinsert⟩ := bind_eq_ok.mp h
  exact ⟨t, happly, (Except.ok.inj hinsert).symm⟩

/-- A completed run has bound all inputs and then computed all nodes. -/
theorem evaluate_iff_steps : m.evaluate p inputs = .ok values ↔
    inputs.length = m.inputs.length ∧ ∃ bound,
      (m.inputs.zip inputs).foldlM (bindInput p) .empty = .ok bound ∧
        m.nodes.foldlM (m.step p) bound = .ok values := by
  unfold evaluate
  by_cases hcount : inputs.length = m.inputs.length
  · rw [if_neg (not_not_intro hcount)]
    simp only [bind_eq_ok, hcount, true_and]
  · rw [if_pos hcount]
    simp [hcount]

/-- Inputs and nodes have values once all nodes are computed. -/
theorem isSome_of_evaluate (h : m.evaluate p inputs = .ok values) {name : String}
    (hname : name ∈ m.inputs.map (·.name) ∨ ∃ node ∈ m.nodes, node.output = name) :
    (values.find? name).isSome = true := by
  obtain ⟨hlength, bound, hbound, hnodes⟩ := evaluate_iff_steps.mp h
  rcases hname with hinput | ⟨node, hnode, rfl⟩
  · obtain ⟨i, hi, rfl⟩ := List.mem_iff_getElem.mp hinput
    have hdecl : i < m.inputs.length := by simpa using hi
    have hi' : i < inputs.length := by omega
    have hpair : (m.inputs[i], inputs[i]) ∈ m.inputs.zip inputs :=
      List.mem_iff_getElem.mpr ⟨i, by simp [hdecl, hi'], by simp⟩
    have hstart := foldlM_reaches (fun (pair : InputDecl × Tensor Float) (values : Values) =>
      (values.find? pair.1.name).isSome = true) (fun pair s s' hstep => by
        rw [bindInput_eq_ok hstep]
        exact isSome_insert_self _ _ _) (fun pair other s s' hs hstep => by
        rw [bindInput_eq_ok hstep]
        exact isSome_insert hs _ _) hbound _ hpair
    refine foldlM_invariant (fun values : Values =>
      (values.find? (m.inputs.map (·.name))[i]).isSome = true)
      (fun node _ s s' hs hstep => ?_) (by simpa using hstart) hnodes
    obtain ⟨t, -, rfl⟩ := step_eq_ok hstep
    exact isSome_insert hs _ _
  · refine foldlM_reaches (fun (node : Node) (values : Values) =>
      (values.find? node.output).isSome = true) (fun node s s' hstep => ?_)
      (fun node other s s' hs hstep => ?_) hnodes node hnode
    · obtain ⟨t, -, rfl⟩ := step_eq_ok hstep
      exact isSome_insert_self _ _ _
    · obtain ⟨t, -, rfl⟩ := step_eq_ok hstep
      exact isSome_insert hs _ _

theorem lookup_eq_ok {name : String}
    (h : (values.find? name).isSome = true ∨ name ∈ m.constants.keys) :
    ∃ t, m.lookup p values name = .ok t := by
  unfold lookup
  cases hvalue : values.find? name with
  | some t => exact ⟨t, rfl⟩
  | none =>
    rcases h with hsome | hkey
    · simp [hvalue] at hsome
    · obtain ⟨t, ht⟩ := Table.mem_keys_iff.mp hkey
      exact ⟨p.quantize t, by rw [ht]⟩

/-- A run has its outputs as soon as all nodes are computed. -/
theorem run_of_evaluate (h : m.evaluate p inputs = .ok values) :
    ∃ outputs, m.run p inputs = .ok outputs := by
  have houtput : ∀ name ∈ m.outputs, ∃ t, m.lookup p values name = .ok t := by
    intro name hname
    rcases mem_of_check m.valid name hname with hinput | hconstant | hnode
    · exact lookup_eq_ok (.inl (isSome_of_evaluate h (.inl hinput)))
    · exact lookup_eq_ok (.inr hconstant)
    · exact lookup_eq_ok (.inl (isSome_of_evaluate h (.inr hnode)))
  rw [run, h, ok_bind]
  exact mapM_total houtput

theorem lookup?_congr {v w : Values} {name : Option String}
    (h : ∀ n ∈ name.toList, m'.lookup p v n = m.lookup p w n) :
    m'.lookup? p v name = m.lookup? p w name := by
  cases name with
  | none => rfl
  | some n => simp only [lookup?, h n (by simp)]

/-- A node reads its operands and nothing else. -/
theorem apply_congr {v w : Values} {node : Node}
    (h : ∀ name ∈ node.op.operands, m'.lookup p v name = m.lookup p w name) :
    m'.apply p v node = m.apply p w node := by
  obtain ⟨output, op⟩ := node
  cases op with
  | batchNorm input mean var weight bias eps =>
    have hinput := h input (by simp [Op.operands])
    have hmean := h mean (by simp [Op.operands])
    have hvar := h var (by simp [Op.operands])
    have hweight : m'.lookup? p v weight = m.lookup? p w weight :=
      lookup?_congr fun n hn => h n (by simp [Op.operands, Option.mem_toList.mp hn])
    have hbias : m'.lookup? p v bias = m.lookup? p w bias :=
      lookup?_congr fun n hn => h n (by simp [Op.operands, Option.mem_toList.mp hn])
    simp only [apply, hinput, hmean, hvar, hweight, hbias]
  | conv2d input weight bias params =>
    have hinput := h input (by simp [Op.operands])
    have hweight := h weight (by simp [Op.operands])
    have hbias : m'.lookup? p v bias = m.lookup? p w bias :=
      lookup?_congr fun n hn => h n (by simp [Op.operands, Option.mem_toList.mp hn])
    simp only [apply, hinput, hweight, hbias]
  | deformConv2d input offset mask weight bias params =>
    have hinput := h input (by simp [Op.operands])
    have hoffset := h offset (by simp [Op.operands])
    have hweight := h weight (by simp [Op.operands])
    have hmask : m'.lookup? p v mask = m.lookup? p w mask :=
      lookup?_congr fun n hn => h n (by simp [Op.operands, Option.mem_toList.mp hn])
    have hbias : m'.lookup? p v bias = m.lookup? p w bias :=
      lookup?_congr fun n hn => h n (by simp [Op.operands, Option.mem_toList.mp hn])
    simp only [apply, hinput, hoffset, hweight, hmask, hbias]
  | sigmoid input =>
    have hinput := h input (by simp [Op.operands])
    simp only [apply, hinput]

/-- Models that look values up alike compute alike. -/
theorem run_congr (hinputs : m'.inputs = m.inputs) (hnodes : m'.nodes = m.nodes)
    (houtputs : m'.outputs = m.outputs)
    (hlookup : ∀ values name, m'.lookup p values name = m.lookup p values name) :
    m'.run p inputs = m.run p inputs := by
  have hstep : m'.step p = m.step p := by
    funext values node
    simp only [step, apply_congr fun name _ => hlookup values name]
  simp only [run, evaluate, hinputs, hnodes, houtputs, hstep]
  congr 1
  funext values
  exact congrArg (m.outputs.mapM ·) (funext fun name => hlookup values name)

/-- Passing elements through a second function changes nothing where that keeps what the first one
yields. -/
theorem mapConstants_mapConstants {f g : Float → Float} (h : ∀ x, g (f x) = f x) (m : Model) :
    (m.mapConstants f).mapConstants g = m.mapConstants f := by
  have hconstants : (m.constants.map (Tensor.map f)).map (Tensor.map g) =
      m.constants.map (Tensor.map f) := by
    simp [Table.map, Tensor.map, Function.comp_def, h]
  simp only [mapConstants, hconstants]

end Model

namespace Tensor

/-- Some of the elements are rounded through single precision, and the others are kept. -/
structure PartlyRounded (t t' : Tensor Float) : Prop where
  shape : t'.shape = t.shape
  elements : List.Forall₂ (fun x x' => x' = x ∨ x' = TensorParity.roundToSingle x)
    t.data.toList t'.data.toList

/-- All elements are numbers of single precision, or not numbers at all. -/
def IsSingle (t : Tensor Float) : Prop := ∀ x ∈ t.data.toList, TensorParity.roundToSingle x = x

/-- Each element decides for itself whether it is rounded. -/
theorem partlyRounded_map {f : Float → Float} (h : ∀ x, f x = x ∨ f x = TensorParity.roundToSingle x)
    (t : Tensor Float) : t.PartlyRounded (t.map f) := by
  refine ⟨rfl, ?_⟩
  rw [data_map, Array.toList_map, List.forall₂_map_right_iff]
  exact List.forall₂_same.mpr fun x _ => h x

theorem partlyRounded_refl (t : Tensor Float) : t.PartlyRounded t := by
  exact ⟨rfl, List.forall₂_same.mpr fun _ _ => .inl rfl⟩

/-- Rounding all elements leaves no trace of those that were rounded before. -/
theorem map_roundToSingle_eq {xs xs' : List Float}
    (h : List.Forall₂ (fun x x' => x' = x ∨ x' = TensorParity.roundToSingle x) xs xs') :
    xs'.map TensorParity.roundToSingle = xs.map TensorParity.roundToSingle := by
  induction h with
  | nil => rfl
  | cons hhead _ ih =>
    rcases hhead with rfl | rfl
    · rw [List.map_cons, List.map_cons, ih]
    · rw [List.map_cons, List.map_cons, ih, roundToSingle_roundToSingle]

theorem PartlyRounded.roundToSingle_eq {t t' : Tensor Float} (h : t.PartlyRounded t') :
    t'.roundToSingle = t.roundToSingle := by
  obtain ⟨shape, data, hdata⟩ := t
  obtain ⟨shape', data', hdata'⟩ := t'
  obtain ⟨hshape, helements⟩ := h
  obtain rfl : shape' = shape := hshape
  have harray : data'.map TensorParity.roundToSingle = data.map TensorParity.roundToSingle := by
    rw [← Array.toList_inj, Array.toList_map, Array.toList_map, map_roundToSingle_eq helements]
  simp only [Tensor.roundToSingle, map, harray]

theorem isSingle_map {f : Float → Float} (h : ∀ x, TensorParity.roundToSingle (f x) = f x)
    (t : Tensor Float) : (t.map f).IsSingle := by
  intro x hx
  rw [data_map, Array.toList_map] at hx
  obtain ⟨y, -, rfl⟩ := List.mem_map.mp hx
  exact h y

theorem isSingle_roundToSingle (t : Tensor Float) : t.roundToSingle.IsSingle :=
  t.isSingle_map roundToSingle_roundToSingle

end Tensor

namespace Model

variable {m m' : Model} {inputs inputs' : List (Tensor Float)} {values : Values}

/-- A model that differs in its constants alone, where some elements are rounded. -/
structure PartlyRounded (m m' : Model) : Prop where
  inputs : m'.inputs = m.inputs
  nodes : m'.nodes = m.nodes
  outputs : m'.outputs = m.outputs
  constants : List.Forall₂ (fun entry entry' => entry'.1 = entry.1 ∧ entry.2.PartlyRounded entry'.2)
    m.constants.entries m'.constants.entries

theorem partlyRounded_mapConstants {f : Float → Float}
    (h : ∀ x, f x = x ∨ f x = TensorParity.roundToSingle x) (m : Model) :
    m.PartlyRounded (m.mapConstants f) := by
  refine ⟨rfl, rfl, rfl, List.forall₂_map_right_iff.mpr ?_⟩
  exact List.forall₂_same.mpr fun entry _ => ⟨rfl, entry.2.partlyRounded_map h⟩

/-- The names have the same constants up to rounding. -/
theorem PartlyRounded.find? (h : m.PartlyRounded m') (name : String) :
    Option.Rel Tensor.PartlyRounded (m.constants.find? name) (m'.constants.find? name) := by
  have hconstants := h.constants
  unfold Table.find?
  generalize m.constants.entries = entries at hconstants ⊢
  generalize m'.constants.entries = entries' at hconstants ⊢
  induction hconstants with
  | nil => exact .none
  | @cons entry entry' _ _ hhead _ ih =>
    obtain ⟨hname, hrounded⟩ := hhead
    by_cases hfound : entry.1 = name
    · simpa [List.find?_cons, hname, hfound] using Option.Rel.some hrounded
    · simpa [List.find?_cons, hname, hfound] using ih

/-- Constants are rounded wherever they are looked up, so rounding them before makes no
difference. -/
theorem PartlyRounded.lookup_eq (h : m.PartlyRounded m') (values : Values) (name : String) :
    m'.lookup .single values name = m.lookup .single values name := by
  have hconstant := h.find? name
  unfold lookup
  cases values.find? name with
  | some t => rfl
  | none =>
    generalize m.constants.find? name = found at hconstant
    generalize m'.constants.find? name = found' at hconstant
    cases hconstant with
    | none => rfl
    | some hrounded => exact congrArg Except.ok hrounded.roundToSingle_eq

theorem bindInput_partlyRounded {t t' : Tensor Float} (h : t.PartlyRounded t') (decl : InputDecl)
    (values : Values) :
    bindInput .single values (decl, t') = bindInput .single values (decl, t) := by
  simp only [bindInput, h.shape, Precision.quantize, h.roundToSingle_eq]

/-- Inputs are rounded as they are taken in. -/
theorem foldlM_bindInput_partlyRounded (h : List.Forall₂ Tensor.PartlyRounded inputs inputs')
    (decls : List InputDecl) (values : Values) :
    (decls.zip inputs').foldlM (bindInput .single) values =
      (decls.zip inputs).foldlM (bindInput .single) values := by
  induction h generalizing decls values with
  | nil => rfl
  | cons hhead _ ih =>
    cases decls with
    | nil => rfl
    | cons decl decls =>
      rw [List.zip_cons_cons, List.zip_cons_cons, List.foldlM_cons, List.foldlM_cons,
        bindInput_partlyRounded hhead]
      exact congrArg (bindInput .single values _ >>= ·) (funext fun values => ih decls values)

/-- Inputs and constants may be rounded beforehand, all or some of them, where the run rounds them
anyway. -/
theorem run_partlyRounded (hmodel : m.PartlyRounded m')
    (hinputs : List.Forall₂ Tensor.PartlyRounded inputs inputs') :
    m'.run .single inputs' = m.run .single inputs := by
  rw [run_congr hmodel.inputs hmodel.nodes hmodel.outputs hmodel.lookup_eq]
  have hbound := foldlM_bindInput_partlyRounded hinputs m.inputs .empty
  simp only [run, evaluate, hinputs.length_eq, hbound]

theorem run_roundToSingle (m : Model) (inputs : List (Tensor Float)) :
    (m.mapConstants roundToSingle).run .single inputs = m.run .single inputs :=
  run_partlyRounded (partlyRounded_mapConstants (fun _ => .inr rfl) m)
    (List.forall₂_same.mpr fun t _ => t.partlyRounded_refl)

/-- Every value so far is at single precision. -/
def AllSingle (values : Values) : Prop := ∀ name t, values.find? name = some t → t.IsSingle

theorem AllSingle.insert (h : AllSingle values) (name : String) (t : Tensor Float) :
    AllSingle (values.insert name (Precision.single.quantize t)) := by
  intro other found hfound
  rw [Table.find?_insert] at hfound
  split at hfound
  · obtain rfl := Option.some.inj hfound
    exact t.isSingle_roundToSingle
  · exact h other found hfound

/-- Inputs are rounded as they enter and results as they are stored. -/
theorem allSingle_of_evaluate (h : m.evaluate .single inputs = .ok values) : AllSingle values := by
  obtain ⟨-, bound, hbound, hnodes⟩ := evaluate_iff_steps.mp h
  have hempty : AllSingle .empty := nofun
  have hstart : AllSingle bound := by
    refine foldlM_invariant AllSingle (fun pair _ s s' hs hstep => ?_) hempty hbound
    rw [bindInput_eq_ok hstep]
    exact hs.insert _ _
  refine foldlM_invariant AllSingle (fun node _ s s' hs hstep => ?_) hstart hnodes
  obtain ⟨t, -, rfl⟩ := step_eq_ok hstep
  exact hs.insert _ _

/-- What is looked up is at single precision, whether it was computed or is a constant. -/
theorem AllSingle.lookup (h : AllSingle values) {name : String} {t : Tensor Float}
    (hlookup : m.lookup .single values name = .ok t) : t.IsSingle := by
  unfold Model.lookup at hlookup
  split at hlookup
  · rename_i found hfound
    obtain rfl := Except.ok.inj hlookup
    exact h name found hfound
  · split at hlookup
    · obtain rfl := Except.ok.inj hlookup
      exact Tensor.isSingle_roundToSingle _
    · cases hlookup

/-- A run at single precision sees numbers of single precision only: it does not notice which of its
inputs and constants were rounded before, and each element of its outputs is of single precision,
whether the output is a node's, an input or a constant. -/
theorem run_in_single_precision (hmodel : m.PartlyRounded m')
    (hinputs : List.Forall₂ Tensor.PartlyRounded inputs inputs') :
    m'.run .single inputs' = m.run .single inputs ∧
      ∀ outputs, m.run .single inputs = .ok outputs → ∀ t ∈ outputs, t.IsSingle := by
  refine ⟨run_partlyRounded hmodel hinputs, fun outputs hrun t ht => ?_⟩
  obtain ⟨values, hvalues, houtputs⟩ := bind_eq_ok.mp hrun
  obtain ⟨name, -, hlookup⟩ := mapM_mem houtputs t ht
  exact (allSingle_of_evaluate hvalues).lookup hlookup

/-- A normalisation whose input is an output as well, and one of its constants. -/
def normalised (variance : Float) : Model :=
  ⟨"m", [⟨"x", [1, 1, 1, 2]⟩],
    ⟨[("mean", ⟨[1], #[0.3], rfl⟩), ("var", ⟨[1], #[variance], rfl⟩)],
      show ["mean", "var"].Pairwise (· < ·) by decide⟩,
    [⟨"y", .batchNorm "x" "mean" "var" none none 0.0⟩], ["y", "x", "var"], rfl⟩

def normalisedInput (x : Float) : Tensor Float := ⟨[1, 1, 1, 2], #[0.7, x], rfl⟩

/-- One constant of two and one element of two were rounded before. -/
theorem run_normalised :
    (normalised (roundToSingle 0.1)).run .single [normalisedInput (roundToSingle 0.2)] =
        (normalised 0.1).run .single [normalisedInput 0.2] ∧
      ∃ outputs, (normalised 0.1).run .single [normalisedInput 0.2] = .ok outputs ∧
        outputs.length = 3 ∧ ∀ t ∈ outputs, t.IsSingle := by
  have hmodel : (normalised 0.1).PartlyRounded (normalised (roundToSingle 0.1)) := by
    refine ⟨rfl, rfl, rfl, .cons ⟨rfl, ?_⟩ (.cons ⟨rfl, ?_⟩ .nil)⟩
    · exact Tensor.partlyRounded_refl _
    · exact ⟨rfl, .cons (.inr rfl) .nil⟩
  have hinput : (normalisedInput 0.2).PartlyRounded (normalisedInput (roundToSingle 0.2)) :=
    ⟨rfl, .cons (.inl rfl) (.cons (.inr rfl) .nil)⟩
  obtain ⟨hsame, hsingle⟩ := run_in_single_precision hmodel (.cons hinput .nil)
  refine ⟨hsame, ?_⟩
  have hcount : ((normalised 0.1).run .single [normalisedInput 0.2]).toOption.map List.length =
      some 3 := by
    decide +kernel
  cases hrun : (normalised 0.1).run .single [normalisedInput 0.2] with
  | ok outputs =>
    rw [hrun] at hcount
    exact ⟨outputs, rfl, Option.some.inj hcount, hsingle outputs hrun⟩
  | error e =>
    rw [hrun] at hcount
    cases hcount

end Model

end TensorParity
