import TensorParity.Proofs.Json.Wording
import TensorParity.Proofs.Record.RoundTrip

/-!
Records are settled by their data: any tree that holds the same data as the tree written for a
record is read as that record. Each record has its slots once some keys are read, and its field
reader fills them key by key.
-/
namespace TensorParity

open Json

/-! Tensors. -/

namespace Tensor

/-- The slots once these keys are read. -/
def slots (t : Tensor Float) (filled : List String) : Slots where
  shape := kept "shape" filled t.shape
  data := kept "data" filled t.data.toList

theorem fills {t : Tensor Float} (h : t.Finite) :
    Fills Slots.field t.slots
      [("shape", .ofShape t.shape), ("data", .array (t.data.toList.map .ofFloat))] := by
  refine .cons (fun v filled hsame hnew => ?_) (.cons (fun v filled hsame hnew => ?_) .nil)
  · have hread := settles_shape t.inWords v hsame
    simp [Slots.field, slots, fill_kept hnew hread]
  · have hread := settles_list (fun x hx => settles_float (h x hx)) v hsame
    simp [Slots.field, slots, fill_kept hnew hread]

theorem settles {t : Tensor Float} (h : t.Finite) : Settles ofJson t.toJson t := by
  intro j hsame
  obtain ⟨filled, hkeys, hwalk⟩ := (fills h).walkRecord hsame (by simp)
  simp only [List.map_cons, List.map_nil, List.forall_mem_cons] at hkeys
  have hparts :
      (Tensor.ofArray t.shape t.data.toList.toArray).mapError Fault.inconsistent = .ok t := by
    rw [Array.toArray_toList, t.ofArray_data]
    rfl
  simp only [slots, kept_nil] at hwalk
  simp only [ofJson, hwalk, ok_bind, required_kept hkeys.1, required_kept hkeys.2.1, hparts]

end Tensor

namespace InputDecl

/-- The slots once these keys are read. -/
def slots (d : InputDecl) (filled : List String) : Slots where
  name := kept "name" filled d.name
  shape := kept "shape" filled d.shape

theorem fills {d : InputDecl} (h : d.shape.InWords) :
    Fills Slots.field d.slots [("name", .string d.name), ("shape", .ofShape d.shape)] := by
  refine .cons (fun v filled hsame hnew => ?_) (.cons (fun v filled hsame hnew => ?_) .nil)
  · have hread := settles_string d.name v hsame
    simp [Slots.field, slots, fill_kept hnew hread]
  · have hread := settles_shape h v hsame
    simp [Slots.field, slots, fill_kept hnew hread]

theorem settles {d : InputDecl} (h : d.shape.InWords) : Settles ofJson d.toJson d := by
  intro j hsame
  obtain ⟨filled, hkeys, hwalk⟩ := (fills h).walkRecord hsame (by simp)
  simp only [List.map_cons, List.map_nil, List.forall_mem_cons] at hkeys
  simp only [slots, kept_nil] at hwalk
  simp only [ofJson, hwalk, ok_bind, required_kept hkeys.1, required_kept hkeys.2.1]
  rfl

end InputDecl

namespace ConvParams

/-- The slots once these keys are read. -/
def slots (p : ConvParams) (filled : List String) : Slots where
  stride := kept "stride" filled
    (⟨p.vertical.stride, p.vertical.words.1⟩, ⟨p.horizontal.stride, p.horizontal.words.1⟩)
  padding := kept "padding" filled
    (⟨p.vertical.padding, p.vertical.words.2.1⟩, ⟨p.horizontal.padding, p.horizontal.words.2.1⟩)
  dilation := kept "dilation" filled
    (⟨p.vertical.dilation, p.vertical.words.2.2⟩,
      ⟨p.horizontal.dilation, p.horizontal.words.2.2⟩)
  groups := kept "groups" filled ⟨p.groups, p.word⟩

theorem fills (p : ConvParams) :
    Fills Slots.field p.slots [
      ("stride", .ofShape [p.vertical.stride, p.horizontal.stride]),
      ("padding", .ofShape [p.vertical.padding, p.horizontal.padding]),
      ("dilation", .ofShape [p.vertical.dilation, p.horizontal.dilation]),
      ("groups", .ofNat p.groups)] := by
  refine .cons (fun v filled hsame hnew => ?_) (.cons (fun v filled hsame hnew => ?_)
    (.cons (fun v filled hsame hnew => ?_) (.cons (fun v filled hsame hnew => ?_) .nil)))
  · have hread := settles_pair p.vertical.words.1 p.horizontal.words.1 v hsame
    simp [Slots.field, slots, fill_kept hnew hread]
  · have hread := settles_pair p.vertical.words.2.1 p.horizontal.words.2.1 v hsame
    simp [Slots.field, slots, fill_kept hnew hread]
  · have hread := settles_pair p.vertical.words.2.2 p.horizontal.words.2.2 v hsame
    simp [Slots.field, slots, fill_kept hnew hread]
  · have hread := settles_below p.word v hsame
    simp [Slots.field, slots, fill_kept hnew hread]

theorem settles (p : ConvParams) : Settles ofJson p.toJson p := by
  intro j hsame
  obtain ⟨filled, hkeys, hwalk⟩ := p.fills.walkRecord hsame (by simp)
  simp only [List.map_cons, List.map_nil, List.forall_mem_cons] at hkeys
  simp only [slots, kept_nil] at hwalk
  simp only [ofJson, hwalk, ok_bind, required_kept hkeys.1, required_kept hkeys.2.1,
    required_kept hkeys.2.2.1, required_kept hkeys.2.2.2.1]
  rfl

end ConvParams

theorem OperatorKind.settles (kind : OperatorKind) : Settles ofJson (.string kind.name) kind := by
  intro j hsame
  cases hsame
  cases kind <;> rfl

namespace Op

/-- The slots once these keys are read. -/
def slots (filled : List String) : Op → Slots
  | batchNorm input mean var weight bias eps =>
    { input := kept "input" filled input
      runningMean := kept "running_mean" filled mean
      runningVar := kept "running_var" filled var
      weight := kept "weight" filled weight
      bias := kept "bias" filled bias
      eps := kept "eps" filled eps }
  | conv2d input weight bias params =>
    { input := kept "input" filled input
      weight := kept "weight" filled (some weight)
      bias := kept "bias" filled bias
      params := kept "params" filled params }
  | deformConv2d input offset mask weight bias params =>
    { input := kept "input" filled input
      offset := kept "offset" filled offset
      mask := kept "mask" filled mask
      weight := kept "weight" filled (some weight)
      bias := kept "bias" filled bias
      params := kept "params" filled params }
  | sigmoid input => { input := kept "input" filled input }

/-- The name of the operator is passed over; it has been read. -/
theorem field_op (op : Op) (v : Json) (filled : List String) :
    (op.slots filled).field op.kind "op" v = .ok (op.slots ("op" :: filled)) := by
  cases op <;> simp [Slots.field, slots, kind, OperatorKind.fields] <;> rfl

section Operands

variable {key : String} {filled : List String} {v : Json}

theorem fill_name {name : String} (hnew : key ∉ filled) (hsame : Same (.string name) v) :
    fill key (kept key filled name) asString v = .ok (some name) :=
  fill_kept hnew (settles_string name v hsame)

theorem fill_optional {name : Option String} (hnew : key ∉ filled)
    (hsame : Same (optionalName name) v) :
    fill key (kept key filled name) (asOption asString) v = .ok (some name) :=
  fill_kept hnew (settles_option name v hsame)

/-- The weight of a convolution must be there, in the slot of one that may be absent. -/
theorem fill_present {name : String} (hnew : key ∉ filled) (hsame : Same (.string name) v) :
    fill key (kept key filled (some name)) (fun j => some <$> asString j) v =
      .ok (some (some name)) := by
  refine fill_kept hnew ?_
  rw [settles_string name v hsame]
  rfl

theorem fill_params {params : ConvParams} (hnew : key ∉ filled) (hsame : Same params.toJson v) :
    fill key (kept key filled params) ConvParams.ofJson v = .ok (some params) :=
  fill_kept hnew (params.settles v hsame)

end Operands

theorem fills {op : Op} (h : op.Finite) :
    Fills (fun s name value => s.field op.kind name value) op.slots
      (("op", .string op.kind.name) :: op.fields) := by
  refine .cons (fun v filled _ _ => op.field_op v filled) ?_
  cases op with
  | batchNorm input mean var weight bias eps =>
    refine .cons (fun v filled hsame hnew => ?_) <| .cons (fun v filled hsame hnew => ?_) <|
      .cons (fun v filled hsame hnew => ?_) <| .cons (fun v filled hsame hnew => ?_) <|
      .cons (fun v filled hsame hnew => ?_) <| .cons (fun v filled hsame hnew => ?_) .nil
    all_goals simp only [Slots.field, slots, kind, OperatorKind.fields]
    · simp [fill_name hnew hsame]
    · simp [fill_name hnew hsame]
    · simp [fill_name hnew hsame]
    · simp [fill_optional hnew hsame]
    · simp [fill_optional hnew hsame]
    · simp [fill_kept hnew (settles_float h v hsame)]
  | conv2d input weight bias params =>
    refine .cons (fun v filled hsame hnew => ?_) <| .cons (fun v filled hsame hnew => ?_) <|
      .cons (fun v filled hsame hnew => ?_) <| .cons (fun v filled hsame hnew => ?_) .nil
    all_goals simp only [Slots.field, slots, kind, OperatorKind.fields]
    · simp [fill_name hnew hsame]
    · simp [fill_present hnew hsame]
    · simp [fill_optional hnew hsame]
    · simp [fill_params hnew hsame]
  | deformConv2d input offset mask weight bias params =>
    refine .cons (fun v filled hsame hnew => ?_) <| .cons (fun v filled hsame hnew => ?_) <|
      .cons (fun v filled hsame hnew => ?_) <| .cons (fun v filled hsame hnew => ?_) <|
      .cons (fun v filled hsame hnew => ?_) <| .cons (fun v filled hsame hnew => ?_) .nil
    all_goals simp only [Slots.field, slots, kind, OperatorKind.fields]
    · simp [fill_name hnew hsame]
    · simp [fill_name hnew hsame]
    · simp [fill_optional hnew hsame]
    · simp [fill_present hnew hsame]
    · simp [fill_optional hnew hsame]
    · simp [fill_params hnew hsame]
  | sigmoid input =>
    refine .cons (fun v filled hsame hnew => ?_) .nil
    simp [Slots.field, slots, kind, OperatorKind.fields, fill_name hnew hsame]

/-- The slots make the operator once all its keys are read. -/
theorem finish_slots {op : Op} {filled : List String}
    (hkeys : ∀ key ∈ op.fields.map (·.1), key ∈ filled) :
    (op.slots filled).finish op.kind = .ok op := by
  cases op with
  | batchNorm | conv2d | deformConv2d | sigmoid =>
    simp only [fields, List.map_cons, List.map_nil, List.forall_mem_cons] at hkeys
    simp [slots, kind, Slots.finish, required, hkeys]
    rfl

/-- Of all fields the search for the operator's name reads that one. -/
theorem fills_kind (op : Op) :
    Fills (fun kind name value =>
        if name = "op" then fill name kind OperatorKind.ofJson value else return kind)
      (fun filled => kept "op" filled op.kind) (("op", .string op.kind.name) :: op.fields) := by
  refine .cons (fun v filled hsame hnew => ?_) fun key j hmem v filled _ _ => ?_
  · simp [fill_kept hnew (op.kind.settles v hsame)]
  · have hne : "op" ≠ key := by
      rintro rfl
      cases op <;> simp [fields] at hmem
    simp only [if_neg hne.symm, kept_cons_of_ne hne]
    rfl

theorem kindOf_settles {op : Op} {fields' : List (String × Json)}
    (hfields : SameFields (("op", .string op.kind.name) :: op.fields) fields') :
    kindOf fields' = .ok op.kind := by
  obtain ⟨filled, hkeys, hfold⟩ := op.fills_kind.foldlM_all hfields
  rw [List.map_cons, List.forall_mem_cons] at hkeys
  simp only [kept_nil] at hfold
  rw [kindOf, hfold, ok_bind, required_kept hkeys.1]

theorem ofFields_settles {op : Op} (h : op.Finite) {fields' : List (String × Json)}
    (hfields : SameFields (("op", .string op.kind.name) :: op.fields) fields') :
    ofFields fields' = .ok op := by
  obtain ⟨filled, hkeys, hfold⟩ := (fills h).foldlM_all hfields
  rw [List.map_cons, List.forall_mem_cons] at hkeys
  have hempty : op.slots [] = {} := by cases op <;> rfl
  rw [ofFields, kindOf_settles hfields, ok_bind, ← hempty, hfold, ok_bind]
  exact finish_slots hkeys.2

end Op

namespace Node

/-- A node is read from its output, at any place of its object, and its operator from the fields
around it. -/
theorem settles {n : Node} (h : n.op.Finite) : Settles ofJson n.toJson n := by
  intro j hsame
  have hnew : "output" ∉ (("op", Json.string n.op.kind.name) :: n.op.fields).map (·.1) := by
    rw [List.map_cons, List.mem_cons, not_or]
    refine ⟨by simp, fun hmem => ?_⟩
    obtain ⟨field, hfield, hname⟩ := List.mem_map.mp hmem
    exact n.op.name_fields field hfield hname
  have hdistinct : (("output", Json.string n.output) :: ("op", .string n.op.kind.name) ::
      n.op.fields).map (·.1) |>.Nodup := by
    cases n.op <;> simp [Op.fields]
  obtain ⟨fields', rfl, hfields⟩ := Same.fields hsame hdistinct
  obtain ⟨before, v, after, rfl, houtput, hrest⟩ := hfields.extract hnew
  have hothers : ∀ field ∈ before ++ after, field.1 ≠ "output" ∧ field.2.wellFormed = true := by
    rintro ⟨key, v'⟩ hmem
    obtain ⟨j', hj', hsame'⟩ := hrest.source key v' hmem
    refine ⟨?_, hsame'.wellFormed⟩
    rintro rfl
    exact hnew (List.mem_map_of_mem (f := (·.1)) hj')
  rw [List.forall_mem_append] at hothers
  have hslots : walkFields Slots.field {} (before ++ ("output", v) :: after) true =
      .ok { output := some n.output, others := after.reverse ++ before.reverse } := by
    have hread : Slots.field { others := before.reverse } "output" v =
        .ok { output := some n.output, others := before.reverse } := by
      cases houtput
      rfl
    rw [walkFields, List.foldlM_append, foldlM_fields hothers.1, ok_bind, List.foldlM_cons]
    simp only [List.append_nil, hread, ok_bind, foldlM_fields hothers.2]
    rfl
  rw [Json.record, ofJson, hslots, ok_bind]
  simp only [required, List.reverse_append, List.reverse_reverse, Op.ofFields_settles h hrest]
  rfl

end Node

end TensorParity
