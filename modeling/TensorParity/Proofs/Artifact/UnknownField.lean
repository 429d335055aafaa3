import TensorParity.Proofs.Artifact.DeclaredKeys
import TensorParity.Proofs.Json.Fault

/-!
Which field a refusal names. A reader is refused for an undeclared key, for a string where something
else has to stand, for an operator that there is none of, or for something that its message does not
name. An undeclared key without a backquote is named in full; a string or an operator is taken for a
field if the message that shows it reads so.
-/
namespace TensorParity

open Json

namespace FormatRole

open Fault

/-- The trees within a tree. -/
inductive Within (root : Json) : Json → Prop where
  | root : Within root root
  | item {v : Json} {items : List Json} (harray : Within root (.array items)) (hitem : v ∈ items) :
      Within root v
  | field {v : Json} {key : String} {fields : List (String × Json)} {closed : Bool}
      (hobject : Within root (.object fields closed)) (hfield : (key, v) ∈ fields) : Within root v

theorem Within.entry {root j v : Json} {key : String} {order : List String} (hj : Within root j)
    (hentry : (key, v) ∈ j.entries order) : Within root v := by
  cases j with
  | object fields closed => exact hj.field hentry
  | array items => exact hj.item (List.of_mem_zip hentry).2
  | _ => simp [entries] at hentry

theorem Plays.within {root j : Json} {role : FormatRole} (h : Plays root role j) :
    Within root j := by
  induction h with
  | artifact => exact .root
  | graph _ hfield ih => exact ih.entry hfield
  | constant _ hfield hitem ih => exact (ih.entry hfield).item hitem
  | input _ hfield hitem ih => exact (ih.entry hfield).item hitem
  | node _ hfield hitem ih => exact (ih.entry hfield).item hitem
  | params _ _ hfield ih => exact ih.entry hfield
  | tensor _ hfield ih => exact ih.entry hfield

/-- The fault of an operator that there is none of. -/
def unknownOperator (name : String) : Fault :=
  .unknownVariant name (OperatorKind.all.map OperatorKind.name)

/-- What a fault of the format goes back to: a key that is not declared where it stands, a string
that stands where something else has to, or the name of an operator. All others name no field. -/
inductive Blames (root : Json) : Fault → Prop where
  | key {role : FormatRole} {j : Json} {key : String} (hplays : Plays root role j)
      (hkey : key ∈ j.keys) (hundeclared : key ∉ role.declared j) : Blames root (.unknownField key)
  | string {s : String} (hwithin : Within root (.string s)) : Blames root (.wrongType (some s))
  | operator {j : Json} {s : String} (hplays : Plays root .node j)
      (hop : ("op", .string s) ∈ j.entries []) : Blames root (unknownOperator s)
  | silent {fault : Fault} (hsilent : Silent fault) : Blames root fault

/-- What a reading is refused for is a fault of the format. -/
def Blamed {α : Type} (root : Json) (x : Decoded α) : Prop :=
  ∀ fault, x = .error fault → Blames root fault

section Blamed

variable {α β σ : Type} {root : Json}

theorem blamed_ok (a : α) : Blamed root (.ok a : Decoded α) := by
  intro fault h
  cases h

theorem blamed_error {fault : Fault} (h : Blames root fault) :
    Blamed root (.error fault : Decoded α) := by
  intro fault' hfault
  obtain rfl := Except.error.inj hfault
  exact h

theorem Blamed.bind {x : Decoded α} {f : α → Decoded β} (hx : Blamed root x)
    (hf : ∀ a, x = .ok a → Blamed root (f a)) : Blamed root (x >>= f) := by
  intro fault h
  rcases bind_eq_error.mp h with hfirst | ⟨a, ha, hnext⟩
  · exact hx fault hfirst
  · exact hf a ha fault hnext

theorem Blamed.map {x : Decoded α} (hx : Blamed root x) (f : α → β) : Blamed root (f <$> x) := by
  intro fault h
  cases x with
  | ok a => cases h
  | error e =>
    obtain rfl : e = fault := Except.error.inj h
    exact hx e rfl

theorem blamed_foldlM {step : σ → α → Decoded σ} {items : List α}
    (hstep : ∀ a ∈ items, ∀ s, Blamed root (step s a)) (s : σ) :
    Blamed root (items.foldlM step s) := by
  intro fault h
  obtain ⟨a, ha, before, hfault⟩ := foldlM_eq_error h
  exact hstep a ha before fault hfault

theorem blamed_wrongType {j : Json} (hj : Within root j) :
    Blamed root (wrongType j : Decoded α) := by
  cases j with
  | broken => exact blamed_error (.silent (silent_of_mem (by simp)))
  | string s => exact blamed_error (.string hj)
  | _ => exact blamed_error (.silent (silent_of_mem (by simp)))

theorem blamed_asString {j : Json} (hj : Within root j) : Blamed root (asString j) := by
  cases j with
  | string s => exact blamed_ok s
  | _ => exact blamed_wrongType hj

theorem blamed_asFloat {j : Json} (hj : Within root j) : Blamed root (asFloat j) := by
  cases j with
  | number n => exact blamed_ok _
  | _ => exact blamed_wrongType hj

theorem blamed_asBelow {limit : Nat} {j : Json} (hj : Within root j) :
    Blamed root (asBelow limit j) := by
  have hrange : Blames root .outOfRange := .silent (silent_of_mem (by simp))
  cases j with
  | number n =>
    cases n with
    | unsigned n =>
      rw [asBelow]
      split
      · exact blamed_ok _
      · exact blamed_error hrange
    | negative n => exact blamed_error hrange
    | real x => exact blamed_wrongType hj
  | _ => exact blamed_wrongType hj

theorem blamed_asBounded {limit : Nat} {j : Json} (hj : Within root j) :
    Blamed root (asBounded limit j) :=
  (blamed_asBelow hj).map _

theorem blamed_asOption {read : Json → Decoded α} {j : Json}
    (hread : Blamed root (read j)) : Blamed root (asOption read j) := by
  cases j with
  | null => exact blamed_ok _
  | _ => exact hread.map _

theorem blamed_asList {read : Json → Decoded α} {j : Json} (hj : Within root j)
    (hread : ∀ items, j = .array items → ∀ v ∈ items, Blamed root (read v)) :
    Blamed root (asList read j) := by
  cases j with
  | array items =>
    intro fault h
    obtain ⟨before, v, after, rfl, -, hfault⟩ := mapM_eq_error_iff.mp h
    exact hread _ rfl v (by simp) fault hfault
  | _ => exact blamed_wrongType hj

theorem blamed_asShape {j : Json} (hj : Within root j) : Blamed root (asShape j) := by
  refine blamed_asList hj ?_
  rintro items rfl v hv
  exact blamed_asBounded (hj.item hv)

theorem blamed_asPair {limit : Nat} {j : Json} (hj : Within root j) :
    Blamed root (asPair (asBelow limit) j) := by
  have hlength : Blames root .wrongLength := .silent (silent_of_mem (by simp))
  cases j with
  | array items =>
    match items with
    | [] => exact blamed_error hlength
    | [a] =>
      exact (blamed_asBelow (hj.item (by simp))).bind fun _ _ => blamed_error hlength
    | a :: b :: rest =>
      refine (blamed_asBelow (hj.item (by simp))).bind fun _ _ => ?_
      refine (blamed_asBelow (hj.item (by simp))).bind fun _ _ => ?_
      split
      · exact blamed_ok _
      · exact blamed_error hlength
  | _ => exact blamed_wrongType hj

theorem blamed_walkFields {field : σ → String → Json → Decoded σ} {fields : List (String × Json)}
    (hfield : ∀ entry ∈ fields, ∀ s, Blamed root (field s entry.1 entry.2)) (start : σ)
    (closed : Bool) : Blamed root (walkFields field start fields closed) := by
  refine (blamed_foldlM hfield start).bind fun s _ => ?_
  split
  · exact blamed_ok s
  · exact blamed_error (.silent (silent_of_mem (by simp)))

theorem blamed_walkRecord {order : List String} {field : σ → String → Json → Decoded σ} {j : Json}
    (hj : Within root j)
    (hfield : ∀ entry ∈ j.entries order, ∀ s, Blamed root (field s entry.1 entry.2)) (start : σ) :
    Blamed root (walkRecord order field start j) := by
  cases j with
  | object fields closed => exact blamed_walkFields hfield start closed
  | array items =>
    refine (blamed_foldlM hfield start).bind fun s _ => ?_
    split
    · exact blamed_ok s
    · exact blamed_error (.silent (silent_of_mem (by simp)))
  | _ => exact blamed_wrongType hj

theorem declared_of_record {role : FormatRole} (h : role ≠ node) (j : Json) :
    role.declared j = role.order := by
  cases role with
  | node => exact absurd rfl h
  | _ => rfl

/-- No declared key has a backquote in it. -/
theorem plain_of_declared {role : FormatRole} {j : Json} {key : String}
    (h : key ∈ role.declared j) : backquote ∉ key.toList := by
  have horder : ∀ role : FormatRole, ∀ key ∈ role.order, backquote ∉ key.toList := by
    intro role
    cases role <;> decide
  have hfields : ∀ kind : OperatorKind, ∀ key ∈ "output" :: "op" :: kind.fields,
      backquote ∉ key.toList := by
    intro kind
    cases kind <;> decide
  by_cases hnode : role = node
  · subst hnode
    unfold declared at h
    dsimp only at h
    split at h
    · exact hfields _ key h
    · exact hfields .sigmoid key (List.mem_of_mem_take (i := 2) h)
  · rw [declared_of_record hnode] at h
    exact horder role key h

section Record

variable {value : Json} {name : String} (role : FormatRole) (j : Json)

theorem blamed_required (hname : name ∈ role.declared j) (slot : Option α) :
    Blamed root (required name slot) := by
  cases slot with
  | some a => exact blamed_ok a
  | none => exact blamed_error (.silent (silent_missingField (plain_of_declared hname)))

theorem blamed_fill (hname : name ∈ role.declared j) {read : Json → Decoded α}
    (hread : Blamed root (read value)) (slot : Option α) :
    Blamed root (fill name slot read value) := by
  cases slot with
  | some a => exact blamed_error (.silent (silent_duplicateField (plain_of_declared hname)))
  | none => exact hread.map _

/-- A field that fills a slot. -/
theorem blamed_slot (hname : name ∈ role.declared j) {read : Json → Decoded α}
    (hread : Blamed root (read value)) (slot : Option α) (put : Option α → σ) :
    Blamed root (do return put (← fill name slot read value)) :=
  (blamed_fill role j hname hread slot).bind fun _ _ => blamed_ok _

variable {role j}

/-- A field of a record that the record does not declare. -/
theorem blamed_unknownField (hplays : Plays root role j) (hrecord : role ≠ node)
    (hentry : (name, value) ∈ j.entries role.order) (hnew : name ∉ role.order) :
    Blamed root (throw (.unknownField name) : Decoded σ) := by
  cases j with
  | object fields closed =>
    refine blamed_error (.key hplays (List.mem_map_of_mem hentry) ?_)
    rwa [declared_of_record hrecord]
  | array items => exact absurd (List.of_mem_zip hentry).1 hnew
  | _ => simp [entries] at hentry

end Record

end Blamed

section Readers

variable {root j : Json}

theorem blamed_tensor (hplays : Plays root .tensor j) : Blamed root (Tensor.ofJson j) := by
  have hfield : ∀ entry ∈ j.entries tensor.order, ∀ s : Tensor.Slots,
      Blamed root (s.field entry.1 entry.2) := by
    rintro ⟨name, value⟩ hentry s
    have hvalue : Within root value := hplays.within.entry hentry
    unfold Tensor.Slots.field
    dsimp only
    split
    · refine blamed_slot tensor j (by simp [declared, order]) ?_ _ _
      exact blamed_asShape hvalue
    · refine blamed_slot tensor j (by simp [declared, order]) ?_ _ _
      refine blamed_asList hvalue ?_
      rintro items rfl v hv
      exact blamed_asFloat (hvalue.item hv)
    · refine blamed_unknownField hplays (by decide) hentry ?_
      simp_all [order]
  refine (blamed_walkRecord hplays.within hfield _).bind fun s _ => ?_
  refine (blamed_required tensor j (by simp [declared, order]) _).bind fun shape _ => ?_
  refine (blamed_required tensor j (by simp [declared, order]) _).bind fun data _ => ?_
  intro fault h
  obtain ⟨error, -, rfl⟩ := mapError_eq_error.mp h
  exact .silent (silent_inconsistent error)

theorem blamed_constant (hplays : Plays root .constant j) :
    Blamed root (FrozenConstant.ofJson j) := by
  have hfield : ∀ entry ∈ j.entries constant.order, ∀ s : FrozenConstant.Slots,
      Blamed root (s.field entry.1 entry.2) := by
    rintro ⟨name, value⟩ hentry s
    unfold FrozenConstant.Slots.field
    dsimp only
    split
    · refine blamed_slot constant j (by simp [declared, order]) ?_ _ _
      exact blamed_asString (hplays.within.entry hentry)
    · refine blamed_slot constant j (by simp [declared, order]) ?_ _ _
      exact blamed_tensor (.tensor hplays hentry)
    · refine blamed_unknownField hplays (by decide) hentry ?_
      simp_all [order]
  refine (blamed_walkRecord hplays.within hfield _).bind fun s _ => ?_
  refine (blamed_required constant j (by simp [declared, order]) _).bind fun name _ => ?_
  refine (blamed_required constant j (by simp [declared, order]) _).bind fun tensor _ => ?_
  exact blamed_ok _

theorem blamed_input (hplays : Plays root .input j) : Blamed root (InputDecl.ofJson j) := by
  have hfield : ∀ entry ∈ j.entries input.order, ∀ s : InputDecl.Slots,
      Blamed root (s.field entry.1 entry.2) := by
    rintro ⟨name, value⟩ hentry s
    have hvalue : Within root value := hplays.within.entry hentry
    unfold InputDecl.Slots.field
    dsimp only
    split
    · refine blamed_slot input j (by simp [declared, order]) ?_ _ _
      exact blamed_asString hvalue
    · refine blamed_slot input j (by simp [declared, order]) ?_ _ _
      exact blamed_asShape hvalue
    · refine blamed_unknownField hplays (by decide) hentry ?_
      simp_all [order]
  refine (blamed_walkRecord hplays.within hfield _).bind fun s _ => ?_
  refine (blamed_required input j (by simp [declared, order]) _).bind fun name _ => ?_
  refine (blamed_required input j (by simp [declared, order]) _).bind fun shape _ => ?_
  exact blamed_ok _

theorem blamed_params (hplays : Plays root .params j) : Blamed root (ConvParams.ofJson j) := by
  have hfield : ∀ entry ∈ j.entries params.order, ∀ s : ConvParams.Slots,
      Blamed root (s.field entry.1 entry.2) := by
    rintro ⟨name, value⟩ hentry s
    have hvalue : Within root value := hplays.within.entry hentry
    unfold ConvParams.Slots.field
    dsimp only
    split
    case h_4 =>
      refine blamed_slot params j (by simp [declared, order]) ?_ _ _
      exact blamed_asBelow hvalue
    case h_5 =>
      refine blamed_unknownField hplays (by decide) hentry ?_
      simp_all [order]
    all_goals
      refine blamed_slot params j (by simp [declared, order]) ?_ _ _
      exact blamed_asPair hvalue
  refine (blamed_walkRecord hplays.within hfield _).bind fun s _ => ?_
  refine (blamed_required params j (by simp [declared, order]) _).bind fun stride _ => ?_
  refine (blamed_required params j (by simp [declared, order]) _).bind fun padding _ => ?_
  refine (blamed_required params j (by simp [declared, order]) _).bind fun dilation _ => ?_
  refine (blamed_required params j (by simp [declared, order]) _).bind fun groups _ => ?_
  exact blamed_ok _

/-- The name of an operator is blamed where the operator is unknown. -/
theorem blamed_kind {v : Json} (hplays : Plays root .node j) (hop : ("op", v) ∈ j.entries []) :
    Blamed root (OperatorKind.ofJson v) := by
  have hvalue : Within root v := hplays.within.entry hop
  unfold OperatorKind.ofJson
  split
  · split
    · exact blamed_ok _
    · exact blamed_error (.operator hplays hop)
  · split
    · exact blamed_ok _
    · exact blamed_error (.silent (silent_of_mem (by simp)))
  · exact blamed_wrongType hvalue

theorem blamed_operatorField {kind : OperatorKind} {name : String} {value : Json}
    (hplays : Plays root .node j) (hkind : Op.kindOf (j.entries []) = .ok kind)
    (hentry : (name, value) ∈ j.entries []) (s : Op.Slots) :
    Blamed root (s.field kind name value) := by
  have hvalue : Within root value := hplays.within.entry hentry
  have hstring : Blamed root (asString value) := blamed_asString hvalue
  unfold Op.Slots.field
  split
  · rename_i hmem
    have hname : name ∈ node.declared j := by simp [declared, hkind, hmem]
    split
    case h_6 =>
      refine blamed_slot node j hname ?_ _ _
      split
      · exact blamed_asOption hstring
      · exact hstring.map _
    case h_5 | h_7 => exact blamed_slot node j hname (blamed_asOption hstring) _ _
    case h_8 => exact blamed_slot node j hname (blamed_asFloat hvalue) _ _
    case h_9 => exact blamed_slot node j hname (blamed_params (.params hplays hname hentry)) _ _
    case h_10 => exact blamed_ok s
    all_goals exact blamed_slot node j hname hstring _ _
  · exact blamed_ok s

theorem blamed_finish {kind : OperatorKind} (hkind : Op.kindOf (j.entries []) = .ok kind)
    (s : Op.Slots) : Blamed root (s.finish kind) := by
  have hrequired {α : Type} {name : String} (hname : name ∈ kind.fields) (slot : Option α) :
      Blamed root (required name slot) :=
    blamed_required node j (by simp [declared, hkind, hname]) slot
  cases kind with
  | batchNorm =>
    refine (hrequired (by simp [OperatorKind.fields]) _).bind fun input _ => ?_
    refine (hrequired (by simp [OperatorKind.fields]) _).bind fun mean _ => ?_
    refine (hrequired (by simp [OperatorKind.fields]) _).bind fun var _ => ?_
    refine (hrequired (by simp [OperatorKind.fields]) _).bind fun eps _ => ?_
    exact blamed_ok _
  | conv2d =>
    refine (hrequired (by simp [OperatorKind.fields]) _).bind fun input _ => ?_
    refine (hrequired (by simp [OperatorKind.fields]) _).bind fun weight _ => ?_
    refine (hrequired (by simp [OperatorKind.fields]) _).bind fun params _ => ?_
    exact blamed_ok _
  | deformConv2d =>
    refine (hrequired (by simp [OperatorKind.fields]) _).bind fun input _ => ?_
    refine (hrequired (by simp [OperatorKind.fields]) _).bind fun offset _ => ?_
    refine (hrequired (by simp [OperatorKind.fields]) _).bind fun weight _ => ?_
    refine (hrequired (by simp [OperatorKind.fields]) _).bind fun params _ => ?_
    exact blamed_ok _
  | sigmoid =>
    refine (hrequired (by simp [OperatorKind.fields]) _).bind fun input _ => ?_
    exact blamed_ok _

theorem blamed_kindOf (hplays : Plays root .node j) : Blamed root (Op.kindOf (j.entries [])) := by
  have hop : "op" ∈ node.declared j := by
    unfold declared
    dsimp only
    split <;> simp
  refine (blamed_foldlM ?_ _).bind fun kind _ => blamed_required node j hop kind
  rintro ⟨name, value⟩ hentry kind
  dsimp only
  split
  · rename_i hname
    subst hname
    exact blamed_fill node j hop (blamed_kind hplays hentry) kind
  · exact blamed_ok kind

/-- The operator is read from the fields beside the output. -/
theorem blamed_operator (hplays : Plays root .node j) :
    Blamed root (Op.ofFields ((j.entries []).filter (·.1 ≠ "output"))) := by
  rw [Op.ofFields, kindOf_filter (by simp)]
  refine (blamed_kindOf hplays).bind fun kind hkind => ?_
  refine (blamed_foldlM ?_ _).bind fun s _ => blamed_finish hkind s
  intro entry hentry s
  exact blamed_operatorField hplays hkind (List.mem_of_mem_filter hentry) s

theorem blamed_node (hplays : Plays root .node j) : Blamed root (Node.ofJson j) := by
  have houtput : "output" ∈ node.declared j := by
    unfold declared
    dsimp only
    split <;> simp
  cases j with
  | object fields closed =>
    refine (blamed_walkFields ?_ _ _).bind fun s hwalk => ?_
    · rintro ⟨name, value⟩ hentry s
      unfold Node.Slots.field
      dsimp only
      split
      · rename_i hname
        subst hname
        exact blamed_slot node _ houtput (blamed_asString (hplays.within.field hentry)) _ _
      · split
        · exact blamed_ok _
        · exact blamed_error (.silent (silent_of_mem (by simp)))
    · refine (blamed_required node _ houtput _).bind fun output _ => ?_
      rw [others_of_walkFields hwalk]
      exact (blamed_operator hplays).bind fun op _ => blamed_ok _
  | _ => exact blamed_wrongType hplays.within

theorem blamed_shapes (hj : Within root j) : Blamed root (TracedGraph.shapesOfJson j) := by
  cases j with
  | object fields closed =>
    rw [TracedGraph.shapesOfJson]
    refine blamed_walkFields ?_ _ _
    rintro ⟨name, value⟩ hentry t
    exact (blamed_asShape (hj.field hentry)).bind fun _ _ => blamed_ok _
  | _ => exact blamed_wrongType hj

theorem blamed_graph (hplays : Plays root .graph j) : Blamed root (TracedGraph.ofJson j) := by
  have hfield : ∀ entry ∈ j.entries graph.order, ∀ s : TracedGraph.Slots,
      Blamed root (s.field entry.1 entry.2) := by
    rintro ⟨name, value⟩ hentry s
    have hvalue : Within root value := hplays.within.entry hentry
    unfold TracedGraph.Slots.field
    dsimp only
    split
    · refine blamed_slot graph j (by simp [declared, order]) (blamed_asList hvalue ?_) _ _
      rintro items rfl v hv
      exact blamed_input (.input hplays hentry hv)
    · refine blamed_slot graph j (by simp [declared, order]) (blamed_asList hvalue ?_) _ _
      rintro items rfl v hv
      exact blamed_node (.node hplays hentry hv)
    · refine blamed_slot graph j (by simp [declared, order]) (blamed_asList hvalue ?_) _ _
      rintro items rfl v hv
      exact blamed_asString (hvalue.item hv)
    · exact blamed_slot graph j (by simp [declared, order]) (blamed_shapes hvalue) _ _
    · refine blamed_unknownField hplays (by decide) hentry ?_
      simp_all [order]
  refine (blamed_walkRecord hplays.within hfield _).bind fun s _ => ?_
  refine (blamed_required graph j (by simp [declared, order]) _).bind fun inputs _ => ?_
  refine (blamed_required graph j (by simp [declared, order]) _).bind fun nodes _ => ?_
  refine (blamed_required graph j (by simp [declared, order]) _).bind fun outputs _ => ?_
  refine (blamed_required graph j (by simp [declared, order]) _).bind fun shapes _ => ?_
  exact blamed_ok _

theorem blamed_artifact (root : Json) : Blamed root (StatedArtifact.ofJson root) := by
  have hplays : Plays root .artifact root := .artifact
  have hfield : ∀ entry ∈ root.entries artifact.order, ∀ s : StatedArtifact.Slots,
      Blamed root (s.field entry.1 entry.2) := by
    rintro ⟨name, value⟩ hentry s
    have hvalue : Within root value := hplays.within.entry hentry
    have hstring : Blamed root (asString value) := blamed_asString hvalue
    unfold StatedArtifact.Slots.field
    dsimp only
    split
    case h_1 =>
      exact blamed_slot artifact root (by simp [declared, order]) (blamed_asBounded hvalue) _ _
    case h_3 =>
      refine blamed_slot artifact root (by simp [declared, order]) ?_ _ _
      exact blamed_graph (.graph hplays hentry)
    case h_4 =>
      refine blamed_slot artifact root (by simp [declared, order]) (blamed_asList hvalue ?_) _ _
      rintro items rfl v hv
      exact blamed_constant (.constant hplays hentry hv)
    case h_7 =>
      refine blamed_unknownField hplays (by decide) hentry ?_
      simp_all [order]
    all_goals exact blamed_slot artifact root (by simp [declared, order]) hstring _ _
  refine (blamed_walkRecord hplays.within hfield _).bind fun s _ => ?_
  refine (blamed_required artifact root (by simp [declared, order]) _).bind fun version _ => ?_
  refine (blamed_required artifact root (by simp [declared, order]) _).bind fun name _ => ?_
  refine (blamed_required artifact root (by simp [declared, order]) _).bind fun graph _ => ?_
  refine (blamed_required artifact root (by simp [declared, order]) _).bind fun constants _ => ?_
  refine (blamed_required artifact root (by simp [declared, order]) _).bind fun graphSum _ => ?_
  refine (blamed_required artifact root (by simp [declared, order]) _).bind fun sourceSum _ => ?_
  exact blamed_ok _

end Readers

/-- What a refusal that names an unknown field goes back to. -/
inductive Names (root : Json) : Fault → String → Prop where
  | key {role : FormatRole} {j : Json} {key : String} (hplays : Plays root role j)
      (hkey : key ∈ j.keys) (hundeclared : key ∉ role.declared j) :
      Names root (.unknownField key) (String.ofList (key.toList.takeWhile (· != backquote)))
  | string {s name : String} (hwithin : Within root (.string s))
      (hcites : Cites (Fault.wrongType (some s)).message name) :
      Names root (.wrongType (some s)) name
  | operator {j : Json} {s name : String} (hplays : Plays root .node j)
      (hop : ("op", .string s) ∈ j.entries []) (hcites : Cites (unknownOperator s).message name) :
      Names root (unknownOperator s) name

theorem names_of_blames {root : Json} {fault : Fault} {name : String} (h : Blames root fault)
    (hname : unknownFieldIn? fault.message = some name) : Names root fault name := by
  cases h with
  | key hplays hkey hundeclared =>
    rw [unknownFieldIn?_unknownField, Option.some.injEq] at hname
    exact hname ▸ .key hplays hkey hundeclared
  | string hwithin => exact .string hwithin (unknownFieldIn?_eq_some_iff.mp hname)
  | operator hplays hop => exact .operator hplays hop (unknownFieldIn?_eq_some_iff.mp hname)
  | silent hsilent =>
    rw [hsilent] at hname
    cases hname

theorem unknownFieldIn?_of_names {root : Json} {fault : Fault} {name : String}
    (h : Names root fault name) : unknownFieldIn? fault.message = some name := by
  cases h with
  | key => exact unknownFieldIn?_unknownField _
  | string hwithin hcites => exact unknownFieldIn?_eq_some_iff.mpr hcites
  | operator hplays hop hcites => exact unknownFieldIn?_eq_some_iff.mpr hcites

end FormatRole

namespace Artifact

open Fault FormatRole

/-- A fault of an artifact's text goes back to its tree. -/
theorem blames_of_decode {document : Document} {fault : Fault}
    (h : Json.decode StatedArtifact.ofJson document = .error fault) :
    Blames document.root fault := by
  have hblamed : Blamed document.root (Json.decode StatedArtifact.ofJson document) := by
    refine (blamed_artifact document.root).bind fun s _ => ?_
    split
    · exact blamed_ok s
    · exact blamed_error (.silent (silent_of_mem (by simp)))
  exact hblamed fault h

theorem verify_ne_unknownField {s : StatedArtifact} {name : String} :
    s.verify ≠ .error (.unknownField name) := by
  obtain ⟨-, h⟩ | ⟨-, -, h⟩ | ⟨-, -, -, h⟩ | ⟨-, -, -, h⟩ := s.verify_cases <;> simp [h]

theorem ofFault_eq_unknownField {fault : Fault} {name : String} :
    ofFault fault = .unknownField name ↔ unknownFieldIn? fault.message = some name := by
  unfold ofFault
  cases unknownFieldIn? fault.message <;> simp

/-- A text is refused for an unknown field exactly if its first fault reads as if it named one. The
name is an undeclared key up to the first backquote in it, or it stands in a message that shows a
string of the text or the name of an operator. An undeclared key without a backquote is named in
full. -/
theorem decode_eq_unknownField_iff (text : String) :
    (∀ name, decode text = .error (.unknownField name) ↔ text.utf8ByteSize ≤ maxBytes ∧
      ∃ fault, Json.decode StatedArtifact.ofJson (Document.ofString text) = .error fault ∧
        Names (Document.ofString text).root fault name) ∧
    ∀ key, text.utf8ByteSize ≤ maxBytes → backquote ∉ key.toList →
      Json.decode StatedArtifact.ofJson (Document.ofString text) = .error (.unknownField key) →
      decode text = .error (.unknownField key) ∧
        ∃ role j, Plays (Document.ofString text).root role j ∧ key ∈ j.keys ∧
          key ∉ role.declared j := by
  have hnames (name : String) : decode text = .error (.unknownField name) ↔
      text.utf8ByteSize ≤ maxBytes ∧
        ∃ fault, Json.decode StatedArtifact.ofJson (Document.ofString text) = .error fault ∧
          Names (Document.ofString text).root fault name := by
    by_cases hsize : maxBytes < text.utf8ByteSize
    · have htoo : decode text = .error (.tooLarge text.utf8ByteSize maxBytes) := by
        rw [decode, checkSize, if_pos hsize, error_bind]
      rw [htoo]
      simp [Nat.not_le.mpr hsize]
    · rw [decode, checkSize, if_neg hsize, ok_bind, bind_eq_error]
      constructor
      · rintro (hread | ⟨s, -, hverify⟩)
        · obtain ⟨fault, hfault, hname⟩ := mapError_eq_error.mp hread
          exact ⟨Nat.le_of_not_lt hsize, fault, hfault,
            names_of_blames (blames_of_decode hfault) (ofFault_eq_unknownField.mp hname.symm)⟩
        · exact absurd hverify verify_ne_unknownField
      · rintro ⟨-, fault, hfault, hname⟩
        have hof := ofFault_eq_unknownField.mpr (unknownFieldIn?_of_names hname)
        exact .inl (mapError_eq_error.mpr ⟨fault, hfault, hof.symm⟩)
  refine ⟨hnames, ?_⟩
  intro key hsmall hplain hfault
  have hwhole : String.ofList (key.toList.takeWhile (· != backquote)) = key := by
    rw [takeWhile_plain hplain, String.ofList_toList]
  cases blames_of_decode hfault with
  | key hplays hkey hundeclared =>
    have hname := Names.key hplays hkey hundeclared
    rw [hwhole] at hname
    exact ⟨(hnames key).mpr ⟨hsmall, _, hfault, hname⟩, _, _, hplays, hkey, hundeclared⟩
  | silent hsilent =>
    rw [Silent, unknownFieldIn?_unknownField] at hsilent
    cases hsilent

/-- A text with one key, and that is undeclared. -/
def strangeTree : Json := .record [("zz", .null)]

theorem printable_strangeTree : Printable maxDepth strangeTree := by
  refine printable_mono (show Printable 1 _ from .object ?_) (by decide)
  simp [Printable.null]

/-- The key is named. -/
theorem decode_strangeTree : decode strangeTree.text = .error (.unknownField "zz") ∧
    ∃ role j, Plays (Document.ofString strangeTree.text).root role j ∧ "zz" ∈ j.keys ∧
      "zz" ∉ role.declared j := by
  have hdocument := Document.ofString_text printable_strangeTree
  have hsize : strangeTree.text.utf8ByteSize ≤ maxBytes := by
    refine (Json.utf8ByteSize_text_le printable_strangeTree).trans ?_
    decide
  refine (decode_eq_unknownField_iff strangeTree.text).2 "zz" hsize (by decide) ?_
  rw [hdocument]
  rfl

/-- A string with the words of a message about an unknown field in it. -/
def misleading : String := "unknown field " ++ backquoted "zz"

/-- A text with the string where the version has to be. -/
def misleadingTree : Json := .record [("schema_version", .string misleading)]

theorem printable_misleadingTree : Printable maxDepth misleadingTree := by
  refine printable_mono (show Printable 1 _ from .object ?_) (by decide)
  simp [Printable.string]

/-- The text has one object, and its one key is another. -/
theorem notMem_keys_misleadingTree {j : Json} (h : Within misleadingTree j) : "zz" ∉ j.keys := by
  have hall : j = misleadingTree ∨ j = .string misleading := by
    induction h with
    | root => exact .inl rfl
    | item _ _ ih =>
      rcases ih with heq | heq
      · cases heq
      · cases heq
    | field _ hfield ih =>
      rcases ih with heq | heq
      · obtain ⟨rfl, -⟩ := Json.object.inj heq
        exact .inr (Prod.mk.inj (List.mem_singleton.mp hfield)).2
      · cases heq
  rcases hall with rfl | rfl
  · decide
  · exact List.not_mem_nil

/-- A text is refused for a field that none of its objects has: the words come from a string. -/
theorem decode_misleading :
    decode misleadingTree.text = .error (.unknownField "zz") ∧
      ∀ j, Within (Document.ofString misleadingTree.text).root j → "zz" ∉ j.keys := by
  have hdocument := Document.ofString_text printable_misleadingTree
  have hsize : misleadingTree.text.utf8ByteSize ≤ maxBytes := by
    refine (Json.utf8ByteSize_text_le printable_misleadingTree).trans ?_
    decide +kernel
  have hread : Json.decode StatedArtifact.ofJson ⟨misleadingTree, true⟩ =
      .error (.wrongType (some misleading)) := rfl
  have hname : ofFault (.wrongType (some misleading)) = .unknownField "zz" := by
    apply ofFault_eq_unknownField.mpr
    decide +kernel
  rw [hdocument]
  refine ⟨?_, fun j => notMem_keys_misleadingTree⟩
  rw [decode, checkSize, if_neg (by omega), ok_bind, hdocument, hread]
  exact congrArg Except.error hname

end Artifact

end TensorParity
