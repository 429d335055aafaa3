import TensorParity.Proofs.Json.Decode
import TensorParity.Proofs.Shape
import TensorParity.Record.Node
import TensorParity.Record.Tensor

/-!
Records are read back from the trees that are written for them. Shapes must hold words and numbers
must be finite; parameters of convolutions are words by their type, and so are the sizes of a
tensor. -/
namespace TensorParity

open Json

/-- Whether every element is finite. -/
def Tensor.Finite (t : Tensor Float) : Prop := ∀ x ∈ t.data.toList, x.isFinite = true

theorem Tensor.ofJson_toJson {t : Tensor Float} (h : t.Finite) : ofJson t.toJson = .ok t := by
  have hshape := asShape_ofShape t.inWords
  have hdata : asList asFloat (.array (t.data.toList.map .ofFloat)) = .ok t.data.toList :=
    asList_map fun x hx => asFloat_ofFloat (h x hx)
  have hparts :
      (Tensor.ofArray t.shape t.data.toList.toArray).mapError Fault.inconsistent = .ok t := by
    rw [Array.toArray_toList, t.ofArray_data]
    rfl
  simpa [ofJson, toJson, Json.record, walkRecord, walkFields, Slots.field, fill, required, hshape,
    hdata] using hparts

theorem InputDecl.ofJson_toJson {d : InputDecl} (h : d.shape.InWords) :
    ofJson d.toJson = .ok d := by
  have hshape := asShape_ofShape h
  simp [ofJson, toJson, Json.record, walkRecord, walkFields, Slots.field, fill, required, asString,
    hshape]
  rfl

theorem ConvParams.ofJson_toJson (p : ConvParams) : ofJson p.toJson = .ok p := by
  obtain ⟨⟨strideV, paddingV, dilationV, hstrideV, hpaddingV, hdilationV⟩,
    ⟨strideH, paddingH, dilationH, hstrideH, hpaddingH, hdilationH⟩, groups, hgroups⟩ := p
  have hstride := asPair_ofNat hstrideV hstrideH
  have hpadding := asPair_ofNat hpaddingV hpaddingH
  have hdilation := asPair_ofNat hdilationV hdilationH
  have hgroups' := asBelow_ofNat hgroups
  simp [ofJson, toJson, Json.record, walkRecord, walkFields, Slots.field, fill, required, ofShape,
    hstride, hpadding, hdilation, hgroups']
  rfl

/-- Whether the numbers among an operator's fields are finite. -/
def Op.Finite : Op → Prop
  | .batchNorm _ _ _ _ _ eps => eps.isFinite = true
  | _ => True

/-- The fields of an operator before the last, the last field, and the operator they make. -/
theorem Op.ofFields_eq {kind : OperatorKind} {init : List (String × Json)} {name : String}
    {value : Json} {s s' : Op.Slots} {op : Op} (hkind : kindOf (init ++ [(name, value)]) = .ok kind)
    (hinit : init.foldlM (fun (s : Op.Slots) (name, value) => s.field kind name value) {} = .ok s)
    (hlast : s.field kind name value = .ok s') (hfinish : s'.finish kind = .ok op) :
    ofFields (init ++ [(name, value)]) = .ok op := by
  rw [ofFields, hkind, ok_bind, List.foldlM_append, hinit, ok_bind, List.foldlM_cons]
  simp only [hlast]
  exact hfinish

theorem Op.Slots.field_params {kind : OperatorKind} (hkind : "params" ∈ kind.fields) {s : Op.Slots}
    (hnone : s.params = none) (params : ConvParams) :
    s.field kind "params" params.toJson = .ok { s with params := some params } := by
  rw [Slots.field, if_pos hkind, hnone]
  simp only [fill, params.ofJson_toJson]
  rfl

theorem Op.Slots.field_eps {s : Op.Slots} (hnone : s.eps = none) {eps : Float}
    (heps : eps.isFinite = true) :
    s.field .batchNorm "eps" (.ofFloat eps) = .ok { s with eps := some eps } := by
  rw [Slots.field, if_pos (by decide), hnone]
  simp only [fill, asFloat_ofFloat heps]
  rfl

/-- An operator is read back from its name and its own fields. -/
theorem Op.ofFields_fields {op : Op} (h : op.Finite) :
    ofFields (("op", .string op.kind.name) :: op.fields) = .ok op := by
  -- Only the last field has a reader that does not evaluate by itself.
  cases op with
  | batchNorm input mean var weight bias eps =>
    have hinit : [("op", .string "batch_norm"), ("input", .string input),
        ("running_mean", .string mean), ("running_var", .string var),
        ("weight", optionalName weight), ("bias", optionalName bias)].foldlM
          (fun (s : Slots) (name, value) => s.field .batchNorm name value) {} =
        .ok { input := some input, runningMean := some mean, runningVar := some var,
              weight := some weight, bias := some bias } := by
      cases weight <;> cases bias <;> rfl
    exact ofFields_eq rfl hinit (Slots.field_eps rfl h) rfl
  | conv2d input weight bias params =>
    have hinit : [("op", .string "conv2d"), ("input", .string input), ("weight", .string weight),
        ("bias", optionalName bias)].foldlM
          (fun (s : Slots) (name, value) => s.field .conv2d name value) {} =
        .ok { input := some input, weight := some (some weight), bias := some bias } := by
      cases bias <;> rfl
    exact ofFields_eq rfl hinit (Slots.field_params (by decide) rfl params) rfl
  | deformConv2d input offset mask weight bias params =>
    have hinit : [("op", .string "deform_conv2d"), ("input", .string input),
        ("offset", .string offset), ("mask", optionalName mask), ("weight", .string weight),
        ("bias", optionalName bias)].foldlM
          (fun (s : Slots) (name, value) => s.field .deformConv2d name value) {} =
        .ok { input := some input, offset := some offset, mask := some mask,
              weight := some (some weight), bias := some bias } := by
      cases mask <;> cases bias <;> rfl
    exact ofFields_eq rfl hinit (Slots.field_params (by decide) rfl params) rfl
  | sigmoid input => rfl

/-! Trees of depth two at most are printable, and well formed. -/

theorem ConvParams.printable_toJson (p : ConvParams) (depth : Nat) :
    Printable (depth + 2) p.toJson := by
  have hpair {m n : Nat} (hm : m < Shape.wordLimit) (hn : n < Shape.wordLimit) :
      Printable (depth + 1) (.ofShape [m, n]) :=
    printable_ofShape (by simp [hm, hn])
  refine .object ?_
  simp only [List.forall_mem_cons, List.not_mem_nil, false_implies, implies_true, and_true]
  exact ⟨hpair p.vertical.words.1 p.horizontal.words.1,
    hpair p.vertical.words.2.1 p.horizontal.words.2.1,
    hpair p.vertical.words.2.2 p.horizontal.words.2.2, printable_ofNat p.word⟩

theorem InputDecl.printable_toJson {d : InputDecl} (h : d.shape.InWords) (depth : Nat) :
    Printable (depth + 2) d.toJson := by
  refine .object ?_
  simp only [List.forall_mem_cons, List.not_mem_nil, false_implies, implies_true, and_true]
  exact ⟨.string _, printable_ofShape h⟩

theorem Tensor.printable_toJson (t : Tensor Float) (depth : Nat) :
    Printable (depth + 2) t.toJson := by
  refine .object ?_
  simp only [List.forall_mem_cons, List.not_mem_nil, false_implies, implies_true, and_true]
  exact ⟨printable_ofShape t.inWords, printable_map fun x _ => printable_ofFloat x⟩

theorem Op.printable_fields (op : Op) (depth : Nat) :
    ∀ field ∈ op.fields, Printable (depth + 2) field.2 := by
  cases op <;>
    simp only [Op.fields, List.forall_mem_cons, List.not_mem_nil, false_implies, implies_true,
      and_true, optionalName, Printable.string, printable_ofOption, printable_ofFloat,
      ConvParams.printable_toJson]

theorem Node.printable_toJson (n : Node) (depth : Nat) : Printable (depth + 3) n.toJson := by
  refine .object ?_
  simp only [List.forall_mem_cons]
  exact ⟨.string _, .string _, n.op.printable_fields depth⟩

/-- A printable tree was read to its end. -/
theorem wellFormed_of_printable {depth : Nat} {j : Json} (h : Printable depth j) :
    j.wellFormed = true := by
  induction h with
  | null | bool | number | string => rfl
  | array hitems ih =>
    rename_i js
    have hall : ∀ js : List Json, (∀ j ∈ js, j.wellFormed = true) → wellFormedItems js = true := by
      intro js
      induction js with
      | nil => simp [wellFormedItems]
      | cons j js ih =>
        intro hjs
        rw [wellFormedItems, hjs j (by simp), ih fun j' hj' => hjs j' (by simp [hj'])]
        rfl
    rw [wellFormed]
    exact hall js ih
  | object hfields ih =>
    rename_i fields
    have hall : ∀ fields : List (String × Json), (∀ field ∈ fields, field.2.wellFormed = true) →
        wellFormedFields fields = true := by
      intro fields
      induction fields with
      | nil => simp [wellFormedFields]
      | cons field fields ih =>
        intro hall
        rw [wellFormedFields, hall field (by simp), ih fun field' h => hall field' (by simp [h])]
        rfl
    rw [wellFormed, hall fields ih]
    rfl

/-- The walk over a node's object keeps every field that is not the output. -/
theorem Node.foldlM_fields {fields : List (String × Json)}
    (h : ∀ field ∈ fields, field.1 ≠ "output" ∧ field.2.wellFormed = true) (s : Node.Slots) :
    fields.foldlM (fun s (name, value) => s.field name value) s =
      (.ok { s with others := fields.reverse ++ s.others } : Decoded Node.Slots) := by
  induction fields generalizing s with
  | nil => rfl
  | cons field fields ih =>
    obtain ⟨name, value⟩ := field
    obtain ⟨hname, hvalue⟩ := h (name, value) (by simp)
    simp only at hname hvalue
    rw [List.foldlM_cons]
    simp only [Node.Slots.field, if_neg hname, if_pos hvalue]
    exact (ih (fun field hfield => h field (by simp [hfield])) _).trans (by simp)

theorem Op.name_fields (op : Op) : ∀ field ∈ op.fields, field.1 ≠ "output" := by
  cases op <;> simp [Op.fields]

theorem Node.ofJson_toJson {n : Node} (h : n.op.Finite) : Node.ofJson n.toJson = .ok n := by
  have hfields : ∀ field ∈ ("op", Json.string n.op.kind.name) :: n.op.fields,
      field.1 ≠ "output" ∧ field.2.wellFormed = true := by
    rw [List.forall_mem_cons]
    exact ⟨⟨by simp, rfl⟩, fun field hfield => ⟨n.op.name_fields field hfield,
      wellFormed_of_printable (n.op.printable_fields 0 field hfield)⟩⟩
  have houtput : Slots.field {} "output" (.string n.output) = .ok { output := some n.output } := rfl
  have hwalk := Node.foldlM_fields hfields { output := some n.output }
  have hslots : walkFields Slots.field {} (("output", .string n.output) ::
      ("op", .string n.op.kind.name) :: n.op.fields) true =
      .ok { output := some n.output,
            others := (("op", .string n.op.kind.name) :: n.op.fields).reverse } := by
    rw [walkFields, List.foldlM_cons]
    simp only [houtput, ok_bind, hwalk, List.append_nil]
    rfl
  rw [toJson, Json.record, ofJson, hslots, ok_bind]
  simp only [required, List.reverse_reverse, Op.ofFields_fields h]
  rfl

end TensorParity
