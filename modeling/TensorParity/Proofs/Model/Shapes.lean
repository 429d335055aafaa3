import TensorParity.Model.Run
import TensorParity.Proofs.Kernel.Shapes
import TensorParity.Proofs.Table

/-!
Two runs over inputs of the same shapes, at any precisions, of models that differ in the numbers of
their constants at most, go the same way: they refuse alike, or their values have the same shapes.
They part only where a deformable convolution of one of them leaves a buffer.
-/
namespace TensorParity

variable {α β γ δ : Type}

/-- The refusal of a node that sampled outside its input. -/
def ExecError.outside (node : String) : ExecError :=
  .kernel node .deformConv2d (.outsideBuffer .deformConv2d)

/-- Results that are related, or the same refusal, unless one of the two left a buffer. -/
inductive Alike (r : α → β → Prop) : Except ExecError α → Except ExecError β → Prop where
  | ok {a : α} {b : β} (h : r a b) : Alike r (.ok a) (.ok b)
  | error (e : ExecError) : Alike r (.error e) (.error e)
  | left (node : String) (y : Except ExecError β) : Alike r (.error (.outside node)) y
  | right (x : Except ExecError α) (node : String) : Alike r x (.error (.outside node))

namespace Alike

variable {r : α → β → Prop} {s : γ → δ → Prop}

theorem bind {x : Except ExecError α} {y : Except ExecError β} {f : α → Except ExecError γ}
    {g : β → Except ExecError δ} (h : Alike r x y) (hnext : ∀ a b, r a b → Alike s (f a) (g b)) :
    Alike s (x >>= f) (y >>= g) := by
  cases h with
  | ok h => exact hnext _ _ h
  | error e => exact .error e
  | left node y => exact .left node _
  | right x node => exact .right _ node

theorem foldlM {step : α → γ → Except ExecError α} {step' : β → δ → Except ExecError β}
    {items : List γ} {items' : List δ} (hitems : List.Forall₂ s items items')
    (hstep : ∀ a b c d, r a b → s c d → Alike r (step a c) (step' b d)) {a : α} {b : β}
    (h : r a b) :
    Alike r (items.foldlM step a) (items'.foldlM step' b) := by
  induction hitems generalizing a b with
  | nil => exact .ok h
  | cons hhead _ ih =>
    rw [List.foldlM_cons, List.foldlM_cons]
    exact (hstep _ _ _ _ h hhead).bind fun _ _ hnext => ih hnext

theorem mapM {f : γ → Except ExecError α} {g : γ → Except ExecError β}
    (hstep : ∀ c, Alike r (f c) (g c)) (items : List γ) :
    Alike (List.Forall₂ r) (items.mapM f) (items.mapM g) := by
  induction items with
  | nil => exact .ok .nil
  | cons c items ih =>
    rw [List.mapM_cons, List.mapM_cons]
    exact (hstep c).bind fun _ _ hhead => ih.bind fun _ _ htail => .ok (.cons hhead htail)

/-- Results that must be equal are, unless one of the two alone left a buffer, or both at different
nodes. -/
theorem eq_iff {x y : Except ExecError α} (h : Alike (· = ·) x y) :
    x = y ↔ ∀ node, x = .error (.outside node) ↔ y = .error (.outside node) := by
  constructor
  · rintro rfl node
    rfl
  · intro hboth
    cases h with
    | ok h => rw [h]
    | error e => rfl
    | left node y => exact ((hboth node).mp rfl).symm
    | right x node => exact (hboth node).mpr rfl

/-- A run beside one that succeeds succeeds as well or leaves a buffer. -/
theorem eq_ok_or {x : Except ExecError α} {y : Except ExecError β} (h : Alike r x y) {a : α}
    (hx : x = .ok a) : (∃ b, y = .ok b ∧ r a b) ∨ ∃ node, y = .error (.outside node) := by
  subst hx
  cases h with
  | ok h => exact .inl ⟨_, rfl, h⟩
  | right _ node => exact .inr ⟨node, rfl⟩

end Alike

/-- Tensors of one shape. -/
def SameShape (t u : Tensor Float) : Prop := t.shape = u.shape

/-- Tables with the same names and the same shapes under them. -/
def SameShapes (v w : Values) : Prop :=
  ∀ name, (v.find? name).map (·.shape) = (w.find? name).map (·.shape)

theorem Precision.shape_quantize (p : Precision) (t : Tensor Float) :
    (p.quantize t).shape = t.shape := by
  cases p <;> rfl

theorem SameShapes.insert {v w : Values} (h : SameShapes v w) (name : String) {t u : Tensor Float}
    (htensor : SameShape t u) : SameShapes (v.insert name t) (w.insert name u) := by
  intro k
  rw [Table.find?_insert, Table.find?_insert]
  split
  · exact congrArg some htensor
  · exact h k

namespace Model

variable {m m' : Model} {p q : Precision} {v w : Values}

theorem alike_lookup (hconstants : SameShapes m.constants m'.constants) (h : SameShapes v w)
    (name : String) : Alike SameShape (m.lookup p v name) (m'.lookup q w name) := by
  have hname := h name
  have hconstant := hconstants name
  unfold lookup
  cases hv : v.find? name <;> cases hw : w.find? name
  · cases hc : m.constants.find? name <;> cases hc' : m'.constants.find? name
    · exact .error _
    · simp [hc, hc'] at hconstant
    · simp [hc, hc'] at hconstant
    · rw [hc, hc'] at hconstant
      refine .ok ((p.shape_quantize _).trans ?_)
      exact (Option.some.inj hconstant).trans (q.shape_quantize _).symm
  · simp [hv, hw] at hname
  · simp [hv, hw] at hname
  · rw [hv, hw] at hname
    exact .ok (Option.some.inj hname)

theorem alike_lookup? (hconstants : SameShapes m.constants m'.constants) (h : SameShapes v w)
    (name : Option String) :
    Alike (fun t u : Option (Tensor Float) => t.map (·.shape) = u.map (·.shape))
      (m.lookup? p v name) (m'.lookup? q w name) := by
  cases name with
  | none => exact .ok rfl
  | some name =>
    exact (alike_lookup hconstants h name).bind fun _ _ hshape => .ok (congrArg some hshape)

/-- Results of one kernel, over operands of the same shapes. -/
theorem alike_mapError {x y : Except KernelError (Tensor Float)} (h : resultShape x = resultShape y)
    (node : String) (kind : OperatorKind) :
    Alike SameShape (x.mapError (.kernel node kind)) (y.mapError (.kernel node kind)) := by
  cases x <;> cases y <;> simp only [resultShape, Except.map, Except.error.injEq, Except.ok.injEq,
    reduceCtorEq] at h
  · subst h
    exact .error _
  · exact .ok h

/-- Two applications of a kernel: all operands are looked up before the kernel runs. -/
theorem alike_apply (hconstants : SameShapes m.constants m'.constants) (h : SameShapes v w)
    (node : Node) : Alike SameShape (m.apply p v node) (m'.apply q w node) := by
  obtain ⟨output, op⟩ := node
  cases op with
  | batchNorm input mean var weight bias eps =>
    refine (alike_lookup? hconstants h weight).bind fun _ _ hweight => ?_
    refine (alike_lookup? hconstants h bias).bind fun _ _ hbias => ?_
    refine (alike_lookup hconstants h input).bind fun _ _ hinput => ?_
    refine (alike_lookup hconstants h mean).bind fun _ _ hmean => ?_
    refine (alike_lookup hconstants h var).bind fun _ _ hvar => ?_
    exact alike_mapError (resultShape_batchNorm hinput hmean hvar hweight hbias) _ _
  | conv2d input weight bias params =>
    refine (alike_lookup? hconstants h bias).bind fun _ _ hbias => ?_
    refine (alike_lookup hconstants h input).bind fun _ _ hinput => ?_
    refine (alike_lookup hconstants h weight).bind fun _ _ hweight => ?_
    exact alike_mapError (resultShape_conv2d hinput hweight hbias) _ _
  | deformConv2d input offset mask weight bias params =>
    refine (alike_lookup? hconstants h mask).bind fun _ _ hmask => ?_
    refine (alike_lookup? hconstants h bias).bind fun _ _ hbias => ?_
    refine (alike_lookup hconstants h input).bind fun _ _ hinput => ?_
    refine (alike_lookup hconstants h offset).bind fun _ _ hoffset => ?_
    refine (alike_lookup hconstants h weight).bind fun _ _ hweight => ?_
    simp only [pure_bind]
    rcases resultShape_deformConv2d hinput hoffset hmask hweight hbias with hsame | hleft | hright
    · exact alike_mapError hsame _ _
    · rw [hleft]
      exact .left output _
    · rw [hright]
      exact .right _ output
  | sigmoid input =>
    refine (alike_lookup hconstants h input).bind fun _ _ hinput => ?_
    exact .ok hinput

theorem alike_step (hconstants : SameShapes m.constants m'.constants) (h : SameShapes v w)
    (node : Node) : Alike SameShapes (m.step p v node) (m'.step q w node) :=
  (alike_apply hconstants h node).bind fun t u hshape => .ok (h.insert node.output
    ((p.shape_quantize t).trans (hshape.trans (q.shape_quantize u).symm)))

theorem alike_bindInput (h : SameShapes v w) (decl : InputDecl) {t u : Tensor Float}
    (htensor : SameShape t u) :
    Alike SameShapes (bindInput p v (decl, t)) (bindInput q w (decl, u)) := by
  have hquantized : SameShape (p.quantize t) (q.quantize u) :=
    (p.shape_quantize t).trans (htensor.trans (q.shape_quantize u).symm)
  have hshape : t.shape = u.shape := htensor
  simp only [bindInput, hshape]
  split
  · exact .ok (h.insert decl.name hquantized)
  · exact .error _

variable {inputs inputs' : List (Tensor Float)}

theorem sameShape_zip (hinputs : List.Forall₂ SameShape inputs inputs') (decls : List InputDecl) :
    List.Forall₂ (fun a b : InputDecl × Tensor Float => a.1 = b.1 ∧ SameShape a.2 b.2)
      (decls.zip inputs) (decls.zip inputs') := by
  induction hinputs generalizing decls with
  | nil => simp
  | cons hhead _ ih =>
    obtain _ | ⟨decl, decls⟩ := decls
    · exact .nil
    · exact .cons ⟨rfl, hhead⟩ (ih decls)

/-- Models that differ in the numbers of their constants at most. -/
structure SameStructure (m m' : Model) : Prop where
  inputs : m.inputs = m'.inputs
  nodes : m.nodes = m'.nodes
  outputs : m.outputs = m'.outputs
  constants : m.constants.map (·.shape) = m'.constants.map (·.shape)

theorem SameStructure.refl (m : Model) : SameStructure m m := ⟨rfl, rfl, rfl, rfl⟩

theorem SameStructure.sameShapes (h : SameStructure m m') :
    SameShapes m.constants m'.constants := by
  intro name
  rw [← Table.find?_map, ← Table.find?_map, h.constants]

theorem alike_evaluate (h : SameStructure m m')
    (hinputs : List.Forall₂ SameShape inputs inputs') :
    Alike SameShapes (m.evaluate p inputs) (m'.evaluate q inputs') := by
  unfold evaluate
  rw [hinputs.length_eq, h.inputs, h.nodes]
  split
  · exact .error _
  refine (Alike.foldlM (sameShape_zip hinputs m'.inputs) ?_ fun _ => rfl).bind fun _ _ hvalues =>
    Alike.foldlM (List.forall₂_same.mpr fun _ _ => rfl) ?_ hvalues
  · rintro _ _ ⟨decl, t⟩ ⟨_, u⟩ hvalues ⟨rfl, htensor⟩
    exact alike_bindInput hvalues decl htensor
  · rintro _ _ node _ hvalues rfl
    exact alike_step h.sameShapes hvalues node

/-- Two runs over inputs of the same shapes. -/
theorem alike_run (h : SameStructure m m') (hinputs : List.Forall₂ SameShape inputs inputs') :
    Alike (List.Forall₂ SameShape) (m.run p inputs) (m'.run q inputs') := by
  unfold run
  rw [h.outputs]
  exact (alike_evaluate h hinputs).bind fun _ _ hvalues =>
    Alike.mapM (alike_lookup h.sameShapes hvalues) m'.outputs

/-- Shapes that are reported are those of the values, or else of the constants. -/
theorem find?_shapes (v : Values) (shapes : Table Shape) (name : String) :
    (v.entries.foldl (fun shapes (name, t) => shapes.insert name t.shape) shapes).find? name =
      ((v.find? name).map (·.shape)).or (shapes.find? name) :=
  Table.find?_foldl_insert (·.shape) v.nodup_keys shapes name

/-- Two traces over inputs of the same shapes. -/
theorem alike_trace (h : SameStructure m m') (hinputs : List.Forall₂ SameShape inputs inputs') :
    Alike (· = ·) (m.trace p inputs) (m'.trace q inputs') := by
  refine (alike_evaluate h hinputs).bind fun v w hvalues => .ok (Table.eq_of_find? fun name => ?_)
  rw [find?_shapes, find?_shapes, hvalues name, h.constants]

end Model

end TensorParity
