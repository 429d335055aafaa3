import TensorParity.Proofs.Kernel.Buffers
import TensorParity.Proofs.Kernel.Normalisation
import TensorParity.Proofs.Model.Meaning

/-!
The shapes of a run. Where the shapes of its operands meet the conditions of its kernel, a node
computes a value of a known shape, whatever numbers the operands hold. Shapes that flow through all
nodes of a model this way are those of every run on inputs of the declared shapes, and no such run
is refused.
-/
namespace TensorParity

/-- Names with values of these shapes. -/
def Holds (env : Values) (shapes : List (String × Shape)) : Prop :=
  ∀ pair ∈ shapes, ∃ t, env.find? pair.1 = some t ∧ t.shape = pair.2

/-- Whatever values of these shapes its operands have, the operator computes one of that shape. -/
def Op.Yields (op : Op) (shapes : List (String × Shape)) (shape : Shape) : Prop :=
  ∀ env, Holds env shapes → ∃ t, op.Computes env t ∧ t.shape = shape

section Operands

variable {env : Values} {shapes : List (String × Shape)} {shape : Shape}

theorem Holds.given (h : Holds env shapes) {operand : Option String}
    (hoperand : ∀ name ∈ operand, (name, shape) ∈ shapes) :
    ∃ value, Given env operand value ∧ ∀ t, value = some t → t.shape = shape := by
  cases operand with
  | none => exact ⟨none, .absent, nofun⟩
  | some name =>
    obtain ⟨t, hfound, hshape⟩ := h _ (hoperand name rfl)
    refine ⟨some t, .present hfound, ?_⟩
    rintro _ ⟨⟩
    exact hshape

theorem Holds.append {more : List (String × Shape)} (h : Holds env shapes)
    (hmore : Holds env more) : Holds env (shapes ++ more) :=
  fun pair hpair => (List.mem_append.mp hpair).elim (h pair) (hmore pair)

/-- Names whose shapes are known have values of these shapes. -/
theorem Holds.found (h : Holds env shapes) {names : List String} {found : List Shape}
    (hnames : List.Forall₂ (fun name shape => (name, shape) ∈ shapes) names found) :
    ∃ values, List.Forall₂ (fun name t => env.find? name = some t) names values ∧
      values.map (·.shape) = found := by
  induction hnames with
  | nil => exact ⟨[], .nil, rfl⟩
  | cons hfirst _ ih =>
    obtain ⟨t, ht, hshape⟩ := h _ hfirst
    obtain ⟨values, hvalues, hshapes⟩ := ih
    exact ⟨t :: values, .cons ht hvalues, by rw [List.map_cons, hshape, hshapes]⟩

end Operands

namespace Window

variable {w : Window} {params : ConvParams}

/-- Sizes that a convolution with these parameters can have. -/
structure Coherent (w : Window) (params : ConvParams) : Prop where
  positive : ¬(params.groups = 0 ∨ params.vertical.stride = 0 ∨ params.horizontal.stride = 0
    ∨ params.vertical.dilation = 0 ∨ params.horizontal.dilation = 0)
  inChannels : w.inPerGroup * params.groups = w.inChannels
  outChannels : w.outChannels % params.groups = 0
  outPerGroup : w.outPerGroup = w.outChannels / params.groups
  outHeight : params.vertical.positions? w.inHeight w.kernelHeight = some w.outHeight
  outWidth : params.horizontal.positions? w.inWidth w.kernelWidth = some w.outWidth

def inShape (w : Window) : Shape := [w.batch, w.inChannels, w.inHeight, w.inWidth]

def weightShape (w : Window) : Shape :=
  [w.outChannels, w.inPerGroup, w.kernelHeight, w.kernelWidth]

/-- A vertical and a horizontal shift for each tap and each group. -/
def offsetShape (w : Window) (groups : Nat) : Shape :=
  [w.batch, 2 * groups * w.taps, w.outHeight, w.outWidth]

/-- A factor for each tap and each group. -/
def maskShape (w : Window) (groups : Nat) : Shape :=
  [w.batch, groups * w.taps, w.outHeight, w.outWidth]

theorem Coherent.fits (h : w.Coherent params) {α : Type} {input weight : Tensor α}
    {bias : Option (Tensor α)} (hinput : input.shape = w.inShape)
    (hweight : weight.shape = w.weightShape)
    (hbias : ∀ t, bias = some t → t.shape = [w.outChannels]) :
    w.Fits input weight bias params :=
  ⟨hinput, hweight, h.positive, h.inChannels, h.outChannels, h.outPerGroup, hbias, h.outHeight,
    h.outWidth⟩

/-- Over planes that have pixels, fewer in all than doubles count exactly, no sample leaves its
plane. -/
theorem Fits.stays {input weight : Tensor Float} {bias : Option (Tensor Float)}
    (h : w.Fits input weight bias params) (hplane : 0 < w.inHeight * w.inWidth)
    (hsize : Shape.volume w.inShape < 2 ^ 53) (d : Deformation Float) :
    ¬w.SampleLeaves params input.data d := by
  intro hleaves
  have hplanes : 0 < w.batch * w.inChannels := by
    obtain ⟨sample, hsample, channel, hchannel, -⟩ := hleaves
    exact Nat.mul_pos (Nat.zero_lt_of_lt hsample) (Nat.zero_lt_of_lt hchannel)
  have hpixels : w.inHeight * w.inWidth < 2 ^ 53 := by
    rw [inShape, Shape.volume_four] at hsize
    exact (Nat.le_mul_of_pos_left _ hplanes).trans_lt hsize
  have hheight : w.inHeight < 2 ^ 53 :=
    (Nat.le_mul_of_pos_right _ (Nat.pos_of_mul_pos_left hplane)).trans_lt hpixels
  have hwidth : w.inWidth < 2 ^ 53 :=
    (Nat.le_mul_of_pos_left _ (Nat.pos_of_mul_pos_right hplane)).trans_lt hpixels
  exact hplane.ne' ((h.sampleLeaves_iff hheight hwidth d).mp hleaves).1

end Window

namespace Op

variable {shapes : List (String × Shape)} {w : Window} {params : ConvParams} {count : Nat}
  {input : String} {bias : Option String}

theorem yields_batchNorm {mean var : String} {weight : Option String} {eps : Float}
    {batch channels : Nat} {rest : Shape} (hfinite : eps.isFinite = true) (hnonneg : 0.0 ≤ eps)
    (hinput : (input, batch :: channels :: rest) ∈ shapes) (hmean : (mean, [channels]) ∈ shapes)
    (hvar : (var, [channels]) ∈ shapes) (hweight : ∀ name ∈ weight, (name, [channels]) ∈ shapes)
    (hbias : ∀ name ∈ bias, (name, [channels]) ∈ shapes) :
    (batchNorm input mean var weight bias eps).Yields shapes (batch :: channels :: rest) := by
  intro env henv
  obtain ⟨x, hx, hxShape⟩ := henv _ hinput
  obtain ⟨m, hm, hmShape⟩ := henv _ hmean
  obtain ⟨v, hv, hvShape⟩ := henv _ hvar
  obtain ⟨k, hk, hkShape⟩ := henv.given hweight
  obtain ⟨b, hb, hbShape⟩ := henv.given hbias
  have hnormalises : Normalises m v k b eps channels :=
    ⟨hfinite, hnonneg, hmShape, hvShape, hkShape, hbShape⟩
  obtain ⟨out, hout, hshape, -⟩ := hnormalises.exists_batchNorm hxShape
  exact ⟨out, .batchNorm hx hm hv hk hb hout, hshape.trans hxShape⟩

theorem yields_conv2d {weight : String} (hw : w.Coherent params)
    (hcount : w.outShape.numel? = some count) (hinput : (input, w.inShape) ∈ shapes)
    (hweight : (weight, w.weightShape) ∈ shapes)
    (hbias : ∀ name ∈ bias, (name, [w.outChannels]) ∈ shapes) :
    (conv2d input weight bias params).Yields shapes w.outShape := by
  intro env henv
  obtain ⟨x, hx, hxShape⟩ := henv _ hinput
  obtain ⟨k, hk, hkShape⟩ := henv _ hweight
  obtain ⟨b, hb, hbShape⟩ := henv.given hbias
  obtain ⟨out, hout, hshape⟩ := (hw.fits hxShape hkShape hbShape).exists_conv2d hcount
  exact ⟨out, .conv2d hx hk hb hout, hshape⟩

theorem yields_deformConv2d {offset weight : String} {mask : Option String} {groups : Nat}
    (hw : w.Coherent params) (hcount : w.outShape.numel? = some count)
    (hplane : 0 < w.inHeight * w.inWidth) (hsize : Shape.volume w.inShape < 2 ^ 53)
    (hpositive : 0 < groups) (hdivides : groups ∣ w.inChannels)
    (hinput : (input, w.inShape) ∈ shapes) (hoffset : (offset, w.offsetShape groups) ∈ shapes)
    (hmask : ∀ name ∈ mask, (name, w.maskShape groups) ∈ shapes)
    (hweight : (weight, w.weightShape) ∈ shapes)
    (hbias : ∀ name ∈ bias, (name, [w.outChannels]) ∈ shapes) :
    (deformConv2d input offset mask weight bias params).Yields shapes w.outShape := by
  intro env henv
  obtain ⟨x, hx, hxShape⟩ := henv _ hinput
  obtain ⟨o, ho, hoShape⟩ := henv _ hoffset
  obtain ⟨s, hs, hsShape⟩ := henv.given hmask
  obtain ⟨k, hk, hkShape⟩ := henv _ hweight
  obtain ⟨b, hb, hbShape⟩ := henv.given hbias
  have hfits := hw.fits hxShape hkShape hbShape
  have hdeforms : w.Deforms o s groups := ⟨hpositive, hdivides, hoShape, hsShape⟩
  obtain ⟨out, hout, hshape⟩ :=
    hfits.deformConv2d_of_stays hdeforms hcount (hfits.stays hplane hsize _)
  exact ⟨out, .deformConv2d hx ho hs hk hb hout, hshape⟩

theorem yields_sigmoid {shape : Shape} (hinput : (input, shape) ∈ shapes) :
    (sigmoid input).Yields shapes shape := by
  intro env henv
  obtain ⟨x, hx, hxShape⟩ := henv _ hinput
  exact ⟨_, .sigmoid hx, hxShape⟩

end Op

/-- Shapes that flow through nodes, each adding its result to what is there. -/
inductive Flow : List (String × Shape) → List Node → List (String × Shape) → Prop where
  | nil {shapes : List (String × Shape)} : Flow shapes [] shapes
  | cons {shapes final : List (String × Shape)} {node : Node} {rest : List Node} (shape : Shape)
    (hnode : node.op.Yields shapes shape)
    (hrest : Flow ((node.output, shape) :: shapes) rest final) :
    Flow shapes (node :: rest) final

/-- The names and shapes of declared inputs. -/
def declaredShapes (inputs : List InputDecl) : List (String × Shape) :=
  inputs.map fun decl => (decl.name, decl.shape)

namespace Model

variable {m : Model} {p : Precision} {values : Values}

theorem find?_environment_insert (key name : String) (t : Tensor Float) :
    (m.environment p (values.insert key t)).find? name =
      if name = key then some t else (m.environment p values).find? name := by
  rw [find?_environment, find?_environment, Table.find?_insert]
  split <;> rfl

/-- A step keeps the shapes of the names that are known and adds that of its result. -/
theorem step_holds {node : Node} {shapes : List (String × Shape)} {shape : Shape}
    (hnew : ∀ pair ∈ shapes, pair.1 ≠ node.output) (hnode : node.op.Yields shapes shape)
    (h : Holds (m.environment p values) shapes) : ∃ next, m.step p values node = .ok next ∧
      Holds (m.environment p next) ((node.output, shape) :: shapes) := by
  obtain ⟨t, hcomputes, hshape⟩ := hnode _ h
  have happly := (apply_eq_ok_iff (m.lookup_eq_ok_iff p values)).mpr hcomputes
  refine ⟨values.insert node.output (p.quantize t), bind_eq_ok.mpr ⟨t, happly, rfl⟩, ?_⟩
  refine List.forall_mem_cons.mpr ⟨⟨p.quantize t, ?_, ?_⟩, fun pair hpair => ?_⟩
  · rw [find?_environment_insert, if_pos rfl]
  · rw [p.shape_quantize, hshape]
  · rw [find?_environment_insert, if_neg (hnew pair hpair)]
    exact h pair hpair

/-- Nodes through which shapes flow are all computed. -/
theorem foldlM_step_holds {nodes : List Node} {shapes final : List (String × Shape)}
    {defined : List String} (hflow : Flow shapes nodes final) (hordered : Ordered defined nodes)
    (hdefined : ∀ pair ∈ shapes, pair.1 ∈ defined) (h : Holds (m.environment p values) shapes) :
    ∃ after, nodes.foldlM (m.step p) values = .ok after ∧ Holds (m.environment p after) final := by
  induction hflow generalizing values defined with
  | nil => exact ⟨values, rfl, h⟩
  | @cons shapes final node rest shape hnode _ ih =>
    obtain ⟨-, hnew, hrest⟩ := hordered
    have hothers : ∀ pair ∈ shapes, pair.1 ≠ node.output :=
      fun pair hpair heq => hnew (heq ▸ hdefined pair hpair)
    obtain ⟨next, hstep, hnext⟩ := step_holds hothers hnode h
    have hnames : ∀ pair ∈ (node.output, shape) :: shapes, pair.1 ∈ node.output :: defined :=
      List.forall_mem_cons.mpr ⟨List.mem_cons_self,
        fun pair hpair => List.mem_cons_of_mem _ (hdefined pair hpair)⟩
    obtain ⟨after, hafter, hfinal⟩ := ih hrest hnames hnext
    exact ⟨after, by rw [List.foldlM_cons, hstep, ok_bind, hafter], hfinal⟩

/-- Constants of these names and shapes, perhaps among others. -/
def Registers (m : Model) (parameters : List (String × Shape)) : Prop :=
  ∀ pair ∈ parameters, ∃ t, m.constants.find? pair.1 = some t ∧ t.shape = pair.2

/-- Inputs and constants have their shapes before the first node is computed. -/
theorem inputValues_holds {inputs : List (Tensor Float)} {parameters : List (String × Shape)}
    (hinputs : List.Forall₂ (fun decl t => t.shape = decl.shape) m.inputs inputs)
    (hconstants : m.Registers parameters) :
    Holds (m.environment p (m.inputValues p inputs)) (declaredShapes m.inputs ++ parameters) := by
  have hlength := hinputs.length_eq
  refine Holds.append (fun pair hpair => ?_) fun pair hpair => ?_
  · obtain ⟨decl, hdecl, rfl⟩ := List.mem_map.mp hpair
    obtain ⟨t, hmem⟩ := exists_mem_zip hlength hdecl
    refine ⟨p.quantize t, ?_, ?_⟩
    · rw [find?_environment, (find?_inputValues hlength).mpr ⟨(decl, t), hmem, rfl, rfl⟩,
        Option.some_or]
    · rw [p.shape_quantize, (List.forall₂_iff_zip.mp hinputs).2 hmem]
  · obtain ⟨c, hfrozen, hshape⟩ := hconstants pair hpair
    have hnone : (m.inputValues p inputs).find? pair.1 = none := by
      rw [Option.eq_none_iff_forall_ne_some]
      intro t hfound
      obtain ⟨bound, hmem, hname, -⟩ := (find?_inputValues hlength).mp hfound
      apply m.names_disjoint.1 bound.1 (List.of_mem_zip hmem).1
      rw [hname]
      exact Table.mem_keys_iff.mpr ⟨c, hfrozen⟩
    refine ⟨p.quantize c, ?_, ?_⟩
    · rw [find?_environment, hnone, hfrozen]
      rfl
    · rw [p.shape_quantize, hshape]

/-- A model through whose nodes shapes flow runs on all inputs of the declared shapes. -/
theorem run_of_flow {parameters final : List (String × Shape)} {outShapes : List Shape}
    (hconstants : m.Registers parameters)
    (hflow : Flow (declaredShapes m.inputs ++ parameters) m.nodes final)
    (houtputs : List.Forall₂ (fun name shape => (name, shape) ∈ final) m.outputs outShapes)
    {inputs : List (Tensor Float)} (hinputs : inputs.map (·.shape) = m.inputShapes) :
    ∃ results, m.run p inputs = .ok results ∧ results.map (·.shape) = outShapes := by
  have hdeclared : List.Forall₂ (fun decl t => t.shape = decl.shape) m.inputs inputs := by
    rw [inputShapes, ← List.forall₂_eq_eq_eq, List.forall₂_map_left_iff,
      List.forall₂_map_right_iff] at hinputs
    exact hinputs.flip
  obtain ⟨-, hordered, -⟩ := check_eq_ok_iff.mp m.valid
  have hdefined : ∀ pair ∈ declaredShapes m.inputs ++ parameters,
      pair.1 ∈ (m.inputs.map (·.name) ++ m.constants.keys).reverse := by
    intro pair hpair
    rw [List.mem_reverse, List.mem_append]
    rcases List.mem_append.mp hpair with hinput | hparameter
    · obtain ⟨decl, hdecl, rfl⟩ := List.mem_map.mp hinput
      exact .inl (List.mem_map_of_mem hdecl)
    · obtain ⟨c, hfrozen, -⟩ := hconstants pair hparameter
      exact .inr (Table.mem_keys_iff.mpr ⟨c, hfrozen⟩)
  obtain ⟨values, hvalues, hfinal⟩ :=
    foldlM_step_holds hflow hordered hdefined (inputValues_holds hdeclared hconstants)
  have hevaluate : m.evaluate p inputs = .ok values :=
    evaluate_eq_ok_iff.mpr ⟨hdeclared, (foldlM_step_eq_ok_iff hordered).mp hvalues⟩
  obtain ⟨results, hresults, hshapes⟩ := hfinal.found houtputs
  refine ⟨results, ?_, hshapes⟩
  rw [run, hevaluate, ok_bind, mapM_eq_ok_iff]
  exact hresults.imp fun name t hfound => (m.lookup_eq_ok_iff p values name t).mpr hfound

end Model

end TensorParity
