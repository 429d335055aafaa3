import TensorParity.Model.Layer
import TensorParity.Proofs.Generator.Draws
import TensorParity.Proofs.Kernel.Normalisation

/-!
What plans do to the draft and the generator at hand. A plan that succeeds appends what it always
appends, whatever is there already, and takes as many words from the generator as its constants have
elements; plans one after the other add up. A layer is made in one piece: everything that can refuse
it is looked at before its first constant is drawn.
-/
namespace TensorParity

/-- What a plan adds to a draft: constants, by name and shape, then nodes and outputs. -/
structure Addition where
  parameters : List (String × Shape) := []
  nodes : List Node := []
  outputs : List String := []

/-- One addition after another. -/
def Addition.andThen (a b : Addition) : Addition :=
  ⟨a.parameters ++ b.parameters, a.nodes ++ b.nodes, a.outputs ++ b.outputs⟩

/-- The name and the shape of a constant. -/
def parameterOf (c : String × Tensor Float) : String × Shape := (c.1, c.2.shape)

/-- The elements of all constants together. -/
def elementCount (constants : List (String × Tensor Float)) : Nat :=
  (constants.map (·.2.numel)).sum

namespace Assembly

variable {α β : Type}

/-- A plan that succeeds wherever it is run, with the same value and the same addition. -/
def Adds (plan : Assembly α) (value : α) (added : Addition) : Prop :=
  ∀ (d : Draft) (g : Generator), ∃ constants, constants.map parameterOf = added.parameters ∧
    plan.run.run (d, g) = (.ok value, ⟨d.name, d.inputs, d.constants ++ constants,
      d.nodes ++ added.nodes, d.outputs ++ added.outputs⟩, g.advance (elementCount constants))

/-- A plan that is refused wherever it is run, and changes nothing. -/
def Leaves (plan : Assembly α) (e : GraphError) : Prop :=
  ∀ (d : Draft) (g : Generator), plan.run.run (d, g) = (.error e, d, g)

section Rules

variable {plan : Assembly α} {next : α → Assembly β} {a : α} {b : β} {e : GraphError}
  {added added' total : Addition}

theorem adds_pure (a : α) : (pure a : Assembly α).Adds a {} := by
  intro d g
  refine ⟨[], rfl, ?_⟩
  simp only [List.append_nil]
  rfl

theorem Adds.bind (h : plan.Adds a added) (hnext : (next a).Adds b added')
    (htotal : added.andThen added' = total := by rfl) : (plan >>= next).Adds b total := by
  subst htotal
  intro d g
  obtain ⟨constants, hshapes, hrun⟩ := h d g
  obtain ⟨constants', hshapes', hrun'⟩ := hnext _ _
  refine ⟨constants ++ constants', ?_, ?_⟩
  · rw [List.map_append, hshapes, hshapes']
    rfl
  · rw [run_run_bind, hrun]
    simp only
    rw [hrun', ← Generator.advance_add]
    simp [elementCount, Addition.andThen]

theorem leaves_throw (e : GraphError) : (throw e : Assembly α).Leaves e :=
  fun _ _ => rfl

theorem Leaves.bind (h : plan.Leaves e) (next : α → Assembly β) : (plan >>= next).Leaves e := by
  intro d g
  rw [run_run_bind, h d g]

variable {name : String} {shape : Shape} {low high : Float}

/-- A parameter is registered once it is drawn. -/
theorem run_parameter (name : String) (shape : Shape) (low high : Float) (d : Draft)
    (g : Generator) : (parameter name shape low high).run.run (d, g) =
      match (Generator.uniformTensor shape low high).run.run g with
      | (.ok tensor, g') => (.ok name, d.constant name tensor, g')
      | (.error error, g') => (.error (.tensor error), d, g') := by
  unfold parameter
  rw [run_run_bind]
  change (match (Generator.uniformTensor shape low high).run.run g with
    | (.ok tensor, g') => (do set (d.constant name tensor, g'); return name : Assembly String)
    | (.error error, g') => (do set (d, g'); throw (GraphError.tensor error))).run.run (d, g) = _
  split <;> rfl

/-- A shape with an element count is drawn. -/
theorem adds_parameter {count : Nat} (hcount : shape.numel? = some count) :
    (parameter name shape low high).Adds name { parameters := [(name, shape)] } := by
  intro d g
  obtain ⟨x, rfl, -, hdata⟩ := Generator.exists_drawn low high g hcount
  refine ⟨[(name, x)], rfl, ?_⟩
  rw [run_parameter, Generator.uniformTensor_of_numel hdata]
  simp [elementCount, Draft.constant]

/-- A shape without one is refused before anything is drawn. -/
theorem leaves_parameter (hcount : shape.numel? = none) :
    (parameter name shape low high).Leaves (.tensor (.countOverflow shape)) := by
  intro d g
  rw [run_parameter, Generator.uniformTensor_of_none hcount]

theorem adds_node (output : String) (op : Op) :
    (edit fun d => d.node output op).Adds () { nodes := [⟨output, op⟩] } := by
  intro d g
  refine ⟨[], rfl, ?_⟩
  simp only [List.append_nil]
  rfl

theorem adds_output (name : String) : (edit (·.output name)).Adds () { outputs := [name] } := by
  intro d g
  refine ⟨[], rfl, ?_⟩
  simp only [List.append_nil]
  rfl

theorem sigmoid_adds (name input : String) :
    (sigmoid name input).Adds name { nodes := [⟨name, .sigmoid input⟩] } :=
  .bind (adds_node _ _) (adds_pure _)

end Rules

end Assembly

/-- A vector of a word's length has an element count. -/
theorem Shape.numel?_singleton {n : Nat} (h : n < wordLimit) : Shape.numel? [n] = some n := by
  rw [numel?, List.foldlM_cons, mulWord?, if_pos (by omega), Nat.one_mul]
  rfl

theorem Shape.numel?_singleton_of_not_lt {n : Nat} (h : ¬n < wordLimit) :
    Shape.numel? [n] = none := by
  rw [numel?, List.foldlM_cons, mulWord?, if_neg fun hboth => h hboth.1]
  rfl

namespace BatchNormLayer

open Assembly

variable (name : String) (features : Nat) (eps : Float) (affine : Bool)

/-- What a batch normalisation is made of. -/
structure Accepts : Prop where
  positive : 0 < features
  word : features < Shape.wordLimit
  finite : eps.isFinite = true
  nonneg : 0.0 ≤ eps

instance : Decidable (Accepts features eps) :=
  decidable_of_iff
    (0 < features ∧ features < Shape.wordLimit ∧ eps.isFinite = true ∧ 0.0 ≤ eps)
    ⟨fun ⟨hpositive, hword, hfinite, hnonneg⟩ => ⟨hpositive, hword, hfinite, hnonneg⟩,
      fun h => ⟨h.positive, h.word, h.finite, h.nonneg⟩⟩

/-- The constants of a batch normalisation. -/
def parameters : List (String × Shape) :=
  [(name ++ ".running_mean", [features]), (name ++ ".running_var", [features])] ++
    if affine then [(name ++ ".weight", [features]), (name ++ ".bias", [features])] else []

/-- The layer that is made. -/
def made : BatchNormLayer where
  name
  runningMean := name ++ ".running_mean"
  runningVar := name ++ ".running_var"
  weight := if affine then some (name ++ ".weight") else none
  bias := if affine then some (name ++ ".bias") else none
  features
  eps

/-- The node of a layer that is applied. -/
def node (layer : BatchNormLayer) (input : String) : Node := ⟨layer.name, layer.op input⟩

variable {name features eps affine}

theorem make_adds (h : Accepts features eps) : (make name features eps affine).Adds
    (made name features eps affine) { parameters := parameters name features affine } := by
  have hcount := Shape.numel?_singleton h.word
  unfold make
  rw [if_neg h.positive.ne', if_neg (stable_iff.mpr ⟨h.finite, h.nonneg⟩)]
  have hparameter (suffix : String) : (Assembly.parameter (name ++ suffix) [features] 0.0 1.0).Adds
      (name ++ suffix) { parameters := [(name ++ suffix, [features])] } := adds_parameter hcount
  cases affine with
  | false =>
    exact .bind (hparameter _) (.bind (hparameter _) (adds_pure _))
  | true =>
    exact .bind (hparameter _) (.bind (hparameter _)
      (.bind (hparameter _) (.bind (hparameter _) (adds_pure _))))

theorem forward_adds (layer : BatchNormLayer) (input : String) :
    (layer.forward input).Adds layer.name { nodes := [layer.node input] } :=
  .bind (adds_node _ _) (adds_pure _)

/-- What is not accepted is refused, at the latest by the first draw. -/
theorem make_leaves (h : ¬Accepts features eps) :
    ∃ e, (make name features eps affine).Leaves e := by
  unfold make
  by_cases hpositive : features = 0
  · rw [if_pos hpositive]
    exact ⟨_, leaves_throw _⟩
  rw [if_neg hpositive]
  by_cases hstable : (!eps.isFinite || decide (eps < 0.0)) = true
  · rw [if_pos hstable]
    exact ⟨_, leaves_throw _⟩
  rw [if_neg hstable]
  obtain ⟨hfinite, hnonneg⟩ := stable_iff.mp hstable
  have hwide : ¬features < Shape.wordLimit :=
    fun hword => h ⟨Nat.pos_of_ne_zero hpositive, hword, hfinite, hnonneg⟩
  exact ⟨_, (leaves_parameter (Shape.numel?_singleton_of_not_lt hwide)).bind _⟩

end BatchNormLayer

namespace ConvLayer

open Assembly

variable (name : String) (sizes : ConvSizes) (params : ConvParams) (useBias : Bool)

/-- Each output channel has weights for the input channels of its group. -/
def weightShape : Shape :=
  [sizes.outChannels, sizes.inChannels / params.groups, sizes.kernelHeight, sizes.kernelWidth]

/-- What a convolution is made of. -/
structure Accepts : Prop where
  channels : 0 < sizes.inChannels ∧ 0 < sizes.outChannels
  kernel : 0 < sizes.kernelHeight ∧ 0 < sizes.kernelWidth
  groups : 0 < params.groups
  divides : params.groups ∣ sizes.inChannels ∧ params.groups ∣ sizes.outChannels
  counted : (weightShape sizes params).numel?.isSome = true

instance : Decidable (Accepts sizes params) :=
  decidable_of_iff
    ((0 < sizes.inChannels ∧ 0 < sizes.outChannels) ∧
      (0 < sizes.kernelHeight ∧ 0 < sizes.kernelWidth) ∧ 0 < params.groups ∧
      (params.groups ∣ sizes.inChannels ∧ params.groups ∣ sizes.outChannels) ∧
      (weightShape sizes params).numel?.isSome = true)
    ⟨fun ⟨hchannels, hkernel, hgroups, hdivides, hcounted⟩ =>
        ⟨hchannels, hkernel, hgroups, hdivides, hcounted⟩,
      fun h => ⟨h.channels, h.kernel, h.groups, h.divides, h.counted⟩⟩

/-- The constants of a convolution. -/
def parameters : List (String × Shape) :=
  (name ++ ".weight", weightShape sizes params) ::
    if useBias then [(name ++ ".bias", [sizes.outChannels])] else []

/-- The layer that is made. -/
def made : ConvLayer where
  name
  weight := name ++ ".weight"
  bias := if useBias then some (name ++ ".bias") else none
  params

/-- The node of a layer that is applied. -/
def node (layer : ConvLayer) (input : String) : Node :=
  ⟨layer.name, .conv2d input layer.weight layer.bias layer.params⟩

/-- The node of a layer that is applied as a deformable convolution. -/
def deformedNode (layer : ConvLayer) (input offset : String) (mask : Option String) : Node :=
  ⟨layer.name, .deformConv2d input offset mask layer.weight layer.bias layer.params⟩

variable {name sizes params useBias}

theorem positive_iff : ¬(sizes.inChannels = 0 ∨ sizes.outChannels = 0 ∨ sizes.kernelHeight = 0 ∨
      sizes.kernelWidth = 0) ↔
    (0 < sizes.inChannels ∧ 0 < sizes.outChannels) ∧ 0 < sizes.kernelHeight ∧
      0 < sizes.kernelWidth := by
  omega

theorem divides_iff : ¬(params.groups = 0 ∨ sizes.inChannels % params.groups ≠ 0 ∨
      sizes.outChannels % params.groups ≠ 0) ↔
    0 < params.groups ∧ params.groups ∣ sizes.inChannels ∧ params.groups ∣ sizes.outChannels := by
  rw [not_or, not_or, not_ne_iff, not_ne_iff, Nat.pos_iff_ne_zero, Nat.dvd_iff_mod_eq_zero,
    Nat.dvd_iff_mod_eq_zero]

theorem make_adds (h : Accepts sizes params) : (make name sizes params useBias).Adds
    (made name params useBias) { parameters := parameters name sizes params useBias } := by
  obtain ⟨count, hcount⟩ := Option.isSome_iff_exists.mp h.counted
  have hword : sizes.outChannels < Shape.wordLimit :=
    Shape.inWords_of_numel? hcount _ List.mem_cons_self
  have hweight : (Assembly.parameter (name ++ ".weight") (weightShape sizes params)
      (-bound sizes params.groups) (bound sizes params.groups)).Adds (name ++ ".weight")
        { parameters := [(name ++ ".weight", weightShape sizes params)] } := adds_parameter hcount
  have hbias : (Assembly.parameter (name ++ ".bias") [sizes.outChannels]
      (-bound sizes params.groups) (bound sizes params.groups)).Adds (name ++ ".bias")
        { parameters := [(name ++ ".bias", [sizes.outChannels])] } :=
    -- the weight has an element count, so the bias has one too
    adds_parameter (Shape.numel?_singleton hword)
  unfold make
  rw [if_neg (positive_iff.mpr ⟨h.channels, h.kernel⟩)]
  simp only
  rw [if_neg (divides_iff.mpr ⟨h.groups, h.divides⟩)]
  cases useBias with
  | false =>
    exact .bind hweight (adds_pure _)
  | true =>
    exact .bind hweight (.bind hbias (adds_pure _))

theorem forward_adds (layer : ConvLayer) (input : String) :
    (layer.forward input).Adds layer.name { nodes := [layer.node input] } :=
  .bind (adds_node _ _) (adds_pure _)

theorem forwardDeformed_adds (layer : ConvLayer) (input offset : String) (mask : Option String) :
    (layer.forwardDeformed input offset mask).Adds layer.name
      { nodes := [layer.deformedNode input offset mask] } :=
  .bind (adds_node _ _) (adds_pure _)

/-- What is not accepted is refused, at the latest by the draw of the weight. -/
theorem make_leaves (h : ¬Accepts sizes params) :
    ∃ e, (make name sizes params useBias).Leaves e := by
  unfold make
  by_cases hpositive : sizes.inChannels = 0 ∨ sizes.outChannels = 0 ∨ sizes.kernelHeight = 0 ∨
    sizes.kernelWidth = 0
  · rw [if_pos hpositive]
    exact ⟨_, leaves_throw _⟩
  rw [if_neg hpositive]
  by_cases hdivides : params.groups = 0 ∨ sizes.inChannels % params.groups ≠ 0 ∨
    sizes.outChannels % params.groups ≠ 0
  · simp only
    rw [if_pos hdivides]
    exact ⟨_, leaves_throw _⟩
  simp only
  rw [if_neg hdivides]
  obtain ⟨hchannels, hkernel⟩ := positive_iff.mp hpositive
  obtain ⟨hgroups, hboth⟩ := divides_iff.mp hdivides
  have huncounted : (weightShape sizes params).numel? = none := by
    rw [← Option.not_isSome_iff_eq_none]
    exact fun hcounted => h ⟨hchannels, hkernel, hgroups, hboth, hcounted⟩
  exact ⟨_, (leaves_parameter huncounted).bind _⟩

end ConvLayer

/-- Making a layer changes nothing if it is refused. Otherwise it appends the layer's constants and
takes from the generator as many words as they have elements. What is accepted does not depend on
the draft and the generator at hand. -/
structure Atomic {α : Type} (make : Assembly α) (accepted : Prop)
    (parameters : List (String × Shape)) (d : Draft) (g : Generator) : Prop where
  refused (h : ¬accepted) : ∃ e, make.run.run (d, g) = (.error e, d, g)
  made (h : accepted) : ∃ layer constants, constants.map parameterOf = parameters ∧
    make.run.run (d, g) = (.ok layer, { d with constants := d.constants ++ constants },
      g.advance (elementCount constants))

theorem atomic_of_adds {α : Type} {make : Assembly α} {layer : α} {accepted : Prop}
    {parameters : List (String × Shape)} (hadds : accepted → make.Adds layer { parameters })
    (hleaves : ¬accepted → ∃ e, make.Leaves e) (d : Draft) (g : Generator) :
    Atomic make accepted parameters d g where
  refused h := by
    obtain ⟨e, hleaves⟩ := hleaves h
    exact ⟨e, hleaves d g⟩
  made h := by
    obtain ⟨constants, hshapes, hrun⟩ := hadds h d g
    rw [List.append_nil, List.append_nil] at hrun
    exact ⟨layer, constants, hshapes, hrun⟩

/-- Layers are made in one piece. A batch normalisation that is accepted registers two constants, or
four with affine parameters, and a convolution its weight and the bias if it has one; what is
refused, also for a weight without an element count, leaves no trace. -/
theorem make_atomic (d : Draft) (g : Generator) :
    (∀ name features eps affine, Atomic (BatchNormLayer.make name features eps affine)
      (BatchNormLayer.Accepts features eps) (BatchNormLayer.parameters name features affine) d g) ∧
    ∀ name sizes params useBias, Atomic (ConvLayer.make name sizes params useBias)
      (ConvLayer.Accepts sizes params) (ConvLayer.parameters name sizes params useBias) d g :=
  ⟨fun _ _ _ _ => atomic_of_adds BatchNormLayer.make_adds BatchNormLayer.make_leaves d g,
    fun _ _ _ _ => atomic_of_adds ConvLayer.make_adds ConvLayer.make_leaves d g⟩

end TensorParity
