import TensorParity.Proofs.Model.Application
import TensorParity.Scenario.Builtin

/-!
The scenarios of the program, for every seed. A seed picks the numbers in the constants and inputs
of a scenario and nothing else: its plan always makes the same layers, and shapes flow through its
model in one way. So whatever is drawn, the scenario can be set up and its model runs.
-/
namespace TensorParity

namespace Model

/-- Rounding the constants keeps their names and shapes. -/
theorem HasParts.mapConstants {m : Model} {inputs : List InputDecl} {added : Addition}
    (h : m.HasParts inputs added) (f : Float → Float) :
    (m.mapConstants f).HasParts inputs added where
  inputs := h.inputs
  constants := by
    rw [← h.constants]
    simp [Model.mapConstants, Table.map, Tensor.map]
  nodes := h.nodes
  outputs := h.outputs

end Model

/-- The inputs of a setup have the shapes that its model declares, and at any precision the model
runs on them, with outputs of these shapes. -/
structure ScenarioSetup.Runs (s : ScenarioSetup) (outShapes : List Shape) : Prop where
  declared : s.inputShapes = s.model.inputShapes
  outputs : s.model.outputs.length = outShapes.length
  run (p : Precision) : ∃ results, s.model.run p s.inputs = .ok results ∧
    results.map (·.shape) = outShapes

namespace Scenario

section Building

variable {inputs : List InputDecl} {plan : Assembly Unit} {added : Addition}

/-- A setup is built in two steps, each with a generator of its own. -/
theorem buildFrom_eq (name : String) (inputs : List InputDecl) (plan : Assembly Unit)
    (seed : UInt64) : buildFrom name inputs plan seed = do
      let m ← Assembly.build name inputs plan ((Generator.ofSeed seed).derive parameterStream)
      let drawn := (drawInputs inputs).run.run ((Generator.ofSeed seed).derive inputStream)
      return ⟨m, ← drawn.1.mapError .tensor⟩ := by
  unfold buildFrom Assembly.build
  exact (bind_assoc _ _ _).symm

/-- Inputs are drawn one after the other, and none is refused. -/
theorem exists_drawInputs (hcounted : ∀ decl ∈ inputs, decl.shape.numel?.isSome = true)
    (g : Generator) : ∃ xs after, (drawInputs inputs).run.run g = (.ok xs, after) ∧
      xs.map (·.shape) = inputs.map (·.shape) := by
  induction inputs generalizing g with
  | nil => exact ⟨[], g, rfl, rfl⟩
  | cons decl rest ih =>
    obtain ⟨hfirst, hrest⟩ := List.forall_mem_cons.mp hcounted
    obtain ⟨count, hcount⟩ := Option.isSome_iff_exists.mp hfirst
    obtain ⟨x, hshape, -, hdata⟩ := Generator.exists_drawn 0.0 1.0 g hcount
    obtain ⟨xs, after, hxs, hshapes⟩ := ih hrest (g.advance x.numel)
    have hdrawn : (Generator.unitTensor decl.shape).run.run g = (.ok x, g.advance x.numel) := by
      rw [← hshape]
      exact Generator.uniformTensor_of_numel hdata
    refine ⟨x :: xs, after, ?_, ?_⟩
    · rw [drawInputs] at hxs ⊢
      rw [List.mapM_cons, run_run_bind, hdrawn]
      simp only
      rw [run_run_bind, hxs]
      rfl
    · rw [List.map_cons, List.map_cons, hshape, hshapes]

/-- From every seed the builder gives a model of these inputs and of what a plan adds. -/
structure Assembles (build : UInt64 → Except GraphError ScenarioSetup) (inputs : List InputDecl)
    (added : Addition) : Prop where
  distinct : (added.parameters.map (·.1)).Nodup
  setup (seed : UInt64) : ∃ setup, build seed = .ok setup ∧ setup.model.HasParts inputs added ∧
    setup.inputShapes = inputs.map (·.shape)

/-- A plan whose parts go together is built. -/
theorem assembles_buildFrom (name : String) (inputs : List InputDecl) (hadds : plan.Adds () added)
    (hcheck : Model.check (inputs.map (·.name)) (added.parameters.map (·.1)) added.nodes
      added.outputs = .ok ())
    (hcounted : ∀ decl ∈ inputs, decl.shape.numel?.isSome = true) :
    Assembles (buildFrom name inputs plan) inputs added := by
  have hparts := Model.check_eq_ok_iff_wellFormed.mp hcheck
  refine ⟨(List.nodup_append.mp (List.nodup_append.mp hparts.distinct).1).2.1, fun seed => ?_⟩
  obtain ⟨m, hm, hhas⟩ := hadds.exists_build name hparts
    ((Generator.ofSeed seed).derive parameterStream)
  obtain ⟨xs, _, hxs, hshapes⟩ :=
    exists_drawInputs hcounted ((Generator.ofSeed seed).derive inputStream)
  refine ⟨⟨m, xs⟩, ?_, hhas, hshapes⟩
  rw [buildFrom_eq, hm, ok_bind]
  simp only
  rw [hxs]
  rfl

/-- Constants may be changed once the model is built. -/
theorem Assembles.mapConstants {build : UInt64 → Except GraphError ScenarioSetup}
    (h : Assembles build inputs added) (f : Float → Float) :
    Assembles (fun seed => do
      let setup ← build seed
      return { setup with model := setup.model.mapConstants f }) inputs added where
  distinct := h.distinct
  setup seed := by
    obtain ⟨setup, hsetup, hhas, hshapes⟩ := h.setup seed
    refine ⟨{ setup with model := setup.model.mapConstants f }, ?_, hhas.mapConstants f, hshapes⟩
    rw [hsetup]
    rfl

end Building

/-- From every seed the scenario can be set up with inputs of the first shapes, and its model runs
on them with outputs of the second. -/
def Delivers (s : Scenario) (inShapes outShapes : List Shape) : Prop :=
  ∀ seed, ∃ setup, s.setupWith seed = .ok setup ∧ setup.inputShapes = inShapes ∧
    setup.Runs outShapes

/-- A scenario delivers what flows through its model. -/
theorem delivers_of_flow {s : Scenario} {build : UInt64 → Except GraphError ScenarioSetup}
    {inputs : List InputDecl} {added : Addition} {final : List (String × Shape)}
    {outShapes : List Shape} (hassembles : Assembles build inputs added) (hbuild : s.build = build)
    (hflow : Flow (declaredShapes inputs ++ added.parameters) added.nodes final)
    (houtputs : List.Forall₂ (fun name shape => (name, shape) ∈ final) added.outputs outShapes) :
    s.Delivers (inputs.map (·.shape)) outShapes := by
  intro seed
  obtain ⟨setup, hsetup, hhas, hshapes⟩ := hassembles.setup seed
  refine ⟨setup, ?_, hshapes, ?_, ?_, fun p => ?_⟩
  · rw [setupWith, hbuild, hsetup]
    rfl
  · rw [hshapes, Model.inputShapes, hhas.inputs]
  · rw [hhas.outputs, houtputs.length_eq]
  · exact hhas.run_of_flow hassembles.distinct hflow houtputs p hshapes

section BatchNorm

open BatchNormLayer

theorem applied_adds (layer : BatchNormLayer) (source : String) : (applied layer source).Adds ()
    { nodes := [layer.node source], outputs := [layer.name] } :=
  .bind (layer.forward_adds source) (Assembly.adds_output _)

/-- The channels and stability terms of all scenarios are accepted. -/
theorem accepts_builtin : (Accepts 16 defaultEps ∧ Accepts 2 1e-3 ∧ Accepts 3 1e-2) ∧
    Accepts 1 defaultEps ∧ Accepts 4 1e-4 := by
  decide +kernel

/-- Batch normalisations of different ranks, each with an input of its own. -/
theorem batchNorm_delivers : batchNorm.Delivers [[1, 16], [1, 2, 16], [1, 3, 12, 16]]
    [[1, 16], [1, 2, 16], [1, 3, 12, 16]] := by
  obtain ⟨⟨hx, hy, hz⟩, -⟩ := accepts_builtin
  have hadds : batchNormPlan.Adds () {
      parameters := parameters "bn_x" 16 true ++ (parameters "bn_y" 2 true ++
        parameters "bn_z" 3 true)
      nodes := [(made "bn_x" 16 defaultEps true).node "x", (made "bn_y" 2 1e-3 true).node "y",
        (made "bn_z" 3 1e-2 true).node "z"]
      outputs := ["bn_x", "bn_y", "bn_z"] } :=
    .bind (make_adds hx) <| .bind (make_adds hy) <| .bind (make_adds hz) <|
      .bind (applied_adds _ _) <| .bind (applied_adds _ _) (applied_adds _ _)
  have hassembles := assembles_buildFrom "f_batch_norm"
    [⟨"x", [1, 16]⟩, ⟨"y", [1, 2, 16]⟩, ⟨"z", [1, 3, 12, 16]⟩] hadds (by decide) (by decide)
  refine delivers_of_flow hassembles rfl
    (.cons [1, 16] ?_ <| .cons [1, 2, 16] ?_ <| .cons [1, 3, 12, 16] ?_ .nil) (by decide)
  · exact yields hx (by decide) (by decide) rfl (by decide)
  · exact yields hy (by decide) (by decide) rfl (by decide)
  · exact yields hz (by decide) (by decide) rfl (by decide)

theorem batchNormOutput_adds (name source : String) {features : Nat} {eps : Float}
    (h : Accepts features eps) (affine : Bool) :
    (batchNormOutput name source features eps affine).Adds () {
      parameters := parameters name features affine
      nodes := [(made name features eps affine).node source]
      outputs := [name] } :=
  .bind (make_adds h) (applied_adds _ _) (by simp [Addition.andThen, made])

theorem batchNormSingleChannel_delivers :
    batchNormSingleChannel.Delivers [[1, 1, 8]] [[1, 1, 8]] := by
  obtain ⟨-, haccepts, -⟩ := accepts_builtin
  have hassembles := assembles_buildFrom "f_batch_norm_single_channel" [⟨"x", [1, 1, 8]⟩]
    (batchNormOutput_adds "bn" "x" haccepts true) (by decide) (by decide)
  refine delivers_of_flow hassembles rfl (.cons [1, 1, 8] ?_ .nil) (by decide)
  exact yields haccepts (by decide) (by decide) rfl (by decide)

theorem batchNormWithoutAffine_delivers :
    batchNormWithoutAffine.Delivers [[1, 4, 6]] [[1, 4, 6]] := by
  obtain ⟨-, -, haccepts⟩ := accepts_builtin
  have hassembles := assembles_buildFrom "f_batch_norm_without_affine" [⟨"x", [1, 4, 6]⟩]
    (batchNormOutput_adds "bn" "x" haccepts false) (by decide) (by decide)
  refine delivers_of_flow hassembles rfl (.cons [1, 4, 6] ?_ .nil) (by decide)
  exact yields haccepts (by decide) (by decide) rfl (by decide)

end BatchNorm

section Convolution

open ConvLayer

/-- The offset is itself the result of a convolution, with two planes for each of nine taps. -/
theorem offsetOnly_delivers : offsetOnly.Delivers [[1, 4, 10, 10]] [[1, 6, 10, 10]] := by
  have hsteering : Accepts (squareKernel 4 18) padded ∧
    Covers (squareKernel 4 18) padded 10 10 := by decide
  have hlayer : Accepts (squareKernel 4 6) padded ∧ Covers (squareKernel 4 6) padded 10 10 := by
    decide
  have hadds : offsetOnlyPlan.Adds () {
      parameters := parameters "offset" (squareKernel 4 18) padded true ++
        parameters "deform" (squareKernel 4 6) padded true
      nodes := [(made "offset" padded true).node "x",
        (made "deform" padded true).deformedNode "x" "offset" none]
      outputs := ["deform"] } :=
    .bind (make_adds hsteering.1) <| .bind (make_adds hlayer.1) <| .bind (forward_adds _ _) <|
      .bind (forwardDeformed_adds _ _ _ _) (Assembly.adds_output _)
  have hassembles := assembles_buildFrom "deform_conv2d_offset_only" [⟨"x", [1, 4, 10, 10]⟩]
    hadds (by decide) (by decide)
  refine delivers_of_flow hassembles rfl
    (.cons [1, 18, 10, 10] ?_ <| .cons [1, 6, 10, 10] ?_ .nil) (by decide)
  · exact yields (by decide) hsteering.1 hsteering.2 rfl (by decide)
  · refine yields_deformed ?_ 1 hlayer.1 hlayer.2 rfl ?_ ?_ Nat.one_pos (one_dvd _) ?_ ?_ <;> decide

theorem withMask_delivers : withMask.Delivers [[1, 4, 10, 10]] [[1, 6, 10, 10]] := by
  have hsteering : Accepts (squareKernel 4 18) padded ∧
    Covers (squareKernel 4 18) padded 10 10 := by decide
  have hmasking : Accepts (squareKernel 4 9) padded ∧ Covers (squareKernel 4 9) padded 10 10 := by
    decide
  have hlayer : Accepts (squareKernel 4 6) padded ∧ Covers (squareKernel 4 6) padded 10 10 := by
    decide
  have hadds : maskedPlan.Adds () {
      parameters := parameters "offset" (squareKernel 4 18) padded true ++
        (parameters "mask_logits" (squareKernel 4 9) padded true ++
          parameters "deform" (squareKernel 4 6) padded false)
      nodes := [(made "offset" padded true).node "x", (made "mask_logits" padded true).node "x",
        ⟨"mask", .sigmoid "mask_logits"⟩,
        (made "deform" padded false).deformedNode "x" "offset" (some "mask")]
      outputs := ["deform"] } :=
    .bind (make_adds hsteering.1) <| .bind (make_adds hmasking.1) <| .bind (make_adds hlayer.1) <|
      .bind (forward_adds _ _) <| .bind (forward_adds _ _) <|
        .bind (Assembly.sigmoid_adds _ _) <| .bind (forwardDeformed_adds _ _ _ _)
          (Assembly.adds_output _)
  have hassembles := assembles_buildFrom "deform_conv2d_with_mask" [⟨"x", [1, 4, 10, 10]⟩]
    hadds (by decide) (by decide)
  refine delivers_of_flow hassembles rfl
    (.cons [1, 18, 10, 10] ?_ <| .cons [1, 9, 10, 10] ?_ <| .cons [1, 9, 10, 10] ?_ <|
      .cons [1, 6, 10, 10] ?_ .nil) (by decide)
  · exact yields (by decide) hsteering.1 hsteering.2 rfl (by decide)
  · exact yields (by decide) hmasking.1 hmasking.2 rfl (by decide)
  · exact Op.yields_sigmoid (by decide)
  · refine yields_deformed ?_ 1 hlayer.1 hlayer.2 rfl ?_ ?_ Nat.one_pos (one_dvd _) ?_ ?_ <;> decide

/-- Both deformable convolutions read the one offset; their weights were rounded before. -/
theorem sharedOffset_delivers :
    sharedOffset.Delivers [[1, 12, 64, 64]] [[1, 16, 62, 62], [1, 16, 62, 62]] := by
  have hsteering : Accepts (squareKernel 12 18) {} ∧ Covers (squareKernel 12 18) {} 64 64 := by
    decide
  have hmasking : Accepts (squareKernel 12 9) {} ∧ Covers (squareKernel 12 9) {} 64 64 := by
    decide
  have hlayer : Accepts (squareKernel 12 16) {} ∧ Covers (squareKernel 12 16) {} 64 64 := by
    decide
  have hadds : sharedOffsetPlan.Adds () {
      parameters := parameters "conv_0" (squareKernel 12 18) {} true ++
        (parameters "conv_1" (squareKernel 12 16) {} true ++
          (parameters "conv_2" (squareKernel 12 9) {} true ++
            parameters "conv_3" (squareKernel 12 16) {} true))
      nodes := [(made "conv_0" {} true).node "x",
        (made "conv_1" {} true).deformedNode "x" "conv_0" none, (made "conv_2" {} true).node "x",
        ⟨"mask", .sigmoid "conv_2"⟩,
        (made "conv_3" {} true).deformedNode "x" "conv_0" (some "mask")]
      outputs := ["conv_1", "conv_3"] } :=
    .bind (make_adds hsteering.1) <| .bind (make_adds hlayer.1) <| .bind (make_adds hmasking.1) <|
      .bind (make_adds hlayer.1) <| .bind (forward_adds _ _) <|
        .bind (forwardDeformed_adds _ _ _ _) <| .bind (forward_adds _ _) <|
          .bind (Assembly.sigmoid_adds _ _) <| .bind (forwardDeformed_adds _ _ _ _) <|
            .bind (Assembly.adds_output _) (Assembly.adds_output _)
  have hassembles := (assembles_buildFrom "torchvision_deform_conv2d" [⟨"x", [1, 12, 64, 64]⟩] hadds
    (by decide) (by decide)).mapConstants roundToHalf
  refine delivers_of_flow hassembles rfl
    (.cons [1, 18, 62, 62] ?_ <| .cons [1, 16, 62, 62] ?_ <| .cons [1, 9, 62, 62] ?_ <|
      .cons [1, 9, 62, 62] ?_ <| .cons [1, 16, 62, 62] ?_ .nil) (by decide)
  · exact yields (by decide) hsteering.1 hsteering.2 rfl (by decide)
  · refine yields_deformed ?_ 1 hlayer.1 hlayer.2 rfl ?_ ?_ Nat.one_pos (one_dvd _) ?_ ?_ <;> decide
  · exact yields (by decide) hmasking.1 hmasking.2 rfl (by decide)
  · exact Op.yields_sigmoid (by decide)
  · refine yields_deformed ?_ 1 hlayer.1 hlayer.2 rfl ?_ ?_ Nat.one_pos (one_dvd _) ?_ ?_ <;> decide

end Convolution

end Scenario

/-- Every scenario can be set up from every seed, with the inputs that its model declares. The model
runs on them, and no seed changes the shapes of its outputs, of which there are as many as declared:
for batch normalisations they are those of the inputs. -/
theorem Registry.builtin_delivers : List.Forall₂
    (fun s (row : String × List Shape × List Shape) =>
      s.name = row.1 ∧ s.Delivers row.2.1 row.2.2)
    builtin.scenarios [
      ("f_batch_norm", [[1, 16], [1, 2, 16], [1, 3, 12, 16]],
        [[1, 16], [1, 2, 16], [1, 3, 12, 16]]),
      ("f_batch_norm_single_channel", [[1, 1, 8]], [[1, 1, 8]]),
      ("f_batch_norm_without_affine", [[1, 4, 6]], [[1, 4, 6]]),
      ("torchvision_deform_conv2d", [[1, 12, 64, 64]], [[1, 16, 62, 62], [1, 16, 62, 62]]),
      ("deform_conv2d_offset_only", [[1, 4, 10, 10]], [[1, 6, 10, 10]]),
      ("deform_conv2d_with_mask", [[1, 4, 10, 10]], [[1, 6, 10, 10]])] :=
  .cons ⟨rfl, Scenario.batchNorm_delivers⟩ <|
    .cons ⟨rfl, Scenario.batchNormSingleChannel_delivers⟩ <|
    .cons ⟨rfl, Scenario.batchNormWithoutAffine_delivers⟩ <|
    .cons ⟨rfl, Scenario.sharedOffset_delivers⟩ <|
    .cons ⟨rfl, Scenario.offsetOnly_delivers⟩ <|
    .cons ⟨rfl, Scenario.withMask_delivers⟩ .nil

end TensorParity
