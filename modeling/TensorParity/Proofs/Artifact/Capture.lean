import TensorParity.Proofs.Artifact.Writable
import TensorParity.Proofs.Model.Shapes
import TensorParity.Scenario.Builtin

/-!
What the graph of an artifact depends on. Shapes and refusals follow from the structure of a model
and the shapes of its inputs, except that a number decides whether a deformable convolution leaves an
empty plane; two models that are both captured cannot part there.
-/
namespace TensorParity

variable {m m' : Model} {inputs inputs' : List (Tensor Float)} {a a' : Artifact}

theorem sameShape_iff_map : List.Forall₂ SameShape inputs inputs' ↔
    inputs.map (·.shape) = inputs'.map (·.shape) := by
  rw [← List.forall₂_eq_eq_eq, List.forall₂_map_left_iff, List.forall₂_map_right_iff]
  rfl

theorem Artifact.shapes_of_capture (h : capture m inputs = .ok a) :
    inputs.map (·.shape) = m.inputs.map (·.shape) := by
  obtain ⟨hlength, hcheck, -⟩ := capture_eq_ok h
  have hdeclared : List.Forall₂ (fun decl t => t.shape = decl.shape) m.inputs inputs := by
    refine List.forall₂_iff_zip.mpr ⟨hlength, ?_⟩
    intro decl t hpair
    exact checkInputs_eq_ok hcheck (decl, t) hpair
  rw [← List.forall₂_eq_eq_eq, List.forall₂_map_left_iff, List.forall₂_map_right_iff]
  exact hdeclared.flip

theorem Artifact.inputShapes_of_capture (h : capture m inputs = .ok a) :
    a.inputShapes = inputs.map (·.shape) := by
  have hshapes := shapes_of_capture h
  obtain ⟨-, -, constants, shapes, -, -, rfl⟩ := capture_eq_ok h
  exact hshapes.symm

/-- Models of one structure that are both captured have one graph. -/
theorem Artifact.graph_of_captures (h : m.SameStructure m') (hcapture : capture m inputs = .ok a)
    (hcapture' : capture m' inputs' = .ok a') : a.graph = a'.graph := by
  have hshapes : inputs.map (·.shape) = inputs'.map (·.shape) := by
    rw [shapes_of_capture hcapture, shapes_of_capture hcapture', h.inputs]
  have halike := Model.alike_trace (p := .double) (q := .double) h (sameShape_iff_map.mpr hshapes)
  obtain ⟨-, -, constants, shapes, -, htrace, rfl⟩ := capture_eq_ok hcapture
  obtain ⟨-, -, constants', shapes', -, htrace', rfl⟩ := capture_eq_ok hcapture'
  rw [htrace, htrace'] at halike
  cases halike with
  | ok hsame =>
    subst hsame
    simp only [h.inputs, h.nodes, h.outputs]

namespace Model

/-- Traces of models of one structure over inputs of the same shapes are equal exactly when they
leave a buffer at the same node or not at all, and captures of such models have one graph. -/
theorem trace_eq_iff (h : m.SameStructure m') (hinputs : List.Forall₂ SameShape inputs inputs')
    (p q : Precision) :
    (m.trace p inputs = m'.trace q inputs' ↔ ∀ node,
        m.trace p inputs = .error (.outside node) ↔ m'.trace q inputs' = .error (.outside node)) ∧
      ∀ tensors tensors' a a', Artifact.capture m tensors = .ok a →
        Artifact.capture m' tensors' = .ok a' →
        a.graph = a'.graph ∧ a.graphChecksum = a'.graphChecksum := by
  refine ⟨(alike_trace h hinputs).eq_iff, ?_⟩
  intro tensors tensors' a a' hcapture hcapture'
  have hgraph := Artifact.graph_of_captures h hcapture hcapture'
  exact ⟨hgraph, congrArg TracedGraph.checksum hgraph⟩

/-- Samples an empty plane at offsets that are inputs. -/
def hollow : Model :=
  ⟨"m", [⟨"x", [1, 1, 0, 2]⟩, ⟨"off", [1, 2, 2, 4]⟩],
    ⟨[("w", ⟨[1, 1, 1, 1], #[0.5], by decide⟩)], by decide⟩,
    [⟨"y", .deformConv2d "x" "off" none "w" none Scenario.padded⟩], ["y"], by decide⟩

/-- An empty plane, and offsets that are all one number. -/
def hollowInputs (offset : Float) : List (Tensor Float) :=
  [⟨[1, 1, 0, 2], #[], by decide⟩,
    ⟨[1, 2, 2, 4], Array.replicate 16 offset, by rw [Array.size_replicate]; decide⟩]

theorem sameShape_hollowInputs (a b : Float) :
    List.Forall₂ SameShape (hollowInputs a) (hollowInputs b) :=
  .cons rfl (.cons rfl .nil)

/-- The shapes of its values, where they can be computed. -/
def hollowShapes : Table Shape :=
  ⟨[("off", [1, 2, 2, 4]), ("w", [1, 1, 1, 1]), ("x", [1, 1, 0, 2]), ("y", [1, 1, 2, 4])],
    by decide⟩

theorem trace_hollow : hollow.trace .double (hollowInputs 0.0) = .ok hollowShapes ∧
    hollow.trace .double (hollowInputs (0.0 / 0.0)) = .error (.outside "y") := by
  decide +kernel

/-- Offsets that are numbers do not part, at any two precisions. -/
theorem trace_hollow_offsets :
    hollow.trace .single (hollowInputs 2.0) = hollow.trace .double (hollowInputs 0.0) := by
  refine (trace_eq_iff (.refl hollow) (sameShape_hollowInputs 2.0 0.0) .single .double).1.mpr ?_
  have hsingle : hollow.trace .single (hollowInputs 2.0) = .ok hollowShapes := by decide +kernel
  rw [hsingle, trace_hollow.1]
  intro node
  rfl

/-- One model over inputs of the same shapes: an offset that is no number leaves the plane. -/
theorem trace_depends_on_numbers :
    ¬ ∀ (m m' : Model), m.SameStructure m' → ∀ inputs inputs' : List (Tensor Float),
      List.Forall₂ SameShape inputs inputs' → ∀ p q : Precision,
        m.trace p inputs = m'.trace q inputs' := by
  intro hsame
  have htrace := hsame hollow hollow (.refl hollow) _ _
    (sameShape_hollowInputs 0.0 (0.0 / 0.0)) .double .double
  rw [trace_hollow.1, trace_hollow.2] at htrace
  cases htrace

end Model

end TensorParity
