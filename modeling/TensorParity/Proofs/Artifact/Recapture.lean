import TensorParity.Artifact.Capture
import TensorParity.Proofs.Artifact.Capture
import TensorParity.Proofs.Artifact.Export
import TensorParity.Proofs.Model.Assembly

/-!
Freezing and replaying. The constants of an artifact make a table exactly when no name occurs twice,
and the model is then assembled from the artifact's parts. An artifact gives back the model it was
captured from, and its shapes are those of the outputs of every run; a second capture gives the
artifact again wherever it comes to an end.
-/
namespace TensorParity

namespace Artifact

/-- The constants by name. Of constants with one name the last counts. -/
def frozenTable (constants : List FrozenConstant) : Table (Tensor Float) :=
  constants.foldl (fun t c => t.insert c.name c.tensor) .empty

theorem constantTable_eq_ok_iff {constants : List FrozenConstant} {t : Table (Tensor Float)} :
    constantTable constants = .ok t ↔
      (constants.map (·.name)).Nodup ∧ t = frozenTable constants :=
  Draft.foldlM_insertNew_eq_ok_iff FrozenConstant.name FrozenConstant.tensor

/-- A model is replayed exactly when no constant's name occurs twice and the parts make a model. -/
theorem toModel_eq_ok_iff {a : Artifact} {m : Model} :
    a.toModel = .ok m ↔ (a.constants.map (·.name)).Nodup ∧
      Model.ofParts a.modelName a.graph.inputs (frozenTable a.constants) a.graph.nodes
        a.graph.outputs = .ok m := by
  rw [toModel, bind_eq_ok]
  simp only [mapError_eq_ok, constantTable_eq_ok_iff]
  constructor
  · rintro ⟨t, ⟨hdistinct, rfl⟩, hparts⟩
    exact ⟨hdistinct, hparts⟩
  · rintro ⟨hdistinct, hparts⟩
    exact ⟨_, ⟨hdistinct, rfl⟩, hparts⟩

end Artifact

namespace Model

/-- Parts make a model whatever the numbers of their constants are. -/
theorem ofParts_map (f : Float → Float) (name : String) (decls : List InputDecl)
    (constants : Table (Tensor Float)) (nodes : List Node) (outputs : List String) :
    ofParts name decls (constants.map (Tensor.map f)) nodes outputs =
      (ofParts name decls constants nodes outputs).map (mapConstants f) := by
  cases hcheck : check (decls.map (·.name)) constants.keys nodes outputs with
  | ok u =>
    have hmodel := ofParts_parts ⟨name, decls, constants, nodes, outputs, hcheck⟩
    have hmapped := ofParts_parts (mapConstants f ⟨name, decls, constants, nodes, outputs, hcheck⟩)
    simp only at hmodel
    rw [hmodel]
    exact hmapped
  | error e =>
    have hrefused (t : Table (Tensor Float)) (hkeys : t.keys = constants.keys) :
        ofParts name decls t nodes outputs = .error e := by
      rw [← hkeys] at hcheck
      unfold ofParts
      split
      · rename_i hok
        rw [hcheck] at hok
        cases hok
      · rename_i hfault
        rw [hcheck] at hfault
        cases hfault
        rfl
    rw [hrefused constants rfl, hrefused _ (Table.keys_map _ _)]
    rfl

end Model

variable {m : Model} {inputs inputs' : List (Tensor Float)} {a : Artifact}

/-- Inputs of the declared shapes, one for each declaration. -/
theorem declared_iff_map_shape {decls : List InputDecl} :
    List.Forall₂ (fun decl (t : Tensor Float) => t.shape = decl.shape) decls inputs ↔
      inputs.map (·.shape) = decls.map (·.shape) := by
  have heq : inputs.map (·.shape) = decls.map (·.shape) ↔
      List.Forall₂ (· = ·) (decls.map (·.shape)) (inputs.map (·.shape)) := by
    rw [List.forall₂_eq_eq_eq, eq_comm]
  rw [heq, List.forall₂_map_left_iff, List.forall₂_map_right_iff]
  simp only [eq_comm]

namespace Artifact

/-- Constants frozen one by one make up the table they come from. -/
theorem frozenTable_entries (t : Table (Tensor Float)) :
    frozenTable (t.entries.map fun entry => ⟨entry.1, entry.2⟩) = t := by
  rw [frozenTable, List.foldl_map]
  exact Table.ofList_entries t

theorem nodup_entries (t : Table (Tensor Float)) :
    ((t.entries.map fun entry => (⟨entry.1, entry.2⟩ : FrozenConstant)).map (·.name)).Nodup := by
  rw [List.map_map]
  exact t.nodup_keys

/-- The model of a captured artifact is the one that was captured. -/
theorem toModel_of_capture (h : capture m inputs = .ok a) : a.toModel = .ok m := by
  have hconstants := constants_of_capture h
  obtain ⟨-, -, constants, shapes, -, -, rfl⟩ := capture_eq_ok h
  obtain rfl : constants = _ := hconstants
  refine toModel_eq_ok_iff.mpr ⟨nodup_entries m.constants, ?_⟩
  rw [frozenTable_entries]
  exact Model.ofParts_parts m

/-- Shapes that a capture accepted are accepted again, and the constants with them. What is left to
decide is the trace. -/
theorem capture_of_trace (h : capture m inputs = .ok a)
    (hshapes : inputs'.map (·.shape) = m.inputs.map (·.shape))
    (htrace : m.trace .double inputs' = .ok a.graph.valueShapes) : capture m inputs' = .ok a := by
  obtain ⟨-, -, constants, shapes, hconstants, -, rfl⟩ := capture_eq_ok h
  obtain ⟨hlength, hpairs⟩ := List.forall₂_iff_zip.mp (declared_iff_map_shape.mpr hshapes)
  rw [capture_of_shapes hlength.symm fun _ hpair => hpairs hpair, hconstants, ok_bind, htrace]
  rfl

/-- Over inputs of the declared shapes a captured model is captured as before, unless the trace
leaves a buffer. -/
theorem capture_again_iff (h : capture m inputs = .ok a)
    (hshapes : inputs'.map (·.shape) = m.inputs.map (·.shape)) :
    capture m inputs' = .ok a ↔ ∀ node, m.trace .double inputs' ≠ .error (.outside node) := by
  obtain ⟨-, -, constants, shapes, -, htrace, ha⟩ := capture_eq_ok h
  have hvalues : a.graph.valueShapes = shapes := by rw [ha]
  constructor
  · intro hagain node houtside
    obtain ⟨-, -, _, _, -, htrace', -⟩ := capture_eq_ok hagain
    rw [houtside] at htrace'
    cases htrace'
  · intro hinside
    have hsame := sameShape_iff_map.mpr ((shapes_of_capture h).trans hshapes.symm)
    have halike := Model.alike_trace (p := .double) (q := .double) (.refl m) hsame
    rcases halike.eq_ok_or htrace with ⟨_, htrace', rfl⟩ | ⟨node, houtside⟩
    · exact capture_of_trace h hshapes (hvalues ▸ htrace')
    · exact absurd houtside (hinside node)

/-- The shapes of an artifact are those of the outputs of any run of its model. -/
theorem valueShape?_of_run {p : Precision} {outputs : OutputTuple} (h : capture m inputs = .ok a)
    (hrun : m.run p inputs' = .ok outputs) :
    List.Forall₂ (fun name t => a.valueShape? name = some t.shape) m.outputs outputs := by
  obtain ⟨-, -, constants, shapes, -, htrace, rfl⟩ := capture_eq_ok h
  obtain ⟨values, hvalues, houtputs⟩ := bind_eq_ok.mp hrun
  have hdeclared := (Model.evaluate_eq_ok_iff.mp hvalues).1
  have hsame : List.Forall₂ SameShape inputs inputs' := by
    rw [sameShape_iff_map, shapes_of_capture h]
    exact (declared_iff_map_shape.mp hdeclared).symm
  have hshapes : shapes = (m.environment p values).map (·.shape) := by
    have halike := Model.alike_trace (p := .double) (q := p) (.refl m) hsame
    rw [htrace, Model.trace, hvalues, ok_bind] at halike
    cases halike with
    | ok heq => rw [heq, Model.shapes_eq]
  refine (mapM_eq_ok_iff.mp houtputs).imp fun name t hlookup => ?_
  have hfound := (m.lookup_eq_ok_iff p values name t).mp hlookup
  rw [valueShape?, hshapes, Table.find?_map, hfound]
  rfl

/-- An artifact gives back the model it was captured from. Capturing that model again gives the
artifact again, for every choice of inputs of the declared shapes whose trace leaves no buffer and
for no other; and the artifact has the shape of every output of every run. -/
theorem replay_of_capture (h : capture m inputs = .ok a) :
    a.toModel = .ok m ∧
      (∀ inputs', inputs'.map (·.shape) = m.inputs.map (·.shape) → (capture m inputs' = .ok a ↔
        ∀ node, m.trace .double inputs' ≠ .error (.outside node))) ∧
      (∃ outputs, m.run .double inputs = .ok outputs) ∧
      ∀ p inputs' outputs, m.run p inputs' = .ok outputs →
        List.Forall₂ (fun name t => a.valueShape? name = some t.shape) m.outputs outputs := by
  refine ⟨toModel_of_capture h, fun _ => capture_again_iff h, ?_, fun _ _ _ =>
    valueShape?_of_run h⟩
  obtain ⟨-, -, constants, shapes, -, htrace, -⟩ := capture_eq_ok h
  obtain ⟨values, hvalues, -⟩ := bind_eq_ok.mp htrace
  exact Model.run_of_evaluate hvalues

/-- The artifact of a model that samples an empty plane. -/
def hollow : Artifact :=
  ⟨"m", ⟨Model.hollow.inputs, Model.hollow.nodes, ["y"], Model.hollowShapes⟩,
    Model.hollow.constants.entries.map fun entry => ⟨entry.1, entry.2⟩⟩

theorem capture_hollow : capture Model.hollow (Model.hollowInputs 0.0) = .ok hollow := by
  decide +kernel

/-- Other offsets that are numbers give the same artifact. -/
theorem recapture_hollow : capture Model.hollow (Model.hollowInputs 2.0) = .ok hollow := by
  refine ((replay_of_capture capture_hollow).2.1 (Model.hollowInputs 2.0) rfl).mpr ?_
  have htrace : Model.hollow.trace .double (Model.hollowInputs 2.0) = .ok Model.hollowShapes := by
    decide +kernel
  intro node houtside
  rw [htrace] at houtside
  cases houtside

/-- The model of an artifact is not captured again at offsets that are no numbers. -/
theorem recapture_refused : ¬ ∀ (m : Model) (inputs : List (Tensor Float)) (a : Artifact),
    capture m inputs = .ok a → ∀ replayed, a.toModel = .ok replayed → ∀ inputs',
      inputs'.map (·.shape) = replayed.inputs.map (·.shape) → capture replayed inputs' = .ok a := by
  intro hagain
  have hcapture := hagain Model.hollow _ hollow capture_hollow Model.hollow
    (toModel_of_capture capture_hollow) (Model.hollowInputs (0.0 / 0.0)) rfl
  exact (capture_again_iff capture_hollow rfl).mp hcapture "y" Model.trace_hollow.2

end Artifact

end TensorParity
