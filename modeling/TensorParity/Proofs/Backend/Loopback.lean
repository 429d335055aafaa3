import TensorParity.Proofs.Artifact.File
import TensorParity.Proofs.Backend.Weights
import TensorParity.Proofs.File.Path
import TensorParity.Proofs.Model.Run
import TensorParity.Proofs.Model.Shapes
import TensorParity.Scenario.Builtin

/-!
The back end without external programs, from an exported artifact to the outputs of inference. What
it loads is the model it was given, with its constants rounded to single precision, so inference is
the single-precision run of that model.
-/
namespace TensorParity

open Json

theorem WeightSlot.ofJson_toJson {w : WeightSlot} (hshape : w.shape.InWords)
    (hoffset : w.offset < Shape.wordLimit) : ofJson w.toJson = .ok w := by
  have hshape' := asShape_ofShape hshape
  have hoffset' : asWord (.ofNat w.offset) = .ok w.offset := asBounded_ofNat hoffset
  simp [ofJson, toJson, Json.record, walkRecord, walkFields, Slots.field, fill, required, asString,
    hshape', hoffset']
  rfl

namespace LoopbackStructure

/-- Whether the text can say the structure. -/
structure Writable (s : LoopbackStructure) : Prop where
  version : s.version < Nat.pow 2 32
  inputs : ∀ d ∈ s.inputs, d.shape.InWords
  nodes : ∀ n ∈ s.nodes, n.op.Finite
  weights : ∀ w ∈ s.weights, w.shape.InWords ∧ w.offset < Shape.wordLimit

theorem ofJson_toJson {s : LoopbackStructure} (h : s.Writable) : ofJson s.toJson = .ok s := by
  have hversion : asHalfWord (.ofNat s.version) = .ok s.version := asBounded_ofNat h.version
  have hinputs : asList InputDecl.ofJson (.array (s.inputs.map InputDecl.toJson)) = .ok s.inputs :=
    asList_map fun d hd => InputDecl.ofJson_toJson (h.inputs d hd)
  have hnodes : asList Node.ofJson (.array (s.nodes.map Node.toJson)) = .ok s.nodes :=
    asList_map fun n hn => Node.ofJson_toJson (h.nodes n hn)
  have houtputs : asList asString (.array (s.outputs.map .string)) = .ok s.outputs :=
    asList_map fun _ _ => rfl
  have hweights : asList WeightSlot.ofJson (.array (s.weights.map WeightSlot.toJson)) =
      .ok s.weights :=
    asList_map fun w hw => WeightSlot.ofJson_toJson (h.weights w hw).1 (h.weights w hw).2
  simp [ofJson, toJson, Json.record, walkRecord, walkFields, Slots.field, fill, required, asString,
    hversion, hinputs, hnodes, houtputs, hweights]
  rfl

theorem printable_toJson {s : LoopbackStructure} (h : s.Writable) :
    Printable maxDepth s.toJson := by
  have hword : s.version < Shape.wordLimit := Nat.lt_trans h.version (by decide)
  have hweight (w : WeightSlot) (hw : w ∈ s.weights) : Printable 2 w.toJson := by
    refine .object ?_
    simp only [List.forall_mem_cons, List.not_mem_nil, false_implies, implies_true, and_true]
    exact ⟨.string _, printable_ofShape (h.weights w hw).1, printable_ofNat (h.weights w hw).2⟩
  refine printable_mono (show Printable 5 s.toJson from .object ?_) (by decide)
  simp only [List.forall_mem_cons, List.not_mem_nil, false_implies, implies_true, and_true]
  exact ⟨printable_ofNat hword, .string _,
    printable_map fun d hd => printable_mono (d.printable_toJson (h.inputs d hd) 0) (by decide),
    printable_map fun n _ => n.printable_toJson 0, printable_map fun _ _ => .string _,
    printable_map fun w hw => printable_mono (hweight w hw) (by decide)⟩

/-- The structure of an artifact can be written if its constants have few enough elements. -/
theorem writable_ofArtifact {a : Artifact} (h : a.Writable)
    (hwords : (elementsOf a.constants).length < Shape.wordLimit) : (ofArtifact a).Writable := by
  refine ⟨show formatVersion < Nat.pow 2 32 by decide, h.graph.inputs, h.graph.nodes,
    fun w hw => ?_⟩
  obtain ⟨⟨c, -, hshape⟩, hoffset⟩ := mem_slots hw
  rw [hshape]
  exact ⟨c.tensor.inWords, by omega⟩

end LoopbackStructure

namespace Loopback

theorem decodeStructure_encode {s : LoopbackStructure} (h : s.Writable)
    (hversion : s.version = LoopbackStructure.formatVersion) :
    decodeStructure s.toJson.prettyText.toUTF8 = .ok s := by
  have hread :
      Json.decode LoopbackStructure.ofJson (Document.ofString s.toJson.prettyText) = .ok s := by
    rw [Document.ofString_prettyText (LoopbackStructure.printable_toJson h), Json.decode,
      LoopbackStructure.ofJson_toJson h]
    rfl
  simp only [decodeStructure, fromUTF8?_toUTF8, hread, Except.mapError, ok_bind]
  rw [if_neg (by simpa using hversion)]
  rfl

/-- The constants that a converted artifact has, at single precision. Of constants with one name the
last counts. -/
def roundedTable (constants : List FrozenConstant) : Table (Tensor Float) :=
  constants.foldl (fun t c => t.insert c.name (c.tensor.map roundToSingle)) .empty

/-- What a structure and its weights describe has the artifact's parts, its constants rounded. -/
theorem assemble_ofArtifact {a : Artifact}
    (hwords : (elementsOf a.constants).length < Shape.wordLimit) :
    assemble (.ofArtifact a) ((elementsOf a.constants).map roundToSingle).toArray =
      (Model.ofParts a.modelName a.graph.inputs (roundedTable a.constants) a.graph.nodes
        a.graph.outputs).mapError .graph := by
  have helements : ((elementsOf a.constants).map roundToSingle).toArray.toList =
      [] ++ (elementsOf a.constants).map roundToSingle := by simp
  have hslots := LoopbackStructure.foldlM_slots helements List.length_nil
    (by simpa using hwords) .empty
  simp only [assemble, LoopbackStructure.ofArtifact]
  rw [hslots]
  rfl

variable {m : Model} {inputs : List (Tensor Float)} {a : Artifact} {p workDir : Path}
  {fs fs' : FileSystem} {c : Converted}

/-- The converted files hold what conversion writes for an artifact. -/
structure Holds (fs : FileSystem) (c : Converted) (a : Artifact) : Prop where
  structureFile : fs.read c.structurePath =
      .ok (LoopbackStructure.ofArtifact a).toJson.prettyText.toUTF8 ∧
    fs.size c.structurePath = .ok (LoopbackStructure.ofArtifact a).toJson.prettyText.utf8ByteSize
  weightsFile : fs.read c.weightsPath = .ok (Weights.encode a.constants) ∧
    fs.size c.weightsPath = .ok (Weights.encode a.constants).size

/-- An artifact whose text and whose converted files are within the size limits. -/
structure Fits (a : Artifact) : Prop where
  text : a.encode.utf8ByteSize ≤ Artifact.maxBytes
  structureFile :
    (LoopbackStructure.ofArtifact a).toJson.prettyText.utf8ByteSize ≤ maxStructureBytes
  weightsFile : (Weights.encode a.constants).size ≤ maxWeightsBytes

/-- Limits that hold of what the texts may take hold of the texts. -/
theorem fits_of_writable (hwritable : a.Writable) (htext : 4 * a.room ≤ Artifact.maxBytes)
    (hstructure : 4 * (LoopbackStructure.ofArtifact a).toJson.room 0 ≤ maxStructureBytes)
    (hweights : 4 * (elementsOf a.constants).length ≤ maxWeightsBytes) : Fits a := by
  have hwords : (elementsOf a.constants).length < Shape.wordLimit := by
    have hlimit : maxWeightsBytes < Shape.wordLimit := by decide
    omega
  have hprintable := LoopbackStructure.printable_toJson
    (LoopbackStructure.writable_ofArtifact hwritable hwords)
  exact ⟨(Artifact.utf8ByteSize_encode_le hwritable).trans htext,
    (Json.utf8ByteSize_prettyText_le hprintable).trans hstructure,
    (Weights.size_encode a.constants).trans_le hweights⟩

/-- The constants of a captured model are rounded each. -/
theorem roundedTable_of_capture (hcapture : Artifact.capture m inputs = .ok a) :
    roundedTable a.constants = m.constants.map (Tensor.map roundToSingle) := by
  have hlist := Table.ofList_entries (m.constants.map (Tensor.map roundToSingle))
  rw [Table.ofList, Table.map, List.foldl_map] at hlist
  simp only [roundedTable, Artifact.constants_of_capture hcapture, List.foldl_map]
  exact hlist

/-- A converted model whose files hold what conversion writes is loaded from the artifact's parts,
its constants rounded. -/
theorem load_eq (hwritable : a.Writable) (hholds : Holds fs c a)
    (hstructureSize : (LoopbackStructure.ofArtifact a).toJson.prettyText.utf8ByteSize ≤
      maxStructureBytes)
    (hweightsSize : (Weights.encode a.constants).size ≤ maxWeightsBytes) :
    load fs c = ((Model.ofParts a.modelName a.graph.inputs (roundedTable a.constants) a.graph.nodes
      a.graph.outputs).mapError .graph).mapError .structureFile := by
  have hwords : (elementsOf a.constants).length < Shape.wordLimit := by
    have hlimit : maxWeightsBytes < Shape.wordLimit := by decide
    rw [Weights.size_encode] at hweightsSize
    omega
  have hcontent : readBounded fs c.structurePath maxStructureBytes =
      .ok (LoopbackStructure.ofArtifact a).toJson.prettyText.toUTF8 := by
    simp only [readBounded, hholds.structureFile, Except.mapError, ok_bind]
    rw [if_neg (Nat.not_lt.mpr hstructureSize)]
  have hblob : readBounded fs c.weightsPath maxWeightsBytes = .ok (Weights.encode a.constants) := by
    simp only [readBounded, hholds.weightsFile, Except.mapError, ok_bind]
    rw [if_neg (Nat.not_lt.mpr hweightsSize)]
  have hdecoded := decodeStructure_encode
    (LoopbackStructure.writable_ofArtifact hwritable hwords) rfl
  have helements := Weights.decode_blob a.constants
  rw [load, hcontent, ok_bind, hdecoded]
  simp only [Except.mapError, ok_bind, hblob, helements]
  rw [assemble_ofArtifact hwords]
  rfl

/-- A converted model whose files hold what conversion writes is loaded as the captured model, its
constants rounded. -/
theorem load_eq_ok (hcapture : Artifact.capture m inputs = .ok a) (hholds : Holds fs c a)
    (hstructureSize : (LoopbackStructure.ofArtifact a).toJson.prettyText.utf8ByteSize ≤
      maxStructureBytes)
    (hweightsSize : (Weights.encode a.constants).size ≤ maxWeightsBytes) :
    load fs c = .ok (m.mapConstants roundToSingle) := by
  rw [load_eq (Artifact.writable_of_capture hcapture) hholds hstructureSize hweightsSize,
    roundedTable_of_capture hcapture]
  obtain ⟨-, -, constants, shapes, -, -, rfl⟩ := Artifact.capture_eq_ok hcapture
  have hparts := Model.ofParts_parts (m.mapConstants roundToSingle)
  exact congrArg (fun model => (model.mapError StructureFault.graph).mapError
    InferenceError.structureFile) hparts

/-- The names of the two files end differently. -/
theorem pathNames_converted_ne (workDir : Path) {stem : String} (hstem : '/' ∉ stem.toList) :
    (FileSystem.pathNames (workDir.join (stem ++ "." ++ structureSuffix))).getLast? ≠
      (FileSystem.pathNames (workDir.join (stem ++ "." ++ weightsSuffix))).getLast? := by
  rw [Path.getLast?_join (by simp [hstem, structureSuffix]) (by simp),
    Path.getLast?_join (by simp [hstem, weightsSuffix]) (by simp)]
  intro h
  have hsuffix := congrArg String.toList (Option.some.inj h)
  simp only [String.toList_append] at hsuffix
  exact absurd (List.append_cancel_left hsuffix) (by decide)

/-- An artifact that is loaded is converted, unless the files refuse. -/
theorem convert_eq_ok {name : String} (hload : Artifact.load fs p = .ok a)
    (hname : p.fileName? = some name)
    (hfiles : ∀ path e, ((convert workDir p a.inputShapes).outcome fs).1 ≠ .error (.file path e)) :
    ∃ c fs', (convert workDir p a.inputShapes).outcome fs = (.ok c, fs') ∧ Holds fs' c a := by
  have hpaths : convertedPaths workDir p structureSuffix weightsSuffix =
      .ok ⟨workDir.join (Path.stem name ++ "." ++ structureSuffix),
        workDir.join (Path.stem name ++ "." ++ weightsSuffix)⟩ := by
    simp only [convertedPaths, Path.fileStem?, hname, Option.map_some]
  have hne := pathNames_converted_ne workDir (Path.not_mem_stem (Path.not_mem_fileName hname))
  generalize workDir.join (Path.stem name ++ "." ++ structureSuffix) = structurePath at hpaths hne
  generalize workDir.join (Path.stem name ++ "." ++ weightsSuffix) = weightsPath at hpaths hne
  simp only [convert, FileAction.outcome_bind, FileAction.outcome_get, FileAction.outcome_ofResult,
    hload, Except.mapError, ne_eq, not_true_eq_false, if_false, FileAction.outcome_change,
    FileAction.outcome_lift, hpaths, FileAction.outcome_pure] at hfiles ⊢
  obtain ⟨directories, made, hdirectories⟩ : ∃ result made,
      (FileAction.makeDirectories workDir (ConversionError.file workDir)).outcome fs =
        (result, made) := ⟨_, _, rfl⟩
  rcases FileAction.makeDirectories_cases hdirectories with ⟨rfl, -⟩ | ⟨e, rfl, -⟩
  rotate_left
  · exact (hfiles workDir e (by simp only [hdirectories])).elim
  · simp only [hdirectories] at hfiles ⊢
    cases hfirst : made.write structurePath
        (LoopbackStructure.ofArtifact a).toJson.prettyText.toUTF8 with
    | error e => exact (hfiles structurePath e (by simp only [hfirst])).elim
    | ok first =>
      simp only [hfirst] at hfiles ⊢
      cases hsecond : first.write weightsPath (Weights.encode a.constants) with
      | error e => exact (hfiles weightsPath e (by simp only [hsecond])).elim
      | ok second =>
        obtain ⟨hread, hsize, hread', hsize'⟩ := FileSystem.read_write_write hfirst hsecond hne
        exact ⟨_, second, rfl, ⟨hread, hsize⟩, hread', hsize'⟩

/-- The single-precision run of an exported model has its outputs or leaves a buffer. -/
theorem run_single_of_capture (hcapture : Artifact.capture m inputs = .ok a) :
    (∃ outputs, m.run .single inputs = .ok outputs) ∨
      ∃ node, m.run .single inputs = .error (.outside node) := by
  obtain ⟨-, -, constants, shapes, -, htrace, -⟩ := Artifact.capture_eq_ok hcapture
  obtain ⟨values, hvalues, -⟩ := bind_eq_ok.mp htrace
  obtain ⟨outputs, hdouble⟩ := Model.run_of_evaluate hvalues
  have hinputs : List.Forall₂ SameShape inputs inputs := List.forall₂_same.mpr fun _ _ => rfl
  rcases (Model.alike_run (q := .single) (.refl m) hinputs).eq_ok_or hdouble with
    ⟨single, hsingle, -⟩ | houtside
  · exact .inl ⟨single, hsingle⟩
  · exact .inr houtside

/-- An exported model is converted, unless the files refuse, and inference on the converted files is
the single-precision run of the model. -/
theorem infer_eq_run (hexport : (Artifact.exportModel m inputs p).outcome fs = (.ok a, fs'))
    (htext : a.encode.utf8ByteSize ≤ Artifact.maxBytes)
    (hstructure : (LoopbackStructure.ofArtifact a).toJson.prettyText.utf8ByteSize ≤
      maxStructureBytes)
    (hweights : (Weights.encode a.constants).size ≤ maxWeightsBytes)
    (hfiles : ∀ path e, ((convert workDir p m.inputShapes).outcome fs').1 ≠ .error (.file path e)) :
    ∃ c fs'', (convert workDir p m.inputShapes).outcome fs' = (.ok c, fs'') ∧
      (infer c inputs).outcome fs'' = ((m.run .single inputs).mapError .execution, fs'') := by
  obtain ⟨hcapture, hwrite⟩ := Artifact.export_eq_ok hexport
  obtain ⟨⟨name, hname⟩, -⟩ := Artifact.write_eq_ok hwrite
  have hshapes : a.inputShapes = m.inputShapes := by
    obtain ⟨-, -, _, _, -, -, rfl⟩ := Artifact.capture_eq_ok hcapture
    rfl
  rw [← hshapes] at hfiles ⊢
  obtain ⟨c, fs'', hconvert, hholds⟩ :=
    convert_eq_ok (Artifact.load_of_export hexport htext) hname hfiles
  have hload := load_eq_ok hcapture hholds hstructure hweights
  refine ⟨c, fs'', hconvert, ?_⟩
  simp only [infer, FileAction.outcome_bind, FileAction.outcome_get, hload,
    FileAction.outcome_lift, FileAction.outcome_ofResult, Model.run_roundToSingle]

/-- The outputs of inference are those of the single-precision run, bit for bit. There are outputs
unless a deformable convolution samples outside its input, which the run in double precision need
not have done. -/
theorem infer_convert (hexport : (Artifact.exportModel m inputs p).outcome fs = (.ok a, fs'))
    (htext : a.encode.utf8ByteSize ≤ Artifact.maxBytes)
    (hstructure : (LoopbackStructure.ofArtifact a).toJson.prettyText.utf8ByteSize ≤
      maxStructureBytes)
    (hweights : (Weights.encode a.constants).size ≤ maxWeightsBytes)
    (hfiles : ∀ path e, ((convert workDir p m.inputShapes).outcome fs').1 ≠ .error (.file path e)) :
    ∃ c fs'', (convert workDir p m.inputShapes).outcome fs' = (.ok c, fs'') ∧
      (infer c inputs).outcome fs'' = ((m.run .single inputs).mapError .execution, fs'') ∧
      ((∃ outputs, m.run .single inputs = .ok outputs ∧
          (infer c inputs).outcome fs'' = (.ok outputs, fs'')) ↔
        ∀ node, m.run .single inputs ≠ .error (.outside node)) := by
  obtain ⟨c, fs'', hconvert, hinfer⟩ := infer_eq_run hexport htext hstructure hweights hfiles
  refine ⟨c, fs'', hconvert, hinfer, ?_⟩
  rw [hinfer]
  rcases run_single_of_capture (Artifact.export_eq_ok hexport).1 with
    ⟨outputs, hrun⟩ | ⟨node, hrun⟩
  · rw [hrun]
    exact ⟨fun _ _ => nofun, fun _ => ⟨outputs, rfl, rfl⟩⟩
  · rw [hrun]
    constructor
    · rintro ⟨_, hok, -⟩
      cases hok
    · intro hnever
      exact absurd rfl (hnever node)

/-- A model whose offsets are differences of numbers that only double precision holds, over an empty
input. -/
def overflowing : Model :=
  ⟨"m", [⟨"x", [1, 1, 0, 1]⟩, ⟨"z", [1, 2, 2, 3]⟩],
    ⟨[("mean", ⟨[2], #[1e300, 1e300], by decide⟩), ("var", ⟨[2], #[1.0, 1.0], by decide⟩),
      ("w", ⟨[1, 1, 1, 1], #[1.0], by decide⟩)], by decide⟩,
    [⟨"off", .batchNorm "z" "mean" "var" none none 0.0⟩,
      ⟨"y", .deformConv2d "x" "off" none "w" none Scenario.padded⟩],
    ["y"], by decide⟩

def overflowingInputs : List (Tensor Float) :=
  [⟨[1, 1, 0, 1], #[], by decide⟩, ⟨[1, 2, 2, 3], Array.replicate 12 1e300, by decide⟩]

/-- What the model is frozen into. -/
def overflowingArtifact : Artifact :=
  ⟨"m",
    ⟨overflowing.inputs, overflowing.nodes, overflowing.outputs,
      ⟨[("mean", [2]), ("off", [1, 2, 2, 3]), ("var", [2]), ("w", [1, 1, 1, 1]),
        ("x", [1, 1, 0, 1]),
        ("y", [1, 1, 2, 3]), ("z", [1, 2, 2, 3])], by decide⟩⟩,
    [⟨"mean", ⟨[2], #[1e300, 1e300], by decide⟩⟩, ⟨"var", ⟨[2], #[1.0, 1.0], by decide⟩⟩,
      ⟨"w", ⟨[1, 1, 1, 1], #[1.0], by decide⟩⟩]⟩

/-- Nothing but an artifact. -/
def lone (a : Artifact) : FileSystem := { entries := [(["a.cpa"], .file a.encode.toUTF8)] }

theorem capture_overflowing :
    Artifact.capture overflowing overflowingInputs = .ok overflowingArtifact := by
  decide +kernel

/-- The export of a captured model makes nothing but the artifact. -/
theorem export_lone (hcapture : Artifact.capture m inputs = .ok a) :
    (Artifact.exportModel m inputs ⟨"a.cpa"⟩).outcome {} = (.ok a, lone a) := by
  have hwrite : (a.write ⟨"a.cpa"⟩).outcome {} = (.ok (), lone a) := rfl
  simp only [Artifact.exportModel, FileAction.outcome_bind, FileAction.outcome_lift, hcapture,
    hwrite, FileAction.outcome_pure]

theorem fits_overflowing : Fits overflowingArtifact :=
  fits_of_writable (Artifact.writable_of_capture capture_overflowing) (by decide +kernel)
    (by decide +kernel) (by decide +kernel)

/-- The files refuse nothing where there are no others. -/
theorem convert_lone_at {dir : Path} (hdir : dir = ⟨"w"⟩ ∨ dir = ⟨""⟩) {a : Artifact}
    (hload : Artifact.load (lone a) ⟨"a.cpa"⟩ = .ok a) (path : Path) (e : FileError) :
    ((convert dir ⟨"a.cpa"⟩ a.inputShapes).outcome (lone a)).1 ≠ .error (.file path e) := by
  obtain ⟨c, fs, hconvert⟩ : ∃ c fs, (convert dir ⟨"a.cpa"⟩ a.inputShapes).outcome (lone a) =
      (.ok c, fs) := by
    simp only [convert, FileAction.outcome_bind, FileAction.outcome_get,
      FileAction.outcome_ofResult, hload, Except.mapError, ne_eq, not_true_eq_false, if_false,
      FileAction.outcome_change, FileAction.outcome_lift, FileAction.outcome_pure]
    rcases hdir with rfl | rfl <;> exact ⟨_, _, rfl⟩
  rw [hconvert]
  simp

theorem convert_lone {a : Artifact} (hload : Artifact.load (lone a) ⟨"a.cpa"⟩ = .ok a) (path : Path)
    (e : FileError) :
    ((convert ⟨"w"⟩ ⟨"a.cpa"⟩ a.inputShapes).outcome (lone a)).1 ≠ .error (.file path e) :=
  convert_lone_at (.inl rfl) hload path e

theorem run_overflowing : overflowing.run .single overflowingInputs = .error (.outside "y") := by
  decide +kernel

/-- It is exported and converted, and then its inference leaves a buffer. -/
theorem infer_overflowing : ∃ c fs,
    (convert ⟨"w"⟩ ⟨"a.cpa"⟩ overflowing.inputShapes).outcome (lone overflowingArtifact) =
      (.ok c, fs) ∧
      (infer c overflowingInputs).outcome fs = (.error (.execution (.outside "y")), fs) := by
  have hexport := export_lone capture_overflowing
  obtain ⟨htext, hstructure, hweights⟩ := fits_overflowing
  have hfiles := convert_lone (Artifact.load_of_export hexport htext)
  obtain ⟨c, fs, hconvert, hinfer, -⟩ := infer_convert hexport htext hstructure hweights hfiles
  rw [run_overflowing] at hinfer
  exact ⟨c, fs, hconvert, hinfer⟩

/-- An export that succeeds does not promise outputs, within all the limits. -/
theorem export_without_outputs :
    (Artifact.exportModel overflowing overflowingInputs ⟨"a.cpa"⟩).outcome {} =
        (.ok overflowingArtifact, lone overflowingArtifact) ∧
      overflowingArtifact.encode.utf8ByteSize ≤ Artifact.maxBytes ∧
      (LoopbackStructure.ofArtifact overflowingArtifact).toJson.prettyText.utf8ByteSize ≤
        maxStructureBytes ∧
      (Weights.encode overflowingArtifact.constants).size ≤ maxWeightsBytes ∧
      ∃ c fs, (convert ⟨"w"⟩ ⟨"a.cpa"⟩ overflowing.inputShapes).outcome (lone overflowingArtifact) =
          (.ok c, fs) ∧
        ∀ outputs, ((infer c overflowingInputs).outcome fs).1 ≠ .ok outputs := by
  have hexport := export_lone capture_overflowing
  obtain ⟨htext, hstructure, hweights⟩ := fits_overflowing
  refine ⟨hexport, htext, hstructure, hweights, ?_⟩
  have hfiles := convert_lone (Artifact.load_of_export hexport htext)
  obtain ⟨c, fs, hconvert, hinfer⟩ := infer_eq_run hexport htext hstructure hweights hfiles
  refine ⟨c, fs, hconvert, fun outputs hok => ?_⟩
  rw [hinfer, run_overflowing] at hok
  cases hok

end Loopback

end TensorParity
