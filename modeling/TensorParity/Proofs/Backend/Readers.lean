import TensorParity.Proofs.Artifact.Recapture
import TensorParity.Proofs.Backend.Loopback

/-!
The two readers of an artifact: replaying it, and converting it and loading the converted files.
They describe one model, up to the rounding of its constants, as long as no constant's name occurs
twice. Replaying refuses a second constant of one name, loading lets the last one count. Constants of
half precision are loaded as they were.
-/
namespace TensorParity

namespace Loopback

variable {a : Artifact} {m : Model} {p workDir : Path} {text : String} {fs fs' : FileSystem}
  {c : Converted}

/-- What is loaded is what the text of the file says. -/
theorem eq_of_load {loaded : Artifact} (hread : fs.readText p = .ok text)
    (hdecode : Artifact.decode text = .ok a) (hload : Artifact.load fs p = .ok loaded) :
    loaded = a := by
  obtain ⟨size, -, h⟩ := bind_eq_ok.mp hload
  obtain ⟨_, -, h⟩ := bind_eq_ok.mp h
  obtain ⟨found, hfound, h⟩ := bind_eq_ok.mp h
  rw [mapError_eq_ok, hread] at hfound
  obtain rfl := Except.ok.inj hfound
  rw [hdecode] at h
  exact (Except.ok.inj h).symm

/-- A conversion that succeeds has loaded an artifact from a path that names a file. -/
theorem load_of_convert {shapes : List Shape}
    (hconvert : (convert workDir p shapes).outcome fs = (.ok c, fs')) :
    (∃ loaded, Artifact.load fs p = .ok loaded) ∧ ∃ name, p.fileName? = some name := by
  obtain ⟨_, _, hget, hconvert⟩ := FileAction.bind_eq_ok.mp hconvert
  cases hget
  obtain ⟨loaded, _, hload, hconvert⟩ := FileAction.bind_eq_ok.mp hconvert
  rw [FileAction.outcome_ofResult] at hload
  obtain ⟨hloaded, rfl⟩ := Prod.mk.inj hload
  refine ⟨⟨loaded, mapError_eq_ok.mp hloaded⟩, ?_⟩
  cases hname : p.fileName? with
  | some name => exact ⟨name, rfl⟩
  | none =>
    have hpaths : convertedPaths workDir p structureSuffix weightsSuffix = .error (.noStem p) := by
      simp only [convertedPaths, Path.fileStem?, hname, Option.map_none]
    split at hconvert
    · cases hconvert
    · obtain ⟨_, _, -, hconvert⟩ := FileAction.bind_eq_ok.mp hconvert
      obtain ⟨_, _, hpath, -⟩ := FileAction.bind_eq_ok.mp hconvert
      rw [FileAction.outcome_lift, hpaths] at hpath
      cases hpath

/-- After a conversion the files hold the artifact that was in the file. -/
theorem holds_of_convert (hread : fs.readText p = .ok text)
    (hdecode : Artifact.decode text = .ok a)
    (hconvert : (convert workDir p a.inputShapes).outcome fs = (.ok c, fs')) : Holds fs' c a := by
  obtain ⟨⟨loaded, hload⟩, name, hname⟩ := load_of_convert hconvert
  obtain rfl := eq_of_load hread hdecode hload
  have hfiles : ∀ path e,
      ((convert workDir p loaded.inputShapes).outcome fs).1 ≠ .error (.file path e) := by
    intro path e hrefused
    rw [hconvert] at hrefused
    cases hrefused
  obtain ⟨c', fs'', hagain, hholds⟩ := convert_eq_ok hload hname hfiles
  rw [hconvert] at hagain
  cases hagain
  exact hholds

/-- Rounding each constant and letting the last of one name count can be done in either order. -/
theorem roundedTable_eq (constants : List FrozenConstant) :
    roundedTable constants =
      (Artifact.frozenTable constants).map (Tensor.map roundToSingle) := by
  have hfold (t : Table (Tensor Float)) :
      constants.foldl (fun t c => t.insert c.name (c.tensor.map roundToSingle))
          (t.map (Tensor.map roundToSingle)) =
        (constants.foldl (fun t c => t.insert c.name c.tensor) t).map
          (Tensor.map roundToSingle) := by
    induction constants generalizing t with
    | nil => rfl
    | cons c constants ih =>
      rw [List.foldl_cons, List.foldl_cons, Table.insert_map]
      exact ih _
  exact hfold .empty

/-- An artifact is replayed exactly when it is loaded from its converted files and no constant's name
occurs twice. What is loaded then is the replayed model, its constants rounded to single
precision. -/
theorem toModel_iff_load (hread : fs.readText p = .ok text)
    (hdecode : Artifact.decode text = .ok a)
    (hconvert : (convert workDir p a.inputShapes).outcome fs = (.ok c, fs'))
    (hstructure : (LoopbackStructure.ofArtifact a).toJson.prettyText.utf8ByteSize ≤
      maxStructureBytes)
    (hweights : (Weights.encode a.constants).size ≤ maxWeightsBytes) :
    ((∃ m, a.toModel = .ok m) ↔
        (a.constants.map (·.name)).Nodup ∧ ∃ loaded, load fs' c = .ok loaded) ∧
      ∀ m, a.toModel = .ok m → load fs' c = .ok (m.mapConstants roundToSingle) := by
  have hholds := holds_of_convert hread hdecode hconvert
  have hload := load_eq (Artifact.writable_of_decode hdecode) hholds hstructure hweights
  rw [roundedTable_eq, Model.ofParts_map] at hload
  have hreplayed : ∀ m, a.toModel = .ok m →
      load fs' c = .ok (m.mapConstants roundToSingle) := by
    intro m hmodel
    rw [hload, (Artifact.toModel_eq_ok_iff.mp hmodel).2]
    rfl
  refine ⟨⟨?_, ?_⟩, hreplayed⟩
  · rintro ⟨m, hmodel⟩
    exact ⟨(Artifact.toModel_eq_ok_iff.mp hmodel).1, _, hreplayed m hmodel⟩
  · rintro ⟨hdistinct, loaded, hloaded⟩
    rw [hload, mapError_eq_ok, mapError_eq_ok] at hloaded
    cases hparts : Model.ofParts a.modelName a.graph.inputs (Artifact.frozenTable a.constants)
        a.graph.nodes a.graph.outputs with
    | ok m => exact ⟨m, Artifact.toModel_eq_ok_iff.mpr ⟨hdistinct, hparts⟩⟩
    | error e =>
      rw [hparts] at hloaded
      cases hloaded

/-- An artifact in a file of its own is converted. -/
theorem convert_alone (hwritable : a.Writable) (hsize : a.encode.utf8ByteSize ≤ Artifact.maxBytes) :
    (lone a).readText ⟨"a.cpa"⟩ = .ok a.encode ∧ Artifact.decode a.encode = .ok a ∧
      ∃ c fs, (convert ⟨"w"⟩ ⟨"a.cpa"⟩ a.inputShapes).outcome (lone a) = (.ok c, fs) := by
  have hdecode := Artifact.decode_encode_of_writable hwritable hsize
  have hfile : (lone a).read ⟨"a.cpa"⟩ = .ok a.encode.toUTF8 ∧
      (lone a).size ⟨"a.cpa"⟩ = .ok a.encode.utf8ByteSize := ⟨rfl, rfl⟩
  obtain ⟨hread, hload⟩ := Artifact.load_of_text hfile hsize hdecode
  obtain ⟨c, fs, hconvert, -⟩ := convert_eq_ok hload rfl (convert_lone hload)
  exact ⟨hread, hdecode, c, fs, hconvert⟩

/-- Numbers that single precision does not hold are infinite in the loaded model. -/
theorem load_overflowing : ∃ c fs,
    (convert ⟨"w"⟩ ⟨"a.cpa"⟩ overflowing.inputShapes).outcome (lone overflowingArtifact) =
        (.ok c, fs) ∧
      overflowingArtifact.toModel = .ok overflowing ∧
      load fs c = .ok (overflowing.mapConstants roundToSingle) := by
  obtain ⟨hread, hdecode, c, fs, hconvert⟩ :=
    convert_alone (Artifact.writable_of_capture capture_overflowing) fits_overflowing.text
  have hmodel : overflowingArtifact.toModel = .ok overflowing := by decide +kernel
  refine ⟨c, fs, hconvert, hmodel, ?_⟩
  exact (toModel_iff_load hread hdecode hconvert fits_overflowing.structureFile
    fits_overflowing.weightsFile).2 overflowing hmodel

/-- Two constants of one name. -/
def doubled : Artifact :=
  ⟨"m", ⟨[], [], ["c"], .empty⟩,
    [⟨"c", ⟨[], #[3.0], by decide⟩⟩, ⟨"c", ⟨[], #[5.0], by decide⟩⟩]⟩

theorem writable_doubled : doubled.Writable := by
  refine ⟨⟨by simp [doubled], by simp [doubled], by simp [doubled, Table.empty]⟩, ?_⟩
  intro c hc
  obtain rfl | rfl : c = ⟨"c", ⟨[], #[3.0], by decide⟩⟩ ∨ c = ⟨"c", ⟨[], #[5.0], by decide⟩⟩ := by
    simpa [doubled] using hc
  all_goals
    intro x hx
    simp only [List.mem_singleton] at hx
    subst hx
    decide +kernel

/-- It is loaded from its converted files, and it is not replayed. -/
theorem loaded_not_replayed : ∃ fs text c fs',
    fs.readText ⟨"a.cpa"⟩ = .ok text ∧ Artifact.decode text = .ok doubled ∧
      (convert ⟨"w"⟩ ⟨"a.cpa"⟩ doubled.inputShapes).outcome fs = (.ok c, fs') ∧
      (LoopbackStructure.ofArtifact doubled).toJson.prettyText.utf8ByteSize ≤ maxStructureBytes ∧
      (Weights.encode doubled.constants).size ≤ maxWeightsBytes ∧
      (∃ m, load fs' c = .ok m) ∧ ∀ m, doubled.toModel ≠ .ok m := by
  obtain ⟨htext, hstructure, hweights⟩ := fits_of_writable writable_doubled (by decide +kernel)
    (by decide +kernel) (by decide +kernel)
  obtain ⟨hread, hdecode, c, fs, hconvert⟩ := convert_alone writable_doubled htext
  refine ⟨_, _, c, fs, hread, hdecode, hconvert, hstructure, hweights, ?_, ?_⟩
  · rw [load_eq writable_doubled (holds_of_convert hread hdecode hconvert) hstructure hweights]
    have hparts := Model.ofParts_parts
      ⟨"m", [], roundedTable doubled.constants, [], ["c"], by decide +kernel⟩
    exact ⟨_, by rw [mapError_eq_ok, mapError_eq_ok]; exact hparts⟩
  · intro m hmodel
    have hdistinct := (Artifact.toModel_eq_ok_iff.mp hmodel).1
    simp [doubled] at hdistinct

/-- What is read within a limit is not larger. -/
theorem size_le_of_readBounded {path : Path} {limit size : Nat} {content : ByteArray}
    (hsize : fs.size path = .ok size) (hread : readBounded fs path limit = .ok content) :
    size ≤ limit := by
  rw [readBounded, hsize] at hread
  by_contra hlarge
  simp only [Except.mapError, ok_bind, if_pos (Nat.not_le.mp hlarge)] at hread
  cases hread

/-- A captured model is loaded from its converted files exactly if these are within the limits, and
then with its constants rounded to single precision. -/
theorem load_iff_sizes {inputs : List (Tensor Float)} (hcapture : Artifact.capture m inputs = .ok a)
    (hholds : Holds fs c a) :
    ((∃ loaded, load fs c = .ok loaded) ↔
        (LoopbackStructure.ofArtifact a).toJson.prettyText.utf8ByteSize ≤ maxStructureBytes ∧
          (Weights.encode a.constants).size ≤ maxWeightsBytes) ∧
      ∀ loaded, load fs c = .ok loaded → loaded = m.mapConstants roundToSingle := by
  have hsizes : ∀ loaded, load fs c = .ok loaded →
      (LoopbackStructure.ofArtifact a).toJson.prettyText.utf8ByteSize ≤ maxStructureBytes ∧
        (Weights.encode a.constants).size ≤ maxWeightsBytes := by
    intro loaded hload
    obtain ⟨content, hcontent, hload⟩ := bind_eq_ok.mp hload
    obtain ⟨_, -, hload⟩ := bind_eq_ok.mp hload
    obtain ⟨blob, hblob, -⟩ := bind_eq_ok.mp hload
    exact ⟨size_le_of_readBounded hholds.structureFile.2 hcontent,
      size_le_of_readBounded hholds.weightsFile.2 hblob⟩
  refine ⟨⟨fun ⟨loaded, hload⟩ => hsizes loaded hload, fun ⟨hstructure, hweights⟩ =>
    ⟨_, load_eq_ok hcapture hholds hstructure hweights⟩⟩, fun loaded hload => ?_⟩
  obtain ⟨hstructure, hweights⟩ := hsizes loaded hload
  have hrounded := load_eq_ok hcapture hholds hstructure hweights
  exact Except.ok.inj (hload.symm.trans hrounded)

/-- Rounding the constants of a model to half precision leaves its other parts alone, and a second
rounding, to half or to single precision, changes nothing. So a model that was rounded, captured and
converted is loaded bit for bit as it was, if its files are within the limits. -/
theorem load_of_half (m : Model) :
    (m.roundConstantsToHalf.name = m.name ∧ m.roundConstantsToHalf.inputs = m.inputs ∧
      m.roundConstantsToHalf.nodes = m.nodes ∧ m.roundConstantsToHalf.outputs = m.outputs) ∧
    (∀ name, m.roundConstantsToHalf.constants.find? name =
      (m.constants.find? name).map (Tensor.map roundToHalf)) ∧
    m.roundConstantsToHalf.roundConstantsToHalf = m.roundConstantsToHalf ∧
    (∀ name t, m.roundConstantsToHalf.constants.find? name = some t → t.IsSingle) ∧
    ∀ inputs a fs text p workDir c fs',
      Artifact.capture m.roundConstantsToHalf inputs = .ok a →
      fs.readText p = .ok text → Artifact.decode text = .ok a →
      (convert workDir p a.inputShapes).outcome fs = (.ok c, fs') →
        ((∃ loaded, load fs' c = .ok loaded) ↔
          (LoopbackStructure.ofArtifact a).toJson.prettyText.utf8ByteSize ≤ maxStructureBytes ∧
            (Weights.encode a.constants).size ≤ maxWeightsBytes) ∧
        ∀ loaded, load fs' c = .ok loaded → loaded = m.roundConstantsToHalf := by
  have hconstant (name : String) : m.roundConstantsToHalf.constants.find? name =
      (m.constants.find? name).map (Tensor.map roundToHalf) := Table.find?_map _ _ _
  have hsingle : m.roundConstantsToHalf.mapConstants roundToSingle = m.roundConstantsToHalf :=
    Model.mapConstants_mapConstants roundToSingle_roundToHalf m
  refine ⟨⟨rfl, rfl, rfl, rfl⟩, hconstant,
    Model.mapConstants_mapConstants roundToHalf_roundToHalf m, fun name t ht => ?_, ?_⟩
  · rw [hconstant] at ht
    obtain ⟨t, -, rfl⟩ := Option.map_eq_some_iff.mp ht
    exact t.isSingle_map roundToSingle_roundToHalf
  · intro inputs a fs text p workDir c fs' hcapture hread hdecode hconvert
    have hload := load_iff_sizes hcapture (holds_of_convert hread hdecode hconvert)
    rwa [hsingle] at hload

/-- A constant that half precision does not hold: a normal, a subnormal and a negative number. -/
def unrounded : Model :=
  ⟨"m", [], ⟨[("c", ⟨[3], #[0.1, 1e-7, -65504.5], by decide⟩)], by decide⟩, [], ["c"], by decide⟩

/-- What the rounded model is frozen into. -/
def roundedArtifact : Artifact :=
  ⟨"m", ⟨[], [], ["c"], ⟨[("c", [3])], by decide⟩⟩,
    [⟨"c", ⟨[3], #[roundToHalf 0.1, roundToHalf 1e-7, -65504.0], by decide⟩⟩]⟩

/-- It is loaded with the numbers that it was rounded to. -/
theorem load_unrounded :
    unrounded.roundConstantsToHalf ≠ unrounded ∧
      Artifact.capture unrounded.roundConstantsToHalf [] = .ok roundedArtifact ∧
      ∃ c fs, (convert ⟨"w"⟩ ⟨"a.cpa"⟩ roundedArtifact.inputShapes).outcome (lone roundedArtifact) =
          (.ok c, fs) ∧
        load fs c = .ok unrounded.roundConstantsToHalf := by
  have hcapture : Artifact.capture unrounded.roundConstantsToHalf [] = .ok roundedArtifact := by
    decide +kernel
  have hwritable := Artifact.writable_of_capture hcapture
  obtain ⟨htext, hstructure, hweights⟩ := fits_of_writable hwritable (by decide +kernel)
    (by decide +kernel) (by decide +kernel)
  obtain ⟨hread, hdecode, c, fs, hconvert⟩ := convert_alone hwritable htext
  refine ⟨by decide +kernel, hcapture, c, fs, hconvert, ?_⟩
  obtain ⟨-, -, -, -, hconverted⟩ := load_of_half unrounded
  obtain ⟨hiff, hsame⟩ := hconverted _ _ _ _ _ _ _ _ hcapture hread hdecode hconvert
  obtain ⟨loaded, hload⟩ := hiff.mpr ⟨hstructure, hweights⟩
  rw [hload, hsame loaded hload]

end Loopback

end TensorParity
