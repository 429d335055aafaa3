import TensorParity.Backend.Loopback
import TensorParity.Proofs.Digest.Bytes
import TensorParity.Proofs.File.System
import TensorParity.Proofs.Kernel.Loop
import TensorParity.Proofs.Model.Run
import TensorParity.Proofs.Shape

/-!
Loading whatever the two files hold. A second reader looks up every byte and every element where it
must be and adds in words; it has no result where one of them is missing or a sum is too large. The
two readers agree, so loading never leaves the weights, and what it yields is what the structure and
the weights say.
-/
namespace TensorParity

/-- A step that always has a result, be it a refusal. -/
def checked {ε α : Type} (x : Except ε α) : ExceptT ε Option α := ExceptT.mk (some x)

theorem checked_bind {ε α β : Type} (x : Except ε α) (f : α → Except ε β) :
    (checked x >>= fun a => checked (f a)) = checked (x >>= f) := by
  cases x <;> rfl

theorem checked_foldlM {ε α σ : Type} {step : σ → α → Except ε σ}
    {step' : σ → α → ExceptT ε Option σ} (h : ∀ s a, step' s a = checked (step s a))
    (items : List α) (s : σ) : items.foldlM step' s = checked (items.foldlM step s) := by
  induction items generalizing s with
  | nil => rfl
  | cons a items ih =>
    rw [List.foldlM_cons, List.foldlM_cons, h, ← checked_bind]
    simp only [ih]

theorem adapt_checked {ε ε' α : Type} (f : ε → ε') (x : Except ε α) :
    ExceptT.adapt f (checked x) = checked (x.mapError f) := by
  cases x <;> rfl

namespace Weights

/-- The element that four bytes of a blob spell, the least significant first. There is none unless
all four lie in the blob. -/
def element? (blob : ByteArray) (i : Nat) : Option Float := do
  let a ← blob[4 * i]?
  let b ← blob[4 * i + 1]?
  let c ← blob[4 * i + 2]?
  let d ← blob[4 * i + 3]?
  return ofSingle (.ofWord 31 (ofLittleEndian [a, b, c, d]))

theorem element?_eq_some {blob : ByteArray} {i : Nat} (hi : 4 * i + 4 ≤ blob.size) :
    element? blob i = some (decodeElement blob i) := by
  have hbyte (k : Nat) (hk : k < 4) : ∃ b, blob[4 * i + k]? = some b :=
    ⟨_, getElem?_pos blob (4 * i + k) (by omega)⟩
  obtain ⟨a, ha⟩ := hbyte 0 (by decide)
  obtain ⟨b, hb⟩ := hbyte 1 (by decide)
  obtain ⟨c, hc⟩ := hbyte 2 (by decide)
  obtain ⟨d, hd⟩ := hbyte 3 (by decide)
  rw [Nat.add_zero] at ha
  simp [element?, decodeElement, ha, hb, hc, hd, ofLittleEndian]

theorem element?_eq_none {blob : ByteArray} {i : Nat} (hi : blob.size ≤ 4 * i + 3) :
    element? blob i = none := by
  have hlast : blob[4 * i + 3]? = none := getElem?_neg blob _ (by omega)
  simp [element?, hlast]

/-- The elements of a blob, each byte looked up where it must be. -/
def elements? (blob : ByteArray) : ExceptT StructureFault Option (Array Float) :=
  if blob.size % 4 ≠ 0 then checked (.error (.blobLength blob.size))
  else ExceptT.mk ((tabulate? (element? blob) (blob.size / 4)).map .ok)

theorem elements?_eq (blob : ByteArray) : elements? blob = checked (decode blob) := by
  have htable : (Array.range (blob.size / 4)).map (decodeElement blob) =
      Array.ofFn fun i : Fin (blob.size / 4) => decodeElement blob i := by
    apply Array.ext
    · simp
    · intro i hi hi'
      simp
  unfold elements? decode
  split
  · rfl
  · rw [tabulate?_eq_some fun i hi => element?_eq_some (by omega), htable]
    rfl

/-- The elements of a blob are those that its bytes spell, four at a time. -/
theorem decode_eq_ok_iff {blob : ByteArray} {elements : Array Float} :
    decode blob = .ok elements ↔ blob.size % 4 = 0 ∧ elements.size = blob.size / 4 ∧
      ∀ i, elements[i]? = element? blob i := by
  have hspelled (i : Nat) (hwhole : blob.size % 4 = 0) :
      (Array.ofFn fun i : Fin (blob.size / 4) => decodeElement blob i)[i]? = element? blob i := by
    by_cases hi : i < blob.size / 4
    · rw [element?_eq_some (by omega)]
      simp [hi]
    · rw [element?_eq_none (by omega)]
      simp [hi]
  unfold decode
  split
  · rename_i hwhole
    simp [hwhole]
  · rename_i hwhole
    have hwhole : blob.size % 4 = 0 := by omega
    constructor
    · intro h
      obtain rfl := Except.ok.inj h
      exact ⟨hwhole, by simp, fun i => hspelled i hwhole⟩
    · rintro ⟨-, -, h⟩
      apply congrArg Except.ok
      apply Array.ext_getElem?
      intro i
      rw [h, hspelled i hwhole]

theorem exists_decode {blob : ByteArray} (hwhole : blob.size % 4 = 0) :
    ∃ elements, decode blob = .ok elements :=
  ⟨_, if_neg (not_not.mpr hwhole)⟩

end Weights

namespace WeightSlot

/-- The elements from one position up to another, each looked up where it must be. -/
def stretch? (elements : Array Float) (start stop : Nat) : Option (Array Float) :=
  tabulate? (fun i => elements[start + i]?) (stop - start)

theorem stretch?_eq_some {elements : Array Float} {start stop : Nat}
    (hstop : stop ≤ elements.size) :
    stretch? elements start stop = some (elements.extract start stop) := by
  have hfound (i : Nat) (hi : i < stop - start) :
      elements[start + i]? = some (elements[start + i]?.getD 0) := by
    rw [getElem?_pos elements (start + i) (by omega)]
    rfl
  rw [stretch?, tabulate?_eq_some hfound]
  apply congrArg some
  apply Array.ext_getElem?
  intro i
  rw [Array.getElem?_extract]
  by_cases hi : i < stop - start
  · rw [if_pos (by omega), hfound i hi]
    simp [hi]
  · rw [if_neg (by omega)]
    simp [hi]

/-- The sum of two words, if it is a word. -/
def sumWord? (m n : Nat) : Option Nat :=
  if m + n < Shape.wordLimit then some (m + n) else none

/-- The constant that a slot describes, worked out in words and with each element looked up where it
must be. -/
def tensor? (w : WeightSlot) (elements : Array Float) :
    ExceptT StructureFault Option (Tensor Float) :=
  match w.shape.numel? with
  | none => checked (.error (.shape (.countOverflow w.shape)))
  | some count =>
    match sumWord? w.offset count with
    | none => checked (.error (.outside w.name w.offset count elements.size))
    | some stop =>
      if elements.size < stop then
        checked (.error (.outside w.name w.offset count elements.size))
      else do
        let data ← ExceptT.lift (stretch? elements w.offset stop)
        checked ((Tensor.ofArray w.shape data).mapError .shape)

theorem tensor?_eq (w : WeightSlot) (elements : Array Float) :
    w.tensor? elements = checked (w.tensor elements) := by
  unfold tensor? tensor Shape.numel
  split
  · rename_i hnone
    rw [hnone]
    rfl
  · rename_i count hsome
    simp only [hsome, Except.mapError, ok_bind]
    by_cases hword : w.offset + count < Shape.wordLimit
    · have hsum : sumWord? w.offset count = some (w.offset + count) := if_pos hword
      simp only [hsum]
      by_cases hinside : elements.size < w.offset + count
      · rw [if_pos hinside, if_pos (.inl hinside)]
        rfl
      · rw [if_neg hinside, if_neg (by omega), stretch?_eq_some (Nat.le_of_not_lt hinside)]
        rfl
    · have hsum : sumWord? w.offset count = none := if_neg hword
      simp only [hsum]
      rw [if_pos (.inr (Nat.le_of_not_lt hword))]
      rfl

/-- A slot whose count is a word takes its stretch of elements that reach to its end. -/
theorem tensor_of_inside {w : WeightSlot} {elements : Array Float} {count : Nat}
    (hcount : w.shape.numel? = some count) (hinside : w.offset + count ≤ elements.size)
    (hwords : elements.size < Shape.wordLimit) :
    w.tensor elements =
      (Tensor.ofArray w.shape (elements.extract w.offset (w.offset + count))).mapError .shape := by
  unfold tensor
  simp only [Shape.numel, hcount, Except.mapError, ok_bind]
  rw [if_neg (by omega)]

/-- A tensor is the stretch of a blob that a slot describes. -/
structure Reads (w : WeightSlot) (blob : ByteArray) (t : Tensor Float) : Prop where
  shape : t.shape = w.shape
  size : t.data.size = Shape.volume w.shape
  element : ∀ i < Shape.volume w.shape, t.data[i]? = Weights.element? blob (w.offset + i)

section Decoded

variable {w : WeightSlot} {blob : ByteArray} {elements : Array Float} {t : Tensor Float}

/-- What a slot finds is what the blob says of it. -/
theorem reads_of_tensor (hdecode : Weights.decode blob = .ok elements)
    (h : w.tensor elements = .ok t) : w.shape.numel? = some (Shape.volume w.shape) ∧
      w.offset + Shape.volume w.shape ≤ blob.size / 4 ∧ w.Reads blob t := by
  obtain ⟨-, hsize, hspelled⟩ := Weights.decode_eq_ok_iff.mp hdecode
  obtain ⟨count, hcount, h⟩ := bind_eq_ok.mp h
  have hnumel : w.shape.numel? = some count := by
    rw [mapError_eq_ok, Shape.numel] at hcount
    cases hnumel : w.shape.numel? with
    | none =>
      rw [hnumel] at hcount
      cases hcount
    | some count' =>
      rw [hnumel] at hcount
      exact congrArg some (Except.ok.inj hcount)
  obtain ⟨hvolume, -⟩ := Shape.volume_of_numel? hnumel
  subst hvolume
  split at h
  · cases h
  · rename_i hinside
    obtain ⟨hshape, hdata⟩ := Tensor.ofArray_eq_ok (mapError_eq_ok.mp h)
    refine ⟨hnumel, by omega, hshape, ?_, ?_⟩
    · rw [hdata, Array.size_extract]
      omega
    · intro i hi
      rw [hdata, ← hspelled, Array.getElem?_extract, if_pos (by omega)]

variable (hcount : w.shape.numel? = some (Shape.volume w.shape))
  (hinside : w.offset + Shape.volume w.shape ≤ blob.size / 4)
  (hwords : elements.size < Shape.wordLimit)

include hcount hinside hwords

theorem tensor_of_reads (hdecode : Weights.decode blob = .ok elements) (hreads : w.Reads blob t) :
    w.tensor elements = .ok t := by
  obtain ⟨-, hsize, hspelled⟩ := Weights.decode_eq_ok_iff.mp hdecode
  have hdata : elements.extract w.offset (w.offset + Shape.volume w.shape) = t.data := by
    apply Array.ext_getElem?
    intro i
    rw [Array.getElem?_extract]
    by_cases hi : i < Shape.volume w.shape
    · rw [if_pos (by omega), hreads.element i hi, hspelled]
    · rw [if_neg (by omega), getElem?_neg t.data i (by rw [hreads.size]; omega)]
  rw [tensor_of_inside hcount (by omega) hwords, hdata, ← hreads.shape, Tensor.ofArray_data]
  rfl

theorem exists_tensor (hdecode : Weights.decode blob = .ok elements) :
    ∃ t, w.tensor elements = .ok t := by
  obtain ⟨-, hsize, -⟩ := Weights.decode_eq_ok_iff.mp hdecode
  have hextract : (elements.extract w.offset (w.offset + Shape.volume w.shape)).size =
      Shape.volume w.shape := by
    rw [Array.size_extract]
    omega
  obtain ⟨t, ht⟩ := Tensor.exists_ofArray (hextract.symm ▸ hcount)
  refine ⟨t, ?_⟩
  rw [tensor_of_inside hcount (by omega) hwords, ht]
  rfl

end Decoded

end WeightSlot

namespace LoopbackStructure

/-- No slot after this one has its name. -/
def Last (s : LoopbackStructure) (w : WeightSlot) : Prop :=
  ∃ before after, s.weights = before ++ w :: after ∧ ∀ v ∈ after, v.name ≠ w.name

theorem last_iff {s : LoopbackStructure} {w : WeightSlot} :
    s.Last w ↔ s.weights.reverse.find? (·.name = w.name) = some w := by
  rw [List.find?_eq_some_iff_append]
  constructor
  · rintro ⟨before, after, hweights, hlater⟩
    refine ⟨by simp, after.reverse, before.reverse, by simp [hweights], ?_⟩
    intro v hv
    simpa using hlater v (List.mem_reverse.mp hv)
  · rintro ⟨-, later, earlier, hweights, hlater⟩
    refine ⟨earlier.reverse, later.reverse, ?_, ?_⟩
    · rw [← List.reverse_reverse s.weights, hweights]
      simp
    · intro v hv
      simpa using hlater v (List.mem_reverse.mp hv)

/-- The names of the slots are those that some last slot has. -/
theorem mem_names_iff {s : LoopbackStructure} {name : String} :
    name ∈ s.weights.map (·.name) ↔
      ∃ w, s.weights.reverse.find? (·.name = name) = some w := by
  rw [← Option.isSome_iff_exists, List.find?_isSome, List.mem_map]
  constructor
  · rintro ⟨w, hw, hname⟩
    exact ⟨w, List.mem_reverse.mpr hw, by simpa using hname⟩
  · rintro ⟨w, hw, hname⟩
    exact ⟨w, List.mem_reverse.mp hw, by simpa using hname⟩

/-- What a structure and its weights say of a model. Every slot lies in the weights, also one that a
later slot of the same name replaces. -/
structure Describes (s : LoopbackStructure) (blob : ByteArray) (m : Model) : Prop where
  name : m.name = s.modelName
  inputs : m.inputs = s.inputs
  nodes : m.nodes = s.nodes
  outputs : m.outputs = s.outputs
  whole : blob.size % 4 = 0
  counted : ∀ w ∈ s.weights, w.shape.numel? = some (Shape.volume w.shape)
  inside : ∀ w ∈ s.weights, w.offset + Shape.volume w.shape ≤ blob.size / 4
  names : ∀ name, name ∈ m.constants.keys ↔ name ∈ s.weights.map (·.name)
  constant : ∀ w, s.Last w → ∃ t, m.constants.find? w.name = some t ∧ w.Reads blob t

end LoopbackStructure

namespace Loopback

/-- The model of a structure, each slot worked out with every step checked. -/
def assemble? (s : LoopbackStructure) (elements : Array Float) :
    ExceptT StructureFault Option Model := do
  let constants ← s.weights.foldlM (fun (t : Table (Tensor Float)) w => do
    return t.insert w.name (← w.tensor? elements)) .empty
  checked ((Model.ofParts s.modelName s.inputs constants s.nodes s.outputs).mapError .graph)

theorem assemble?_eq (s : LoopbackStructure) (elements : Array Float) :
    assemble? s elements = checked (assemble s elements) := by
  have hstep (t : Table (Tensor Float)) (w : WeightSlot) :
      (do return t.insert w.name (← w.tensor? elements)) =
        checked (do return t.insert w.name (← w.tensor elements)) := by
    rw [WeightSlot.tensor?_eq]
    cases w.tensor elements <;> rfl
  rw [assemble?, checked_foldlM hstep, assemble, ← checked_bind]

/-- Reads a converted model back with every access to the weights looked up where it must be and
every sum a word. -/
def load? (fs : FileSystem) (c : Converted) : ExceptT InferenceError Option Model := do
  let content ← checked (readBounded fs c.structurePath maxStructureBytes)
  let s ← checked ((decodeStructure content).mapError .structureFile)
  let blob ← checked (readBounded fs c.weightsPath maxWeightsBytes)
  let elements ← ExceptT.adapt .structureFile (Weights.elements? blob)
  ExceptT.adapt .structureFile (assemble? s elements)

theorem load?_eq (fs : FileSystem) (c : Converted) : load? fs c = checked (load fs c) := by
  simp only [load?, load, Weights.elements?_eq, assemble?_eq, adapt_checked, checked_bind]

theorem size_of_readBounded {fs : FileSystem} {p : Path} {limit : Nat} {content : ByteArray}
    (h : readBounded fs p limit = .ok content) : content.size ≤ limit := by
  obtain ⟨size, hsize, h⟩ := bind_eq_ok.mp h
  split at h
  · cases h
  · have hread := FileSystem.size_of_read (mapError_eq_ok.mp h)
    rw [mapError_eq_ok, hread] at hsize
    obtain rfl := Except.ok.inj hsize
    omega

section Assembled

variable {s : LoopbackStructure} {blob : ByteArray} {elements : Array Float} {m : Model}

theorem describes_of_assemble (hdecode : Weights.decode blob = .ok elements)
    (h : assemble s elements = .ok m) : s.Describes blob m := by
  obtain ⟨hwhole, -⟩ := Weights.decode_eq_ok_iff.mp hdecode
  obtain ⟨constants, hconstants, h⟩ := bind_eq_ok.mp h
  obtain ⟨hname, hinputs, rfl, hnodes, houtputs⟩ := Model.ofParts_eq_ok (mapError_eq_ok.mp h)
  obtain ⟨hslots, hfound⟩ := Table.foldlM_insert_eq_ok_iff.mp hconstants
  have hlast {name : String} {w : WeightSlot}
      (hw : s.weights.reverse.find? (·.name = name) = some w) :
      ∃ t, m.constants.find? name = some t ∧ w.Reads blob t := by
    obtain ⟨t, ht⟩ := hslots w (List.mem_reverse.mp (List.mem_of_find?_eq_some hw))
    refine ⟨t, ?_, (WeightSlot.reads_of_tensor hdecode ht).2.2⟩
    rw [hfound, hw, Option.elim_some, ht]
    rfl
  refine ⟨hname, hinputs, hnodes, houtputs, hwhole, ?_, ?_, ?_, ?_⟩
  · intro w hw
    obtain ⟨t, ht⟩ := hslots w hw
    exact (WeightSlot.reads_of_tensor hdecode ht).1
  · intro w hw
    obtain ⟨t, ht⟩ := hslots w hw
    exact (WeightSlot.reads_of_tensor hdecode ht).2.1
  · intro name
    rw [Table.mem_keys_iff, LoopbackStructure.mem_names_iff]
    constructor
    · rintro ⟨t, ht⟩
      rw [hfound] at ht
      cases hw : s.weights.reverse.find? (·.name = name) with
      | none =>
        rw [hw] at ht
        cases ht
      | some w => exact ⟨w, rfl⟩
    · rintro ⟨w, hw⟩
      obtain ⟨t, ht, -⟩ := hlast hw
      exact ⟨t, ht⟩
  · intro w hw
    exact hlast (LoopbackStructure.last_iff.mp hw)

theorem assemble_of_describes (hdecode : Weights.decode blob = .ok elements)
    (hwords : elements.size < Shape.wordLimit) (h : s.Describes blob m) :
    assemble s elements = .ok m := by
  have hslot (w : WeightSlot) (hw : w ∈ s.weights) : ∃ t, w.tensor elements = .ok t :=
    WeightSlot.exists_tensor (h.counted w hw) (h.inside w hw) hwords hdecode
  have hconstants : s.weights.foldlM (fun (t : Table (Tensor Float)) w => do
      return t.insert w.name (← w.tensor elements)) .empty = .ok m.constants := by
    rw [Table.foldlM_insert_eq_ok_iff]
    refine ⟨hslot, fun name => ?_⟩
    cases hlast : s.weights.reverse.find? (·.name = name) with
    | none =>
      rw [Option.elim_none, Table.find?_empty, Option.eq_none_iff_forall_ne_some]
      intro t ht
      have hkey : name ∈ m.constants.keys := Table.mem_keys_iff.mpr ⟨t, ht⟩
      obtain ⟨w, hw⟩ := LoopbackStructure.mem_names_iff.mp ((h.names name).mp hkey)
      rw [hlast] at hw
      cases hw
    | some w =>
      obtain rfl : w.name = name := by simpa using List.find?_some hlast
      obtain ⟨t, ht, hreads⟩ := h.constant w (LoopbackStructure.last_iff.mpr hlast)
      have hw : w ∈ s.weights := List.mem_reverse.mp (List.mem_of_find?_eq_some hlast)
      rw [ht, Option.elim_some,
        WeightSlot.tensor_of_reads (h.counted w hw) (h.inside w hw) hwords hdecode hreads]
      rfl
  rw [assemble, hconstants, ok_bind, mapError_eq_ok, ← h.name, ← h.inputs, ← h.nodes, ← h.outputs]
  exact Model.ofParts_parts m

end Assembled

/-- Whatever the two files hold, loading has a result, looks at nothing outside the weights and has
no sum that is not a word. It yields exactly the models that the files describe. -/
theorem load_iff_describes (fs : FileSystem) (c : Converted) :
    load? fs c = checked (load fs c) ∧ ∀ m, load fs c = .ok m ↔
      ∃ content s blob, readBounded fs c.structurePath maxStructureBytes = .ok content ∧
        decodeStructure content = .ok s ∧
        readBounded fs c.weightsPath maxWeightsBytes = .ok blob ∧ s.Describes blob m := by
  refine ⟨load?_eq fs c, fun m => ?_⟩
  constructor
  · intro h
    obtain ⟨content, hcontent, h⟩ := bind_eq_ok.mp h
    obtain ⟨s, hs, h⟩ := bind_eq_ok.mp h
    obtain ⟨blob, hblob, h⟩ := bind_eq_ok.mp h
    obtain ⟨elements, helements, h⟩ := bind_eq_ok.mp h
    exact ⟨content, s, blob, hcontent, mapError_eq_ok.mp hs, hblob,
      describes_of_assemble (mapError_eq_ok.mp helements) (mapError_eq_ok.mp h)⟩
  · rintro ⟨content, s, blob, hcontent, hs, hblob, hdescribes⟩
    obtain ⟨elements, hdecode⟩ := Weights.exists_decode hdescribes.whole
    have hwords : elements.size < Shape.wordLimit := by
      have hbounded : blob.size ≤ maxWeightsBytes := size_of_readBounded hblob
      have hlimit : maxWeightsBytes < Shape.wordLimit := by decide
      obtain ⟨-, hsize, -⟩ := Weights.decode_eq_ok_iff.mp hdecode
      omega
    have hassemble := assemble_of_describes hdecode hwords hdescribes
    simp only [load, hcontent, hs, hblob, hdecode, hassemble, ok_bind, Except.mapError]

end Loopback
end TensorParity
