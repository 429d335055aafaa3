import TensorParity.Artifact.Capture
import TensorParity.Artifact.Text
import TensorParity.Proofs.Digest.Bytes
import TensorParity.Proofs.Json.Readable
import TensorParity.Proofs.Json.Size
import TensorParity.Proofs.Model.Run
import TensorParity.Proofs.Record.RoundTrip
import TensorParity.Proofs.Table

/-!
The text of an artifact is read back as the artifact. An artifact qualifies if its shapes hold words
and its numbers are finite, which is what the text can say. Every artifact qualifies: what was read
has such shapes and numbers, and so has what was captured, because constants are checked when they
are frozen, and the stability term of a node is checked by the kernel that the trace ran.
-/
namespace TensorParity

open Json

theorem FrozenConstant.ofJson_toJson {c : FrozenConstant} (h : c.tensor.Finite) :
    ofJson c.toJson = .ok c := by
  have htensor := Tensor.ofJson_toJson h
  simp [ofJson, toJson, Json.record, walkRecord, walkFields, Slots.field, fill, required, asString,
    htensor]
  rfl

namespace TracedGraph

/-- Whether the text can say the graph. -/
structure Writable (g : TracedGraph) : Prop where
  inputs : ∀ d ∈ g.inputs, d.shape.InWords
  nodes : ∀ n ∈ g.nodes, n.op.Finite
  valueShapes : ∀ entry ∈ g.valueShapes.entries, entry.2.InWords

theorem shapesOfJson_entries {t : Table Shape} (h : ∀ entry ∈ t.entries, entry.2.InWords) :
    shapesOfJson (.record (t.entries.map fun (name, s) => (name, .ofShape s))) = .ok t := by
  have hfold : t.entries.foldl (fun t entry => t.insert entry.1 entry.2) .empty = t :=
    Table.ofList_entries t
  have hwalk : t.entries.foldlM (fun (t : Table Shape) entry => do
      return t.insert entry.1 (← asShape (.ofShape entry.2))) .empty = (.ok t : Decoded _) := by
    refine (foldlM_ok (fun entry hentry s => ?_) Table.empty).trans (congrArg Except.ok hfold)
    rw [asShape_ofShape (h entry hentry)]
    rfl
  rw [Json.record, shapesOfJson, walkFields, List.foldlM_map, hwalk]
  rfl

theorem ofJson_toJson {g : TracedGraph} (h : g.Writable) : ofJson g.toJson = .ok g := by
  have hinputs : asList InputDecl.ofJson (.array (g.inputs.map InputDecl.toJson)) = .ok g.inputs :=
    asList_map fun d hd => InputDecl.ofJson_toJson (h.inputs d hd)
  have hnodes : asList Node.ofJson (.array (g.nodes.map Node.toJson)) = .ok g.nodes :=
    asList_map fun n hn => Node.ofJson_toJson (h.nodes n hn)
  have houtputs : asList asString (.array (g.outputs.map .string)) = .ok g.outputs :=
    asList_map fun _ _ => rfl
  have hshapes := shapesOfJson_entries h.valueShapes
  simp only [Json.record] at hshapes
  simp [ofJson, toJson, Json.record, walkRecord, walkFields, Slots.field, fill, required, hinputs,
    hnodes, houtputs, hshapes]
  rfl

end TracedGraph

/-- Whether the text can say the artifact. -/
structure Artifact.Writable (a : Artifact) : Prop where
  graph : a.graph.Writable
  constants : ∀ c ∈ a.constants, c.tensor.Finite

theorem StatedArtifact.ofJson_toJson {s : StatedArtifact} (hversion : s.version < Nat.pow 2 32)
    (h : s.content.Writable) : ofJson s.toJson = .ok s := by
  have hversion' : asHalfWord (.ofNat s.version) = .ok s.version := asBounded_ofNat hversion
  have hgraph := TracedGraph.ofJson_toJson h.graph
  have hconstants : asList FrozenConstant.ofJson
      (.array (s.content.constants.map FrozenConstant.toJson)) = .ok s.content.constants :=
    asList_map fun c hc => FrozenConstant.ofJson_toJson (h.constants c hc)
  simp [ofJson, toJson, Json.record, walkRecord, walkFields, Slots.field, fill, required, asString,
    hversion', hgraph, hconstants]
  rfl

theorem TracedGraph.printable_toJson {g : TracedGraph} (h : g.Writable) (depth : Nat) :
    Printable (depth + 5) g.toJson := by
  refine .object ?_
  simp only [List.forall_mem_cons, List.not_mem_nil, false_implies, implies_true, and_true]
  refine ⟨printable_map fun d hd => printable_mono (d.printable_toJson (h.inputs d hd) depth)
    (by omega), printable_map fun n _ => n.printable_toJson depth,
    printable_map fun _ _ => .string _, .object fun field hfield => ?_⟩
  obtain ⟨entry, hentry, rfl⟩ := List.mem_map.mp hfield
  exact printable_ofShape (h.valueShapes entry hentry)

theorem StatedArtifact.printable_toJson {s : StatedArtifact} (hversion : s.version < Nat.pow 2 32)
    (h : s.content.Writable) : Printable maxDepth s.toJson := by
  have hword : s.version < Shape.wordLimit := Nat.lt_trans hversion (by decide)
  have hconstant (c : FrozenConstant) : Printable 4 c.toJson := by
    refine .object ?_
    simp only [List.forall_mem_cons, List.not_mem_nil, false_implies, implies_true, and_true]
    exact ⟨.string _, c.tensor.printable_toJson 1⟩
  refine printable_mono (show Printable 6 s.toJson from .object ?_) (by decide)
  simp only [List.forall_mem_cons, List.not_mem_nil, false_implies, implies_true, and_true]
  exact ⟨printable_ofNat hword, .string _, TracedGraph.printable_toJson h.graph 0,
    printable_map fun c _ => hconstant c, .string _, .string _⟩

/-- A printed tree is decoded as what the typed reader makes of it. -/
theorem Artifact.decode_text {j : Json} {s : StatedArtifact} {a : Artifact}
    (hprintable : Printable maxDepth j) (hsize : j.text.utf8ByteSize ≤ maxBytes)
    (hread : StatedArtifact.ofJson j = .ok s) (hverify : s.verify = .ok a) :
    decode j.text = .ok a := by
  have hdecode : Json.decode StatedArtifact.ofJson (Document.ofString j.text) = .ok s := by
    rw [Document.ofString_text hprintable, Json.decode, hread]
    rfl
  rw [decode, checkSize, if_neg (by omega), ok_bind, hdecode]
  exact hverify

theorem Artifact.schemaVersion_lt : schemaVersion < Nat.pow 2 32 := by decide

/-- The text of an artifact is read back, unless it is over the size limit. -/
theorem Artifact.decode_encode_of_writable {a : Artifact} (h : a.Writable)
    (hsize : a.encode.utf8ByteSize ≤ maxBytes) : decode a.encode = .ok a := by
  exact decode_text (StatedArtifact.printable_toJson schemaVersion_lt h) hsize
    (StatedArtifact.ofJson_toJson schemaVersion_lt h) (by simp [StatedArtifact.verify, stated])

/-- Room for an artifact's text. -/
def Artifact.room (a : Artifact) : Nat :=
  (⟨schemaVersion, a, "", ""⟩ : StatedArtifact).toJson.room 0 + 2 * (6 * 71)

/-- The text of an artifact is bounded without a look at its checksums. -/
theorem Artifact.utf8ByteSize_encode_le {a : Artifact} (h : a.Writable) :
    a.encode.utf8ByteSize ≤ 4 * a.room := by
  have hroom : a.stated.toJson.room 0 = a.room := by
    simp only [room, StatedArtifact.toJson, Json.record, Json.room, Json.roomFields, stated,
      graphChecksum, sourceChecksum, TracedGraph.checksum, Sha256.length_label, String.length_empty]
    omega
  rw [encode, ← hroom]
  exact Json.utf8ByteSize_text_le (StatedArtifact.printable_toJson schemaVersion_lt h)

/-! ## Every artifact qualifies -/

theorem Tensor.finite_of_ofJson {j : Json} {t : Tensor Float} (hj : Readable j)
    (h : ofJson j = .ok t) : t.Finite := by
  obtain ⟨s, hwalk, h⟩ := bind_eq_ok.mp h
  obtain ⟨shape, hshape, h⟩ := bind_eq_ok.mp h
  obtain ⟨data, hdata, h⟩ := bind_eq_ok.mp h
  have hslots : ∀ data, s.data = some data → ∀ x ∈ data, x.isFinite = true := by
    refine walkRecord_invariant (fun s => ∀ data, s.data = some data → ∀ x ∈ data,
      x.isFinite = true) hj (by simp) (fun s name value s' hvalue hs hfield => ?_) hwalk
    unfold Slots.field at hfield
    split at hfield
    · obtain ⟨_, -, rfl⟩ := fill_step hfield
      exact hs
    · obtain ⟨data, hread, rfl⟩ := fill_step hfield
      rintro _ ⟨⟩ x hx
      obtain ⟨item, hitem, hx⟩ := asList_mem hvalue hread x hx
      exact asFloat_finite hitem hx
    · exact absurd hfield throw_ne_ok
  rw [Finite, (ofArray_eq_ok (mapError_eq_ok.mp h)).2]
  exact hslots data (required_eq_ok.mp hdata)

theorem FrozenConstant.finite_of_ofJson {j : Json} {c : FrozenConstant} (hj : Readable j)
    (h : ofJson j = .ok c) : c.tensor.Finite := by
  obtain ⟨s, hwalk, h⟩ := bind_eq_ok.mp h
  obtain ⟨name, hname, h⟩ := bind_eq_ok.mp h
  obtain ⟨t, ht, h⟩ := bind_eq_ok.mp h
  obtain rfl := Except.ok.inj h
  refine walkRecord_invariant (fun s => ∀ t, s.tensor = some t → t.Finite) hj (by simp)
    (fun s name value s' hvalue hs hfield => ?_) hwalk t (required_eq_ok.mp ht)
  unfold Slots.field at hfield
  split at hfield
  · obtain ⟨_, -, rfl⟩ := fill_step hfield
    exact hs
  · obtain ⟨t, hread, rfl⟩ := fill_step hfield
    rintro _ ⟨⟩
    exact Tensor.finite_of_ofJson hvalue hread
  · exact absurd hfield throw_ne_ok

theorem inWords_of_asShape {j : Json} {s : Shape} (hj : Readable j) (h : asShape j = .ok s) :
    s.InWords := by
  intro d hd
  obtain ⟨item, -, hread⟩ := asList_mem hj h d hd
  exact asBelow_val hread

theorem InputDecl.inWords_of_ofJson {j : Json} {d : InputDecl} (hj : Readable j)
    (h : ofJson j = .ok d) : d.shape.InWords := by
  obtain ⟨s, hwalk, h⟩ := bind_eq_ok.mp h
  obtain ⟨name, hname, h⟩ := bind_eq_ok.mp h
  obtain ⟨shape, hshape, h⟩ := bind_eq_ok.mp h
  obtain rfl := Except.ok.inj h
  refine walkRecord_invariant (fun s => ∀ shape, s.shape = some shape → shape.InWords) hj (by simp)
    (fun s name value s' hvalue hs hfield => ?_) hwalk shape (required_eq_ok.mp hshape)
  unfold Slots.field at hfield
  split at hfield
  · obtain ⟨_, -, rfl⟩ := fill_step hfield
    exact hs
  · obtain ⟨shape, hread, rfl⟩ := fill_step hfield
    rintro _ ⟨⟩
    exact inWords_of_asShape hvalue hread
  · exact absurd hfield throw_ne_ok

theorem Op.Slots.finite_field {kind : OperatorKind} {s s' : Slots} {name : String} {value : Json}
    (hvalue : Readable value) (hs : ∀ eps, s.eps = some eps → eps.isFinite = true)
    (h : s.field kind name value = .ok s') : ∀ eps, s'.eps = some eps → eps.isFinite = true := by
  unfold Slots.field at h
  split at h
  · split at h
    case h_8 =>
      obtain ⟨eps, hread, rfl⟩ := fill_step h
      rintro _ ⟨⟩
      exact asFloat_finite hvalue hread
    case h_10 =>
      obtain rfl := Except.ok.inj h
      exact hs
    all_goals
      obtain ⟨_, -, rfl⟩ := fill_step h
      exact hs
  · obtain rfl := Except.ok.inj h
    exact hs

theorem Op.finite_of_ofFields {fields : List (String × Json)} {op : Op}
    (hfields : ∀ entry ∈ fields, Readable entry.2) (h : ofFields fields = .ok op) : op.Finite := by
  obtain ⟨kind, hkind, h⟩ := bind_eq_ok.mp h
  obtain ⟨s, hfold, h⟩ := bind_eq_ok.mp h
  have hslots : ∀ eps, s.eps = some eps → eps.isFinite = true := by
    refine foldlM_invariant (fun s => ∀ eps, s.eps = some eps → eps.isFinite = true)
      (fun entry hentry s s' hs hfield => ?_) (by simp) hfold
    exact Slots.finite_field (hfields entry hentry) hs hfield
  cases kind with
  | batchNorm =>
    obtain ⟨_, -, h⟩ := bind_eq_ok.mp h
    obtain ⟨_, -, h⟩ := bind_eq_ok.mp h
    obtain ⟨_, -, h⟩ := bind_eq_ok.mp h
    obtain ⟨eps, heps, h⟩ := bind_eq_ok.mp h
    obtain rfl := Except.ok.inj h
    exact hslots eps (required_eq_ok.mp heps)
  | conv2d =>
    obtain ⟨_, -, h⟩ := bind_eq_ok.mp h
    obtain ⟨_, -, h⟩ := bind_eq_ok.mp h
    obtain ⟨_, -, h⟩ := bind_eq_ok.mp h
    obtain rfl := Except.ok.inj h
    trivial
  | deformConv2d =>
    obtain ⟨_, -, h⟩ := bind_eq_ok.mp h
    obtain ⟨_, -, h⟩ := bind_eq_ok.mp h
    obtain ⟨_, -, h⟩ := bind_eq_ok.mp h
    obtain ⟨_, -, h⟩ := bind_eq_ok.mp h
    obtain rfl := Except.ok.inj h
    trivial
  | sigmoid =>
    obtain ⟨_, -, h⟩ := bind_eq_ok.mp h
    obtain rfl := Except.ok.inj h
    trivial

theorem Node.finite_of_ofJson {j : Json} {n : Node} (hj : Readable j) (h : ofJson j = .ok n) :
    n.op.Finite := by
  cases hj with
  | object hfields =>
    obtain ⟨s, hwalk, h⟩ := bind_eq_ok.mp h
    obtain ⟨output, houtput, h⟩ := bind_eq_ok.mp h
    obtain ⟨op, hop, h⟩ := bind_eq_ok.mp h
    obtain rfl := Except.ok.inj h
    have hothers : ∀ entry ∈ s.others, Readable entry.2 := by
      refine walkFields_invariant (fun s => ∀ entry ∈ s.others, Readable entry.2) hfields (by simp)
        (fun s name value s' hvalue hs hfield => ?_) hwalk
      unfold Slots.field at hfield
      split at hfield
      · obtain ⟨_, -, rfl⟩ := fill_step hfield
        exact hs
      · split at hfield
        · obtain rfl := Except.ok.inj hfield
          exact List.forall_mem_cons.mpr ⟨hvalue, hs⟩
        · exact absurd hfield throw_ne_ok
    exact Op.finite_of_ofFields (fun entry hentry => hothers entry (List.mem_reverse.mp hentry)) hop
  | _ => simp [ofJson, wrongType, throw, throwThe, MonadExceptOf.throw] at h

namespace TracedGraph

/-- Every shape of a table is one of those that went into it. -/
theorem inWords_insert {t : Table Shape} {name : String} {shape : Shape}
    (ht : ∀ entry ∈ t.entries, entry.2.InWords) (hshape : shape.InWords) :
    ∀ entry ∈ (t.insert name shape).entries, entry.2.InWords := by
  intro entry hentry
  rcases Table.mem_insertEntry hentry with rfl | hentry
  · exact hshape
  · exact ht entry hentry

theorem inWords_of_shapesOfJson {j : Json} {t : Table Shape} (hj : Readable j)
    (h : shapesOfJson j = .ok t) : ∀ entry ∈ t.entries, entry.2.InWords := by
  cases hj with
  | object hfields =>
    rw [shapesOfJson] at h
    refine walkFields_invariant
      (fun t : Table Shape => ∀ entry ∈ t.entries, entry.2.InWords) hfields
      (by simp [Table.empty]) (fun s name value s' hvalue hs hfield => ?_) h
    obtain ⟨shape, hread, heq⟩ := bind_eq_ok.mp hfield
    obtain rfl := Except.ok.inj heq
    exact inWords_insert hs (inWords_of_asShape hvalue hread)
  | _ => simp [shapesOfJson, wrongType, throw, throwThe, MonadExceptOf.throw] at h

/-- The slots of a graph hold what a text can say. -/
structure Slots.Writable (s : Slots) : Prop where
  inputs : ∀ inputs, s.inputs = some inputs → ∀ d ∈ inputs, d.shape.InWords
  nodes : ∀ nodes, s.nodes = some nodes → ∀ n ∈ nodes, n.op.Finite
  valueShapes : ∀ t, s.valueShapes = some t → ∀ entry ∈ t.entries, entry.2.InWords

theorem Slots.writable_field {s s' : Slots} {name : String} {value : Json} (hvalue : Readable value)
    (hs : s.Writable) (h : s.field name value = .ok s') : s'.Writable := by
  obtain ⟨hinputs, hnodes, hshapes⟩ := hs
  unfold Slots.field at h
  split at h
  · obtain ⟨inputs, hread, rfl⟩ := fill_step h
    refine ⟨?_, hnodes, hshapes⟩
    rintro _ ⟨⟩ d hd
    obtain ⟨item, hitem, hd⟩ := asList_mem hvalue hread d hd
    exact InputDecl.inWords_of_ofJson hitem hd
  · obtain ⟨nodes, hread, rfl⟩ := fill_step h
    refine ⟨hinputs, ?_, hshapes⟩
    rintro _ ⟨⟩ n hn
    obtain ⟨item, hitem, hn⟩ := asList_mem hvalue hread n hn
    exact Node.finite_of_ofJson hitem hn
  · obtain ⟨_, -, rfl⟩ := fill_step h
    exact ⟨hinputs, hnodes, hshapes⟩
  · obtain ⟨t, hread, rfl⟩ := fill_step h
    refine ⟨hinputs, hnodes, ?_⟩
    rintro _ ⟨⟩
    exact inWords_of_shapesOfJson hvalue hread
  · exact absurd h throw_ne_ok

theorem writable_of_ofJson {j : Json} {g : TracedGraph} (hj : Readable j) (h : ofJson j = .ok g) :
    g.Writable := by
  obtain ⟨s, hwalk, h⟩ := bind_eq_ok.mp h
  obtain ⟨inputs, hinputs, h⟩ := bind_eq_ok.mp h
  obtain ⟨nodes, hnodes, h⟩ := bind_eq_ok.mp h
  obtain ⟨outputs, houtputs, h⟩ := bind_eq_ok.mp h
  obtain ⟨shapes, hshapes, h⟩ := bind_eq_ok.mp h
  obtain rfl := Except.ok.inj h
  have hs : s.Writable := walkRecord_invariant Slots.Writable hj ⟨by simp, by simp, by simp⟩
    (fun _ _ _ _ hvalue hs hfield => Slots.writable_field hvalue hs hfield) hwalk
  exact ⟨hs.inputs inputs (required_eq_ok.mp hinputs), hs.nodes nodes (required_eq_ok.mp hnodes),
    hs.valueShapes shapes (required_eq_ok.mp hshapes)⟩

end TracedGraph

namespace StatedArtifact

/-- The slots of an artifact hold what a text can say. -/
structure Slots.Writable (s : Slots) : Prop where
  graph : ∀ g, s.graph = some g → g.Writable
  constants : ∀ constants, s.constants = some constants → ∀ c ∈ constants, c.tensor.Finite

theorem Slots.writable_field {s s' : Slots} {name : String} {value : Json} (hvalue : Readable value)
    (hs : s.Writable) (h : s.field name value = .ok s') : s'.Writable := by
  obtain ⟨hgraph, hconstants⟩ := hs
  unfold Slots.field at h
  split at h
  case h_3 =>
    obtain ⟨g, hread, rfl⟩ := fill_step h
    refine ⟨?_, hconstants⟩
    rintro _ ⟨⟩
    exact TracedGraph.writable_of_ofJson hvalue hread
  case h_4 =>
    obtain ⟨constants, hread, rfl⟩ := fill_step h
    refine ⟨hgraph, ?_⟩
    rintro _ ⟨⟩ c hc
    obtain ⟨item, hitem, hc⟩ := asList_mem hvalue hread c hc
    exact FrozenConstant.finite_of_ofJson hitem hc
  case h_7 => exact absurd h throw_ne_ok
  all_goals
    obtain ⟨_, -, rfl⟩ := fill_step h
    exact ⟨hgraph, hconstants⟩

theorem writable_of_ofJson {j : Json} {s : StatedArtifact} (hj : Readable j)
    (h : ofJson j = .ok s) : s.content.Writable := by
  obtain ⟨slots, hwalk, h⟩ := bind_eq_ok.mp h
  obtain ⟨version, hversion, h⟩ := bind_eq_ok.mp h
  obtain ⟨name, hname, h⟩ := bind_eq_ok.mp h
  obtain ⟨graph, hgraph, h⟩ := bind_eq_ok.mp h
  obtain ⟨constants, hconstants, h⟩ := bind_eq_ok.mp h
  obtain ⟨_, -, h⟩ := bind_eq_ok.mp h
  obtain ⟨_, -, h⟩ := bind_eq_ok.mp h
  obtain rfl := Except.ok.inj h
  have hs : slots.Writable := walkRecord_invariant Slots.Writable hj ⟨by simp, by simp⟩
    (fun _ _ _ _ hvalue hs hfield => Slots.writable_field hvalue hs hfield) hwalk
  exact ⟨hs.graph graph (required_eq_ok.mp hgraph),
    hs.constants constants (required_eq_ok.mp hconstants)⟩

/-- The version is checked first, then the graph, then the source. -/
theorem verify_cases (s : StatedArtifact) :
    (s.version ≠ Artifact.schemaVersion ∧
      s.verify = .error (.version Artifact.schemaVersion s.version)) ∨
    (s.version = Artifact.schemaVersion ∧ s.graphChecksum ≠ s.content.graphChecksum ∧
      s.verify = .error (.checksum .graph s.content.graphChecksum s.graphChecksum)) ∨
    (s.version = Artifact.schemaVersion ∧ s.graphChecksum = s.content.graphChecksum ∧
      s.sourceChecksum ≠ s.content.sourceChecksum ∧
      s.verify = .error (.checksum .source s.content.sourceChecksum s.sourceChecksum)) ∨
    (s.version = Artifact.schemaVersion ∧ s.graphChecksum = s.content.graphChecksum ∧
      s.sourceChecksum = s.content.sourceChecksum ∧ s.verify = .ok s.content) := by
  unfold verify
  dsimp only
  split
  · exact .inl ⟨‹_›, rfl⟩
  · have hversion := not_not.mp ‹_›
    split
    · exact .inr (.inl ⟨hversion, ‹_›, rfl⟩)
    · have hgraph := not_not.mp ‹_›
      split
      · exact .inr (.inr (.inl ⟨hversion, hgraph, ‹_›, rfl⟩))
      · exact .inr (.inr (.inr ⟨hversion, hgraph, not_not.mp ‹_›, rfl⟩))

theorem verify_eq_ok {s : StatedArtifact} {a : Artifact} (h : s.verify = .ok a) :
    s.content = a ∧ s.version = Artifact.schemaVersion ∧ s.graphChecksum = a.graphChecksum ∧
      s.sourceChecksum = a.sourceChecksum := by
  obtain ⟨-, hverify⟩ | ⟨-, -, hverify⟩ | ⟨-, -, -, hverify⟩ |
    ⟨hversion, hgraph, hsource, hverify⟩ := s.verify_cases
  · cases hverify.symm.trans h
  · cases hverify.symm.trans h
  · cases hverify.symm.trans h
  · obtain rfl := Except.ok.inj (hverify.symm.trans h)
    exact ⟨rfl, hversion, hgraph, hsource⟩

end StatedArtifact

namespace Artifact

/-- What a text was decoded from. -/
theorem decode_eq_ok {text : String} {a : Artifact} (h : decode text = .ok a) :
    ∃ s, Json.decode StatedArtifact.ofJson (Document.ofString text) = .ok s ∧ s.verify = .ok a := by
  obtain ⟨_, -, h⟩ := bind_eq_ok.mp h
  obtain ⟨s, hread, h⟩ := bind_eq_ok.mp h
  exact ⟨s, mapError_eq_ok.mp hread, h⟩

theorem writable_of_decode {text : String} {a : Artifact} (h : decode text = .ok a) :
    a.Writable := by
  obtain ⟨s, hread, hverify⟩ := decode_eq_ok h
  obtain ⟨s', hroot, hended⟩ := bind_eq_ok.mp hread
  obtain rfl : s' = s := by
    split at hended
    · exact Except.ok.inj hended
    · exact absurd hended throw_ne_ok
  obtain ⟨rfl, -⟩ := StatedArtifact.verify_eq_ok hverify
  exact StatedArtifact.writable_of_ofJson (Document.readable text) hroot

/-- The steps of a capture that succeeds. -/
theorem capture_eq_ok {m : Model} {inputs : List (Tensor Float)} {a : Artifact}
    (h : capture m inputs = .ok a) :
    m.inputs.length = inputs.length ∧ checkInputs 0 (m.inputs.zip inputs) = .ok () ∧
      ∃ constants shapes, m.constants.entries.mapM freeze = .ok constants ∧
        m.trace .double inputs = .ok shapes ∧
        a = ⟨m.name, ⟨m.inputs, m.nodes, m.outputs, shapes⟩, constants⟩ := by
  unfold capture at h
  split at h
  · simp at h
  · rename_i hlength
    obtain ⟨_, hinputs, h⟩ := bind_eq_ok.mp h
    obtain ⟨constants, hconstants, h⟩ := bind_eq_ok.mp h
    obtain ⟨shapes, hshapes, h⟩ := bind_eq_ok.mp h
    exact ⟨by simpa using hlength, hinputs, constants, shapes, hconstants,
      mapError_eq_ok.mp hshapes,
      (Except.ok.inj h).symm⟩

theorem checkInputs_eq_ok {position : Nat} {pairs : List (InputDecl × Tensor Float)}
    (h : checkInputs position pairs = .ok ()) : ∀ pair ∈ pairs, pair.2.shape = pair.1.shape := by
  induction pairs generalizing position with
  | nil => simp
  | cons pair pairs ih =>
    obtain ⟨decl, t⟩ := pair
    unfold checkInputs at h
    split at h
    · rename_i hshape
      exact List.forall_mem_cons.mpr ⟨hshape, ih h⟩
    · simp at h

theorem freeze_eq_ok {entry : String × Tensor Float} {c : FrozenConstant}
    (h : freeze entry = .ok c) : c = ⟨entry.1, entry.2⟩ ∧ c.tensor.Finite := by
  obtain ⟨name, t⟩ := entry
  rw [freeze] at h
  split at h
  · rename_i hfinite
    obtain rfl := Except.ok.inj h
    rw [← Array.all_toList] at hfinite
    exact ⟨rfl, List.all_eq_true.mp hfinite⟩
  · simp at h

/-- A capture freezes the constants of the model one by one. -/
theorem constants_of_capture {m : Model} {inputs : List (Tensor Float)} {a : Artifact}
    (h : capture m inputs = .ok a) :
    a.constants = m.constants.entries.map fun entry => ⟨entry.1, entry.2⟩ := by
  obtain ⟨-, -, constants, shapes, hconstants, -, rfl⟩ := capture_eq_ok h
  exact mapM_eq_map (fun _ _ hfreeze => (freeze_eq_ok hfreeze).1) hconstants

end Artifact

/-- A kernel that normalises has checked its stability term. -/
theorem finite_of_batchNorm {input mean var t : Tensor Float} {weight bias : Option (Tensor Float)}
    {eps : Float} (h : batchNorm input mean var weight bias eps = .ok t) : eps.isFinite = true := by
  unfold batchNorm at h
  split at h
  · split at h
    · simp at h
    · rename_i heps
      simp only [Bool.or_eq_true, not_or, Bool.not_eq_true, Bool.not_eq_false'] at heps
      exact heps.1
  · simp at h

/-- A node that was computed has finite numbers among its fields. -/
theorem Model.finite_of_apply {m : Model} {p : Precision} {values : Values} {node : Node}
    {t : Tensor Float} (h : m.apply p values node = .ok t) : node.op.Finite := by
  obtain ⟨output, op⟩ := node
  cases op with
  | batchNorm input mean var weight bias eps =>
    simp only [apply, bind_eq_ok] at h
    obtain ⟨_, -, _, -, _, -, _, -, _, -, result, hresult, h⟩ := h
    obtain rfl := Except.ok.inj hresult
    exact finite_of_batchNorm (mapError_eq_ok.mp h)
  | conv2d | deformConv2d | sigmoid => trivial

theorem Model.finite_of_evaluate {m : Model} {p : Precision} {inputs : List (Tensor Float)}
    {values : Values} (h : m.evaluate p inputs = .ok values) : ∀ n ∈ m.nodes, n.op.Finite := by
  intro n hn
  obtain ⟨-, bound, -, hnodes⟩ := evaluate_iff_steps.mp h
  obtain ⟨before, after, hstep⟩ := foldlM_step hnodes n hn
  obtain ⟨t, happly, -⟩ := step_eq_ok hstep
  exact finite_of_apply happly

theorem Model.inWords_of_trace {m : Model} {p : Precision} {inputs : List (Tensor Float)}
    {shapes : Table Shape} (h : m.trace p inputs = .ok shapes) :
    ∀ entry ∈ shapes.entries, entry.2.InWords := by
  obtain ⟨values, -, h⟩ := bind_eq_ok.mp h
  obtain rfl := Except.ok.inj h
  refine List.foldlRecOn values.entries _ (motive := fun t : Table Shape =>
    ∀ entry ∈ t.entries, entry.2.InWords) ?_ fun t ht entry _ =>
      TracedGraph.inWords_insert ht entry.2.inWords
  intro entry hentry
  obtain ⟨constant, -, rfl⟩ := List.mem_map.mp hentry
  exact constant.2.inWords

namespace Artifact

theorem writable_of_capture {m : Model} {inputs : List (Tensor Float)} {a : Artifact}
    (h : capture m inputs = .ok a) : a.Writable := by
  obtain ⟨hlength, hinputs, constants, shapes, hconstants, htrace, rfl⟩ := capture_eq_ok h
  obtain ⟨values, hvalues, -⟩ := bind_eq_ok.mp htrace
  refine ⟨⟨fun d hd => ?_, Model.finite_of_evaluate hvalues, Model.inWords_of_trace htrace⟩,
    fun c hc => ?_⟩
  · obtain ⟨i, hi, rfl⟩ := List.mem_iff_getElem.mp hd
    have hi' : i < inputs.length := hlength ▸ hi
    have hpair : (m.inputs[i], inputs[i]) ∈ m.inputs.zip inputs :=
      List.mem_iff_getElem.mpr ⟨i, by simp [hi, hi'], by simp⟩
    rw [← checkInputs_eq_ok hinputs _ hpair]
    exact inputs[i].inWords
  · obtain ⟨entry, -, hfreeze⟩ := mapM_mem hconstants c hc
    exact (freeze_eq_ok hfreeze).2

/-- Artifacts that were captured or read are writable. -/
theorem writable_of_origin {a : Artifact}
    (h : (∃ m inputs, capture m inputs = .ok a) ∨ ∃ text, decode text = .ok a) : a.Writable := by
  rcases h with ⟨m, inputs, hcapture⟩ | ⟨text, hdecode⟩
  · exact writable_of_capture hcapture
  · exact writable_of_decode hdecode

/-- Writing and reading an artifact changes nothing in it, wherever it came from: names, shapes,
parameters and, bit for bit, every number. Only a text over the size limit is refused. -/
theorem decode_encode {a : Artifact}
    (hsource : (∃ m inputs, capture m inputs = .ok a) ∨ ∃ text, decode text = .ok a)
    (hsize : a.encode.utf8ByteSize ≤ maxBytes) : decode a.encode = .ok a := by
  refine decode_encode_of_writable ?_ hsize
  rcases hsource with ⟨m, inputs, hcapture⟩ | ⟨text, hdecode⟩
  · exact writable_of_capture hcapture
  · exact writable_of_decode hdecode

/-- A model whose names need escapes and whose constants include a negative zero. -/
def sampleModel : Model :=
  ⟨"m\"\n", [⟨"x", [1, 1]⟩],
    ⟨[("v", ⟨[1], #[1.0], by decide⟩), ("é\\", ⟨[1], #[-0.0], by decide⟩)], by decide⟩,
    [⟨"y", .batchNorm "x" "é\\" "v" none none 0.0⟩], ["y"], by decide⟩

/-- The artifact of the model. -/
def sample : Artifact :=
  ⟨"m\"\n",
    ⟨[⟨"x", [1, 1]⟩], [⟨"y", .batchNorm "x" "é\\" "v" none none 0.0⟩], ["y"],
      ⟨[("v", [1]), ("x", [1, 1]), ("y", [1, 1]), ("é\\", [1])], by decide⟩⟩,
    [⟨"v", ⟨[1], #[1.0], by decide⟩⟩, ⟨"é\\", ⟨[1], #[-0.0], by decide⟩⟩]⟩

theorem capture_sample : capture sampleModel [⟨[1, 1], #[0.5], by decide⟩] = .ok sample := by
  decide +kernel

theorem decode_encode_sample : decode sample.encode = .ok sample := by
  have hroom : 4 * sample.room ≤ maxBytes := by decide +kernel
  exact decode_encode (.inl ⟨sampleModel, _, capture_sample⟩)
    ((utf8ByteSize_encode_le (writable_of_capture capture_sample)).trans hroom)

end Artifact

end TensorParity
