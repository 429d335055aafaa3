import TensorParity.Proofs.Artifact.Writable
import TensorParity.Proofs.Digest.Bytes
import TensorParity.Proofs.Rounding.Bits

/-!
What the checksums identify. The text under the graph checksum is the printed graph, and a printed
graph is read back, so two graphs with one text are the same: names, operands that are there or not,
parameters and stability terms bit for bit. The bytes under the source checksum hold every name, size
and number of an artifact, but they do not say where a name ends or how many axes a shape has: two
artifacts with the same bytes are equal exactly when they agree on those lengths. Nothing here is
about the digest itself; that it does not send the two texts at hand to one value is a hypothesis.
-/
namespace TensorParity

open Json

namespace TracedGraph

variable {g g' : TracedGraph}

/-- The bytes under the graph checksum. -/
def source (g : TracedGraph) : List UInt8 := g.checksumText.toUTF8.toList

/-- A printed graph says which graph it is. -/
theorem eq_of_text (h : g.Writable) (h' : g'.Writable) (htext : g.toJson.text = g'.toJson.text) :
    g = g' := by
  have hprintable : Printable maxDepth g.toJson :=
    printable_mono (printable_toJson h 0) (by decide)
  have hprintable' : Printable maxDepth g'.toJson :=
    printable_mono (printable_toJson h' 0) (by decide)
  have hdocument : (⟨g.toJson, true⟩ : Document) = ⟨g'.toJson, true⟩ := by
    rw [← Document.ofString_text hprintable, ← Document.ofString_text hprintable', htext]
  have hread : ofJson g.toJson = ofJson g'.toJson :=
    congrArg (fun document => ofJson document.root) hdocument
  rw [ofJson_toJson h, ofJson_toJson h'] at hread
  exact Except.ok.inj hread

/-- So do the bytes that are digested. -/
theorem eq_of_source (h : g.Writable) (h' : g'.Writable) (hsource : g.source = g'.source) :
    g = g' := by
  have htext : g.checksumText = g'.checksumText := toList_toUTF8_inj hsource
  have hgraphs : g.toJson.text = g'.toJson.text := (String.append_right_inj _).mp htext
  exact eq_of_text h h' hgraphs

end TracedGraph

namespace Artifact

/-- Artifacts that were captured or read have one graph checksum exactly if they have one graph,
provided that the digest does not collide on the two. -/
theorem graphChecksum_eq_iff {a b : Artifact}
    (ha : (∃ m inputs, capture m inputs = .ok a) ∨ ∃ text, decode text = .ok a)
    (hb : (∃ m inputs, capture m inputs = .ok b) ∨ ∃ text, decode text = .ok b)
    (hcollision : Sha256.bytes a.graph.source = Sha256.bytes b.graph.source →
      a.graph.source = b.graph.source) :
    a.graphChecksum = b.graphChecksum ↔ a.graph = b.graph := by
  constructor
  · intro hsum
    have hsource := hcollision (Sha256.label_inj hsum)
    exact TracedGraph.eq_of_source (writable_of_origin ha).graph (writable_of_origin hb).graph
      hsource
  · intro hgraph
    exact congrArg TracedGraph.checksum hgraph

/-- Normalises a constant. -/
def normModel (eps : Float) : Model :=
  ⟨"m", [], ⟨[("c", ⟨[1, 1], #[3.0], by decide⟩), ("v", ⟨[1], #[9.0], by decide⟩)], by decide⟩,
    [⟨"y", .batchNorm "c" "v" "v" none none eps⟩], ["y"], rfl⟩

/-- Its artifact. -/
def normArtifact (eps : Float) : Artifact :=
  ⟨"m", ⟨[], [⟨"y", .batchNorm "c" "v" "v" none none eps⟩], ["y"],
    ⟨[("c", [1, 1]), ("v", [1]), ("y", [1, 1])], by decide⟩⟩,
    [⟨"c", ⟨[1, 1], #[3.0], by decide⟩⟩, ⟨"v", ⟨[1], #[9.0], by decide⟩⟩]⟩

theorem capture_normModel :
    capture (normModel 0.0) [] = .ok (normArtifact 0.0) ∧
      capture (normModel (-0.0)) [] = .ok (normArtifact (-0.0)) := by
  decide +kernel

theorem digest_normArtifact_ne :
    Sha256.bytes (normArtifact 0.0).graph.source ≠
      Sha256.bytes (normArtifact (-0.0)).graph.source := by
  rw [TracedGraph.source, TracedGraph.source, toList_bytes, toList_bytes]
  decide +kernel

/-- The sign of a zero alone tells two graphs apart, and so does their checksum. -/
theorem graphChecksum_normArtifact_ne :
    (normArtifact 0.0).graphChecksum ≠ (normArtifact (-0.0)).graphChecksum := by
  have hgraph : (normArtifact 0.0).graph ≠ (normArtifact (-0.0)).graph := by decide +kernel
  intro hsum
  exact hgraph ((graphChecksum_eq_iff (.inl ⟨_, _, capture_normModel.1⟩)
    (.inl ⟨_, _, capture_normModel.2⟩) fun hdigest => absurd hdigest digest_normArtifact_ne).mp
      hsum)

end Artifact

/-- The lengths in a constant that its bytes leave open: the bytes of its name, and its axes. -/
def FrozenConstant.frame (c : FrozenConstant) : Nat × Nat :=
  (c.name.utf8ByteSize, c.tensor.rank)

namespace Artifact

/-- The lengths that the source bytes leave open. -/
def frame (a : Artifact) : Nat × List (Nat × Nat) :=
  (a.modelName.utf8ByteSize, a.constants.map FrozenConstant.frame)

/-- The bytes under the source checksum. -/
def source (a : Artifact) : List UInt8 :=
  sourceBytes schemaVersion a.modelName a.graphChecksum a.constants

private theorem word_lt {n : Nat} (h : n < Shape.wordLimit) : n < 256 ^ 8 := by
  have : Shape.wordLimit = 256 ^ 8 := by decide
  omega

theorem shapeBytes_inj {s t : Shape} {us vs : List UInt8} (hs : s.InWords) (ht : t.InWords)
    (hrank : s.length = t.length)
    (h : s.flatMap (littleEndian 8) ++ us = t.flatMap (littleEndian 8) ++ vs) : s = t ∧ us = vs :=
  flatMap_append_inj (length_littleEndian 8)
    (fun m hm n hn => littleEndian_inj (word_lt (hs m hm)) (word_lt (ht n hn))) hrank h

theorem dataBytes_inj {xs ys : List Float} {us vs : List UInt8} (hlength : xs.length = ys.length)
    (h : xs.flatMap (fun x => littleEndian 8 x.toBits.toNat) ++ us =
      ys.flatMap (fun x => littleEndian 8 x.toBits.toNat) ++ vs) : xs = ys ∧ us = vs := by
  refine flatMap_append_inj (fun _ => length_littleEndian 8 _) (fun x _ y _ hbytes => ?_) hlength h
  have hbits := littleEndian_inj (word_lt x.toBits.toNat_lt) (word_lt y.toBits.toNat_lt) hbytes
  rw [← ofBits_toBits x, UInt64.toNat_inj.mp hbits, ofBits_toBits]

/-- Constants of one frame can be told apart, and so can what follows them. -/
theorem constantBytes_inj {c d : FrozenConstant} {us vs : List UInt8} (hframe : c.frame = d.frame)
    (h : constantBytes c ++ us = constantBytes d ++ vs) : c = d ∧ us = vs := by
  obtain ⟨cname, ⟨cshape, cdata, hc⟩⟩ := c
  obtain ⟨dname, ⟨dshape, ddata, hd⟩⟩ := d
  obtain ⟨hsize, hrank⟩ := Prod.mk.inj hframe
  simp only [constantBytes, List.append_assoc] at h
  obtain ⟨hnames, hshapes⟩ := List.append_inj h (by
    rw [length_toList_toUTF8, length_toList_toUTF8]
    exact hsize)
  obtain rfl := toList_toUTF8_inj hnames
  obtain ⟨rfl, hdata⟩ := shapeBytes_inj (Tensor.inWords ⟨cshape, cdata, hc⟩)
    (Tensor.inWords ⟨dshape, ddata, hd⟩) hrank (List.append_cancel_left hshapes)
  have hcount : cdata.size = ddata.size := Option.some.inj (hc.symm.trans hd)
  obtain ⟨hlists, hend⟩ := dataBytes_inj (by simpa using hcount) (List.append_cancel_left hdata)
  obtain rfl := Array.toList_inj.mp hlists
  exact ⟨rfl, List.append_cancel_left hend⟩

theorem constants_eq_of_bytes {cs ds : List FrozenConstant}
    (hframe : cs.map FrozenConstant.frame = ds.map FrozenConstant.frame)
    (h : cs.flatMap constantBytes = ds.flatMap constantBytes) : cs = ds := by
  induction cs generalizing ds with
  | nil => exact (List.map_eq_nil_iff.mp hframe.symm).symm
  | cons c cs ih =>
    obtain _ | ⟨d, ds⟩ := ds
    · simp at hframe
    obtain ⟨hhead, htail⟩ := List.cons.inj hframe
    obtain ⟨rfl, hrest⟩ := constantBytes_inj hhead h
    rw [ih htail hrest]

/-- The digested bytes tell version, name, graph checksum and constants apart as long as the lengths
that they leave open are the same. -/
theorem sourceBytes_inj {version version' : Nat} {name name' sum sum' : String}
    {cs ds : List FrozenConstant} (hversion : version < Nat.pow 2 32)
    (hversion' : version' < Nat.pow 2 32) (hname : name.utf8ByteSize = name'.utf8ByteSize)
    (hsum : sum.utf8ByteSize = sum'.utf8ByteSize)
    (hframe : cs.map FrozenConstant.frame = ds.map FrozenConstant.frame)
    (h : sourceBytes version name sum cs = sourceBytes version' name' sum' ds) :
    version = version' ∧ name = name' ∧ sum = sum' ∧ cs = ds := by
  simp only [sourceBytes, toList_toUTF8_append, List.append_assoc] at h
  have hafterTag := List.append_cancel_left h
  obtain ⟨hversions, hnames⟩ := List.append_inj hafterTag (by
    rw [length_littleEndian, length_littleEndian])
  obtain ⟨hname', hsums⟩ := List.append_inj hnames (by
    rw [length_toList_toUTF8, length_toList_toUTF8, hname])
  obtain ⟨hsum', hconstants⟩ := List.append_inj (List.append_cancel_left hsums) (by
    rw [length_toList_toUTF8, length_toList_toUTF8, hsum])
  exact ⟨littleEndian_inj hversion hversion' hversions, toList_toUTF8_inj hname',
    toList_toUTF8_inj hsum', constants_eq_of_bytes hframe (List.append_cancel_left hconstants)⟩

/-- Artifacts with one graph and one source checksum have the same name and the same constants, bit
for bit, exactly if their names are of one length and their constants of one number, with names of
one length and shapes of one rank. -/
theorem eq_iff_frame_of_sourceChecksum {a b : Artifact} (hgraph : a.graph = b.graph)
    (hsum : a.sourceChecksum = b.sourceChecksum)
    (hcollision : Sha256.label a.source = Sha256.label b.source → a.source = b.source) :
    (a.modelName = b.modelName ∧ a.constants = b.constants) ↔ a.frame = b.frame := by
  constructor
  · rintro ⟨hname, hconstants⟩
    rw [frame, frame, hname, hconstants]
  · intro hframe
    obtain ⟨hname, hconstants⟩ := Prod.mk.inj hframe
    have hgraphSum : a.graphChecksum = b.graphChecksum := congrArg TracedGraph.checksum hgraph
    have hbytes := hcollision hsum
    obtain ⟨-, hname, -, hconstants⟩ := sourceBytes_inj (by decide) (by decide) hname
      (congrArg String.utf8ByteSize hgraphSum) hconstants hbytes
    exact ⟨hname, hconstants⟩

/-- One element, and no axes. -/
def unit : Tensor Float := ⟨[], #[1.0], by decide⟩

/-- A graph without values. -/
def bareGraph : TracedGraph := ⟨[], [], [], .empty⟩

/-- A constant whose name begins with a checksum. -/
def longConstant (sum : String) : Artifact := ⟨"m", bareGraph, [⟨sum ++ "\nc", unit⟩]⟩

/-- The same bytes divided elsewhere: a model whose name ends in the checksum. -/
def longModel (sum : String) : Artifact := ⟨"m\n" ++ sum, bareGraph, [⟨"c", unit⟩]⟩

private theorem writable_unit (name : String) (constant : String) :
    Writable ⟨name, bareGraph, [⟨constant, unit⟩]⟩ := by
  have hunit : unit.data.toList.all Float.isFinite := by decide
  refine ⟨⟨nofun, nofun, nofun⟩, fun c hc => ?_⟩
  obtain rfl := List.mem_singleton.mp hc
  exact List.all_eq_true.mp hunit

theorem decode_longConstant (message : List UInt8) :
    decode (longConstant (Sha256.label message)).encode =
      .ok (longConstant (Sha256.label message)) := by
  have hwritable : (longConstant (Sha256.label message)).Writable := writable_unit _ _
  refine decode_encode_of_writable hwritable ((utf8ByteSize_encode_le hwritable).trans ?_)
  have hroom (sum : String) :
      (longConstant sum).room = (longConstant "").room + 6 * sum.length := by
    simp only [longConstant, room, StatedArtifact.toJson, FrozenConstant.toJson, Json.record,
      Json.room, Json.roomFields, Json.roomItems, List.map_cons, List.map_nil, String.length_append,
      String.length_empty]
    omega
  have hblank : 4 * ((longConstant "").room + 6 * 71) ≤ maxBytes := by decide
  rwa [hroom, Sha256.length_label]

theorem decode_longModel (message : List UInt8) :
    decode (longModel (Sha256.label message)).encode = .ok (longModel (Sha256.label message)) := by
  have hwritable : (longModel (Sha256.label message)).Writable := writable_unit _ _
  refine decode_encode_of_writable hwritable ((utf8ByteSize_encode_le hwritable).trans ?_)
  have hroom (sum : String) : (longModel sum).room = (longModel "").room + 6 * sum.length := by
    simp only [longModel, room, StatedArtifact.toJson, Json.record, Json.room, Json.roomFields,
      String.length_append, String.length_empty]
    omega
  have hblank : 4 * ((longModel "").room + 6 * 71) ≤ maxBytes := by decide
  rwa [hroom, Sha256.length_label]

theorem source_longConstant :
    (longConstant bareGraph.checksum).source = (longModel bareGraph.checksum).source := by
  simp only [source, sourceBytes, longConstant, longModel, graphChecksum, constantBytes,
    show "\nc" = "\n" ++ "c" from rfl, show "m\n" = "m" ++ "\n" from rfl, toList_toUTF8_append,
    List.append_assoc, List.flatMap_cons, List.flatMap_nil]

theorem modelName_longConstant_ne :
    (longConstant bareGraph.checksum).modelName ≠ (longModel bareGraph.checksum).modelName := by
  intro h
  have hlength := congrArg String.length h
  rw [longConstant, longModel, String.length_append, TracedGraph.checksum, Sha256.length_label]
    at hlength
  exact absurd hlength (by decide)

/-- The lengths tell the two apart, since nothing else does. -/
theorem frame_longConstant_ne :
    (longConstant bareGraph.checksum).frame ≠ (longModel bareGraph.checksum).frame := by
  intro hframe
  have hequal := (eq_iff_frame_of_sourceChecksum (a := longConstant bareGraph.checksum)
    (b := longModel bareGraph.checksum) rfl (congrArg Sha256.label source_longConstant)
    fun _ => source_longConstant).mpr hframe
  exact modelName_longConstant_ne hequal.1

/-- Both are read back, and they have one graph and one source checksum, without any collision of
the digest. -/
theorem sourceChecksum_ambiguous :
    decode (longConstant bareGraph.checksum).encode = .ok (longConstant bareGraph.checksum) ∧
    decode (longModel bareGraph.checksum).encode = .ok (longModel bareGraph.checksum) ∧
    (longConstant bareGraph.checksum).graph = (longModel bareGraph.checksum).graph ∧
    (longConstant bareGraph.checksum).sourceChecksum =
      (longModel bareGraph.checksum).sourceChecksum ∧
    (longConstant bareGraph.checksum).source = (longModel bareGraph.checksum).source ∧
    (longConstant bareGraph.checksum).modelName ≠ (longModel bareGraph.checksum).modelName :=
  ⟨decode_longConstant _, decode_longModel _, rfl, congrArg Sha256.label source_longConstant,
    source_longConstant, modelName_longConstant_ne⟩

end Artifact

end TensorParity
