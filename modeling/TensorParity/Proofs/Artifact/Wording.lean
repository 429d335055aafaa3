import TensorParity.Proofs.Artifact.Writable
import TensorParity.Proofs.Record.Wording

/-!
An artifact is settled by its data. Its checksums are taken of the content that was read, so a text
that says the same in other words passes them: blanks, the order of keys in any object, escapes and
the literals of doubles may all be others than those that were printed.
-/
namespace TensorParity

open Json

namespace FrozenConstant

/-- The slots once these keys are read. -/
def slots (c : FrozenConstant) (filled : List String) : Slots where
  name := kept "name" filled c.name
  tensor := kept "tensor" filled c.tensor

theorem fills {c : FrozenConstant} (h : c.tensor.Finite) :
    Fills Slots.field c.slots [("name", .string c.name), ("tensor", c.tensor.toJson)] := by
  refine .cons (fun v filled hsame hnew => ?_) (.cons (fun v filled hsame hnew => ?_) .nil)
  · have hread := settles_string c.name v hsame
    simp [Slots.field, slots, fill_kept hnew hread]
  · have hread := Tensor.settles h v hsame
    simp [Slots.field, slots, fill_kept hnew hread]

theorem settles {c : FrozenConstant} (h : c.tensor.Finite) : Settles ofJson c.toJson c := by
  intro j hsame
  obtain ⟨filled, hkeys, hwalk⟩ := (fills h).walkRecord hsame (by simp)
  simp only [List.map_cons, List.map_nil, List.forall_mem_cons] at hkeys
  simp only [slots, kept_nil] at hwalk
  simp only [ofJson, hwalk, ok_bind, required_kept hkeys.1, required_kept hkeys.2.1]
  rfl

end FrozenConstant

namespace TracedGraph

/-- The table once these keys are read. -/
def shapesSoFar (t : Table Shape) (filled : List String) : Table Shape :=
  t.without (t.keys.filter (· ∉ filled))

theorem find?_shapesSoFar (t : Table Shape) (filled : List String) (key : String) :
    (shapesSoFar t filled).find? key = if key ∈ filled then t.find? key else none := by
  rw [shapesSoFar, Table.find?_without]
  by_cases hfilled : key ∈ filled
  · simp [hfilled]
  · have hmissing : t.find? key = none ∨ key ∈ t.keys := by
      rw [Table.mem_keys_iff, ← Option.ne_none_iff_exists']
      exact Decidable.em _
    rcases hmissing with hnone | hmem
    · simp [hfilled, hnone]
    · simp [hfilled, hmem]

/-- A map of shapes has one entry for each key, so the order in which they come plays no part. -/
theorem fills_shapes {t : Table Shape} (h : ∀ entry ∈ t.entries, entry.2.InWords) :
    Fills (fun (t : Table Shape) name value => return t.insert name (← asShape value))
      (shapesSoFar t) (t.entries.map fun (name, s) => (name, .ofShape s)) := by
  intro key j hmem v filled hsame _
  obtain ⟨⟨name, s⟩, hentry, heq⟩ := List.mem_map.mp hmem
  obtain ⟨rfl, rfl⟩ := Prod.mk.inj heq
  have hread := settles_shape (h _ hentry) v hsame
  have hinsert : (shapesSoFar t filled).insert name s = shapesSoFar t (name :: filled) := by
    refine Table.eq_of_find? fun key => ?_
    rw [Table.find?_insert, find?_shapesSoFar, find?_shapesSoFar]
    by_cases hkey : key = name
    · simp [hkey, Table.find?_eq_some_iff.mpr hentry]
    · simp [hkey]
  simp only [hread, ok_bind, hinsert]
  rfl

theorem settles_shapes {t : Table Shape} (h : ∀ entry ∈ t.entries, entry.2.InWords) :
    Settles shapesOfJson (.record (t.entries.map fun (name, s) => (name, .ofShape s))) t := by
  intro j hsame
  have hkeys : (t.entries.map fun (name, s) => (name, ofShape s)).map (·.1) = t.keys := by
    simp [Table.keys, Function.comp_def]
  obtain ⟨fields', rfl, hfields⟩ := Same.fields hsame (hkeys ▸ t.nodup_keys)
  obtain ⟨filled, hfilled, hwalk⟩ := (fills_shapes h).walkFields hfields
  have hempty : shapesSoFar t [] = .empty := by
    refine Table.eq_of_find? fun key => ?_
    simp [find?_shapesSoFar]
  have hall : shapesSoFar t filled = t := by
    refine Table.eq_of_find? fun key => ?_
    rw [find?_shapesSoFar]
    split
    · rfl
    · rename_i hnew
      rw [hkeys] at hfilled
      exact (Option.eq_none_iff_forall_ne_some.mpr fun s hs =>
        hnew (hfilled key (Table.mem_keys_iff.mpr ⟨s, hs⟩))).symm
  rw [hempty, hall] at hwalk
  exact hwalk

/-- The slots once these keys are read. -/
def slots (g : TracedGraph) (filled : List String) : Slots where
  inputs := kept "inputs" filled g.inputs
  nodes := kept "nodes" filled g.nodes
  outputs := kept "outputs" filled g.outputs
  valueShapes := kept "value_shapes" filled g.valueShapes

theorem fills {g : TracedGraph} (h : g.Writable) :
    Fills Slots.field g.slots [
      ("inputs", .array (g.inputs.map InputDecl.toJson)),
      ("nodes", .array (g.nodes.map Node.toJson)),
      ("outputs", .array (g.outputs.map .string)),
      ("value_shapes",
        .record (g.valueShapes.entries.map fun (name, s) => (name, .ofShape s)))] := by
  refine .cons (fun v filled hsame hnew => ?_) (.cons (fun v filled hsame hnew => ?_)
    (.cons (fun v filled hsame hnew => ?_) (.cons (fun v filled hsame hnew => ?_) .nil)))
  · have hread := settles_list (fun d hd => InputDecl.settles (h.inputs d hd)) v hsame
    simp [Slots.field, slots, fill_kept hnew hread]
  · have hread := settles_list (fun n hn => Node.settles (h.nodes n hn)) v hsame
    simp [Slots.field, slots, fill_kept hnew hread]
  · have hread := settles_list (fun name _ => settles_string name) v hsame
    simp [Slots.field, slots, fill_kept hnew hread]
  · have hread := settles_shapes h.valueShapes v hsame
    simp [Slots.field, slots, fill_kept hnew hread]

theorem settles {g : TracedGraph} (h : g.Writable) : Settles ofJson g.toJson g := by
  intro j hsame
  obtain ⟨filled, hkeys, hwalk⟩ := (fills h).walkRecord hsame (by simp)
  simp only [List.map_cons, List.map_nil, List.forall_mem_cons] at hkeys
  simp only [slots, kept_nil] at hwalk
  simp only [ofJson, hwalk, ok_bind, required_kept hkeys.1, required_kept hkeys.2.1,
    required_kept hkeys.2.2.1, required_kept hkeys.2.2.2.1]
  rfl

end TracedGraph

namespace StatedArtifact

/-- The slots once these keys are read. -/
def slots (s : StatedArtifact) (filled : List String) : Slots where
  version := kept "schema_version" filled s.version
  modelName := kept "model_name" filled s.content.modelName
  graph := kept "graph" filled s.content.graph
  constants := kept "constants" filled s.content.constants
  graphChecksum := kept "graph_hash" filled s.graphChecksum
  sourceChecksum := kept "source_hash" filled s.sourceChecksum

/-- The fields that are written, in their order. -/
def fields (s : StatedArtifact) : List (String × Json) := [
  ("schema_version", .ofNat s.version),
  ("model_name", .string s.content.modelName),
  ("graph", s.content.graph.toJson),
  ("constants", .array (s.content.constants.map FrozenConstant.toJson)),
  ("graph_hash", .string s.graphChecksum),
  ("source_hash", .string s.sourceChecksum)]

theorem fills {s : StatedArtifact} (hversion : s.version < Nat.pow 2 32)
    (h : s.content.Writable) : Fills Slots.field s.slots s.fields := by
  refine .cons (fun v filled hsame hnew => ?_) <| .cons (fun v filled hsame hnew => ?_) <|
    .cons (fun v filled hsame hnew => ?_) <| .cons (fun v filled hsame hnew => ?_) <|
    .cons (fun v filled hsame hnew => ?_) <| .cons (fun v filled hsame hnew => ?_) .nil
  · have hread : asHalfWord v = .ok s.version := settles_bounded hversion v hsame
    simp [Slots.field, slots, fill_kept hnew hread]
  · have hread := settles_string s.content.modelName v hsame
    simp [Slots.field, slots, fill_kept hnew hread]
  · have hread := TracedGraph.settles h.graph v hsame
    simp [Slots.field, slots, fill_kept hnew hread]
  · have hread := settles_list (fun c hc => FrozenConstant.settles (h.constants c hc)) v hsame
    simp [Slots.field, slots, fill_kept hnew hread]
  · have hread := settles_string s.graphChecksum v hsame
    simp [Slots.field, slots, fill_kept hnew hread]
  · have hread := settles_string s.sourceChecksum v hsame
    simp [Slots.field, slots, fill_kept hnew hread]

theorem settles {s : StatedArtifact} (hversion : s.version < Nat.pow 2 32)
    (h : s.content.Writable) : Settles ofJson s.toJson s := by
  intro j hsame
  obtain ⟨filled, hkeys, hwalk⟩ := (fills hversion h).walkRecord hsame (by simp [fields])
  simp only [fields, List.map_cons, List.map_nil, List.forall_mem_cons] at hkeys
  obtain ⟨hversion, hname, hgraph, hconstants, hgraphSum, hsourceSum, -⟩ := hkeys
  simp only [slots, kept_nil] at hwalk
  simp only [ofJson, hwalk, ok_bind, required_kept hversion, required_kept hname,
    required_kept hgraph, required_kept hconstants, required_kept hgraphSum,
    required_kept hsourceSum]
  rfl

end StatedArtifact

namespace Artifact

/-- A text that says what was captured, in whatever words, is read as the artifact that was
captured. Only a text over the size limit is refused. -/
theorem decode_of_words {m : Model} {inputs : List (Tensor Float)} {a : Artifact} {text : String}
    (hcapture : capture m inputs = .ok a) (hwords : a.stated.toJson.Words text)
    (hsize : text.utf8ByteSize ≤ maxBytes) : decode text = .ok a := by
  have hwritable : a.Writable := writable_of_capture hcapture
  obtain ⟨j, hsame, hdocument⟩ := hwords.ofString
  have hread : Json.decode StatedArtifact.ofJson (Document.ofString text) = .ok a.stated := by
    rw [hdocument, Json.decode, StatedArtifact.settles schemaVersion_lt hwritable j hsame]
    rfl
  have hverify : a.stated.verify = .ok a := by simp [StatedArtifact.verify, stated]
  rw [decode, checkSize, if_neg (by omega), ok_bind, hread]
  exact hverify

/-- The fields of an artifact take up the same room from the last to the first. -/
theorem room_reverse (a : Artifact) : (record a.stated.fields.reverse).room 0 = a.room := by
  simp only [room, StatedArtifact.toJson, StatedArtifact.fields, Json.record, Json.room,
    Json.roomFields, stated, graphChecksum, sourceChecksum, TracedGraph.checksum,
    Sha256.length_label, String.length_empty, List.reverse_cons, List.reverse_nil,
    List.nil_append, List.cons_append]
  omega

/-- The keys of a text may come in any order, and on lines of their own. -/
theorem decode_sample_reversed :
    decode (record sample.stated.fields.reverse).prettyText = .ok sample := by
  have hwritable : sample.Writable := writable_of_capture capture_sample
  have hprintable : Printable maxDepth (record sample.stated.fields.reverse) := by
    cases StatedArtifact.printable_toJson (s := sample.stated) schemaVersion_lt hwritable with
    | object hfields => exact .object fun field hfield => hfields field (List.mem_reverse.mp hfield)
  have hsmall : 4 * sample.room ≤ maxBytes := by decide +kernel
  refine decode_of_words capture_sample
    ((words_prettyText hprintable).reorder (List.reverse_perm _).symm) ?_
  exact (utf8ByteSize_prettyText_le hprintable).trans (room_reverse sample ▸ hsmall)

end Artifact

end TensorParity
