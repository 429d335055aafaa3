import TensorParity.Proofs.Artifact.Writable

/-!
Keys that the format does not declare. Reading an artifact refuses them in every object but one:
the objects of nodes may hold keys beside those of their operator, which are passed over. So all
keys of an accepted text are declared exactly when those of its nodes are.
-/
namespace TensorParity

open Json

namespace Json

/-- Keys of an object. -/
def keys : Json → List String
  | .object fields _ => fields.map (·.1)
  | _ => []

/-- The fields that a record gives, by key or by position. -/
def entries (order : List String) : Json → List (String × Json)
  | .object fields _ => fields
  | .array items => order.zip items
  | _ => []

/-- Every field of a record that was read had its step. -/
theorem walkRecord_step {σ : Type} {order : List String} {field : σ → String → Json → Decoded σ}
    {start s : σ} {j : Json} (h : walkRecord order field start j = .ok s) :
    ∀ entry ∈ j.entries order, ∃ before after, field before entry.1 entry.2 = .ok after := by
  cases j with
  | object fields closed =>
    obtain ⟨last, hfold, -⟩ := bind_eq_ok.mp h
    exact foldlM_step hfold
  | array items =>
    obtain ⟨last, hfold, -⟩ := bind_eq_ok.mp h
    exact foldlM_step hfold
  | _ => simp [entries]

end Json

/-- What an object of the format stands for. -/
inductive FormatRole where
  | artifact
  | graph
  | input
  | node
  | params
  | constant
  | tensor
  deriving DecidableEq

namespace FormatRole

/-- Fields of a record in declared order. A node is no record: its fields depend on its operator. -/
def order : FormatRole → List String
  | artifact =>
    ["schema_version", "model_name", "graph", "constants", "graph_hash", "source_hash"]
  | graph => ["inputs", "nodes", "outputs", "value_shapes"]
  | input => ["name", "shape"]
  | node => []
  | params => ["stride", "padding", "dilation", "groups"]
  | constant => ["name", "tensor"]
  | tensor => ["shape", "data"]

/-- Keys that an object may have. Those of a node follow from the operator it names. -/
def declared (role : FormatRole) (j : Json) : List String :=
  match role with
  | node =>
    match Op.kindOf (j.entries []) with
    | .ok kind => "output" :: "op" :: kind.fields
    | .error _ => ["output", "op"]
  | role => role.order

/-- Whether a tree has declared keys alone. -/
def Declares (role : FormatRole) (j : Json) : Prop :=
  ∀ key ∈ j.keys, key ∈ role.declared j

/-- The trees that play a role within an artifact's tree. -/
inductive Plays (root : Json) : FormatRole → Json → Prop where
  | artifact : Plays root .artifact root
  | graph {j v : Json} (hartifact : Plays root .artifact j)
      (hfield : ("graph", v) ∈ j.entries artifact.order) : Plays root .graph v
  | constant {j v : Json} {items : List Json} (hartifact : Plays root .artifact j)
      (hfield : ("constants", .array items) ∈ j.entries artifact.order) (hitem : v ∈ items) :
      Plays root .constant v
  | input {j v : Json} {items : List Json} (hgraph : Plays root .graph j)
      (hfield : ("inputs", .array items) ∈ j.entries graph.order) (hitem : v ∈ items) :
      Plays root .input v
  | node {j v : Json} {items : List Json} (hgraph : Plays root .graph j)
      (hfield : ("nodes", .array items) ∈ j.entries graph.order) (hitem : v ∈ items) :
      Plays root .node v
  | params {j v : Json} (hnode : Plays root .node j) (hdeclared : "params" ∈ node.declared j)
      (hfield : ("params", v) ∈ j.entries []) : Plays root .params v
  | tensor {j v : Json} (hconstant : Plays root .constant j)
      (hfield : ("tensor", v) ∈ j.entries constant.order) : Plays root .tensor v

/-- Whether the reader of a role accepts a tree. -/
def Reads : FormatRole → Json → Prop
  | artifact, j => ∃ s, StatedArtifact.ofJson j = .ok s
  | graph, j => ∃ g, TracedGraph.ofJson j = .ok g
  | input, j => ∃ d, InputDecl.ofJson j = .ok d
  | node, j => ∃ n, Node.ofJson j = .ok n
  | params, j => ∃ p, ConvParams.ofJson j = .ok p
  | constant, j => ∃ c, FrozenConstant.ofJson j = .ok c
  | tensor, j => ∃ t, Tensor.ofJson j = .ok t

/-- A record whose fields are checked one by one has declared keys alone. -/
theorem keys_of_walkRecord {σ : Type} {order : List String}
    {field : σ → String → Json → Decoded σ} {start s : σ} {j : Json}
    (hfield : ∀ {s s' name value}, field s name value = .ok s' → name ∈ order)
    (h : walkRecord order field start j = .ok s) : ∀ key ∈ j.keys, key ∈ order := by
  intro key hkey
  cases j with
  | object fields closed =>
    obtain ⟨entry, hentry, rfl⟩ := List.mem_map.mp hkey
    obtain ⟨_, _, hstep⟩ := walkRecord_step h entry hentry
    exact hfield hstep
  | _ => simp [keys] at hkey

/-- Items of a list that was read were read one by one. -/
theorem reads_item {α : Type} {read : Json → Decoded α} {items : List Json} {result : List α}
    (h : asList read (.array items) = .ok result) : ∀ v ∈ items, ∃ a, read v = .ok a :=
  mapM_step h

theorem artifact_field {s s' : StatedArtifact.Slots} {name : String} {value : Json}
    (h : s.field name value = .ok s') :
    name ∈ artifact.order ∧ (name = "graph" → graph.Reads value) ∧
      ∀ items, name = "constants" → value = .array items → ∀ v ∈ items, constant.Reads v := by
  unfold StatedArtifact.Slots.field at h
  split at h
  case h_3 =>
    obtain ⟨g, hread, -⟩ := fill_step h
    exact ⟨by simp [order], fun _ => ⟨g, hread⟩, by simp⟩
  case h_4 =>
    obtain ⟨constants, hread, -⟩ := fill_step h
    refine ⟨by simp [order], by simp, ?_⟩
    rintro items - rfl
    exact reads_item hread
  case h_7 => exact absurd h throw_ne_ok
  all_goals simp [order]

theorem graph_field {s s' : TracedGraph.Slots} {name : String} {value : Json}
    (h : s.field name value = .ok s') :
    name ∈ graph.order ∧
      (∀ items, name = "inputs" → value = .array items → ∀ v ∈ items, input.Reads v) ∧
      ∀ items, name = "nodes" → value = .array items → ∀ v ∈ items, node.Reads v := by
  unfold TracedGraph.Slots.field at h
  split at h
  · obtain ⟨inputs, hread, -⟩ := fill_step h
    refine ⟨by simp [order], ?_, by simp⟩
    rintro items - rfl
    exact reads_item hread
  · obtain ⟨nodes, hread, -⟩ := fill_step h
    refine ⟨by simp [order], by simp, ?_⟩
    rintro items - rfl
    exact reads_item hread
  · simp [order]
  · simp [order]
  · exact absurd h throw_ne_ok

theorem constant_field {s s' : FrozenConstant.Slots} {name : String} {value : Json}
    (h : s.field name value = .ok s') :
    name ∈ constant.order ∧ (name = "tensor" → tensor.Reads value) := by
  unfold FrozenConstant.Slots.field at h
  split at h
  · simp [order]
  · obtain ⟨t, hread, -⟩ := fill_step h
    exact ⟨by simp [order], fun _ => ⟨t, hread⟩⟩
  · exact absurd h throw_ne_ok

theorem input_field {s s' : InputDecl.Slots} {name : String} {value : Json}
    (h : s.field name value = .ok s') : name ∈ input.order := by
  unfold InputDecl.Slots.field at h
  split at h
  · simp [order]
  · simp [order]
  · exact absurd h throw_ne_ok

theorem params_field {s s' : ConvParams.Slots} {name : String} {value : Json}
    (h : s.field name value = .ok s') : name ∈ params.order := by
  unfold ConvParams.Slots.field at h
  split at h
  case h_5 => exact absurd h throw_ne_ok
  all_goals simp [order]

theorem tensor_field {s s' : Tensor.Slots} {name : String} {value : Json}
    (h : s.field name value = .ok s') : name ∈ tensor.order := by
  unfold Tensor.Slots.field at h
  split at h
  · simp [order]
  · simp [order]
  · exact absurd h throw_ne_ok

/-- What a reader of a record accepts has declared keys alone. -/
theorem declares_of_reads {role : FormatRole} {j : Json} (hrecord : role ≠ node)
    (h : role.Reads j) : role.Declares j := by
  cases role with
  | node => exact absurd rfl hrecord
  | artifact =>
    obtain ⟨_, h⟩ := h
    obtain ⟨_, hwalk, -⟩ := bind_eq_ok.mp h
    exact keys_of_walkRecord (fun hfield => (artifact_field hfield).1) hwalk
  | graph =>
    obtain ⟨_, h⟩ := h
    obtain ⟨_, hwalk, -⟩ := bind_eq_ok.mp h
    exact keys_of_walkRecord (fun hfield => (graph_field hfield).1) hwalk
  | input =>
    obtain ⟨_, h⟩ := h
    obtain ⟨_, hwalk, -⟩ := bind_eq_ok.mp h
    exact keys_of_walkRecord input_field hwalk
  | params =>
    obtain ⟨_, h⟩ := h
    obtain ⟨_, hwalk, -⟩ := bind_eq_ok.mp h
    exact keys_of_walkRecord params_field hwalk
  | constant =>
    obtain ⟨_, h⟩ := h
    obtain ⟨_, hwalk, -⟩ := bind_eq_ok.mp h
    exact keys_of_walkRecord (fun hfield => (constant_field hfield).1) hwalk
  | tensor =>
    obtain ⟨_, h⟩ := h
    obtain ⟨_, hwalk, -⟩ := bind_eq_ok.mp h
    exact keys_of_walkRecord tensor_field hwalk

/-- The output that fields give, if it is given once. -/
def outputOf (fields : List (String × Json)) (output : Option String) : Decoded (Option String) :=
  fields.foldlM (fun output (name, value) =>
    if name = "output" then fill name output asString value else return output) output

/-- A walk over a node reads its output and keeps every other field for the operator, in order. -/
theorem foldlM_node {fields : List (String × Json)}
    (h : ∀ entry ∈ fields, entry.1 ≠ "output" → entry.2.wellFormed = true) (s : Node.Slots) :
    fields.foldlM (fun s (name, value) => s.field name value) s =
      (do
        let output ← outputOf fields s.output
        return ⟨output, (fields.filter (·.1 ≠ "output")).reverse ++ s.others⟩ : Decoded _) := by
  induction fields generalizing s with
  | nil => rfl
  | cons entry fields ih =>
    obtain ⟨name, value⟩ := entry
    have hrest := ih fun entry hentry => h entry (by simp [hentry])
    have houtput : outputOf ((name, value) :: fields) s.output =
        (if name = "output" then fill name s.output asString value else return s.output) >>=
          outputOf fields := List.foldlM_cons
    rw [List.foldlM_cons, houtput]
    by_cases hname : name = "output"
    · have hstep : s.field name value =
          (do return { s with output := ← fill name s.output asString value }) := if_pos hname
      simp only [hstep, if_pos hname]
      cases fill name s.output asString value with
      | error fault => rfl
      | ok output => exact (hrest { s with output }).trans (by simp [hname])
    · have hstep : s.field name value = .ok { s with others := (name, value) :: s.others } := by
        rw [Node.Slots.field, if_neg hname, if_pos (h (name, value) (by simp) hname)]
        rfl
      simp only [hstep, if_neg hname]
      exact (hrest { s with others := (name, value) :: s.others }).trans (by simp [hname])

theorem wellFormed_of_node {fields : List (String × Json)} {s s' : Node.Slots}
    (h : fields.foldlM (fun s (name, value) => s.field name value) s = (.ok s' : Decoded _)) :
    ∀ entry ∈ fields, entry.1 ≠ "output" → entry.2.wellFormed = true := by
  intro entry hentry hname
  obtain ⟨_, _, hstep⟩ := foldlM_step h entry hentry
  simp only [Node.Slots.field, if_neg hname] at hstep
  split at hstep
  · assumption
  · exact absurd hstep throw_ne_ok

/-- The output says nothing about the operator. -/
theorem kindOf_filter {keep : String × Json → Bool} (hkeep : ∀ v, keep ("op", v) = true)
    (fields : List (String × Json)) : Op.kindOf (fields.filter keep) = Op.kindOf fields := by
  rw [Op.kindOf, Op.kindOf, List.foldlM_filter]
  congr 2
  funext kind entry
  obtain ⟨name, value⟩ := entry
  by_cases hname : name = "op"
  · subst hname
    rw [hkeep, if_pos rfl]
  · simp [hname]

theorem outputOf_filter {keep : String × Json → Bool} (hkeep : ∀ v, keep ("output", v) = true)
    (fields : List (String × Json)) (output : Option String) :
    outputOf (fields.filter keep) output = outputOf fields output := by
  rw [outputOf, outputOf, List.foldlM_filter]
  congr 1
  funext output entry
  obtain ⟨name, value⟩ := entry
  by_cases hname : name = "output"
  · subst hname
    rw [hkeep, if_pos rfl]
  · simp [hname]

theorem ofFields_filter {keep : String × Json → Bool} (hop : ∀ v, keep ("op", v) = true)
    {fields : List (String × Json)}
    (hkeep : ∀ kind, Op.kindOf fields = .ok kind →
      ∀ name v, name ∈ kind.fields → keep (name, v) = true) :
    Op.ofFields (fields.filter keep) = Op.ofFields fields := by
  rw [Op.ofFields, Op.ofFields, kindOf_filter hop]
  cases hkind : Op.kindOf fields with
  | error fault => rfl
  | ok kind =>
    rw [ok_bind, ok_bind, List.foldlM_filter]
    congr 2
    funext s entry
    obtain ⟨name, value⟩ := entry
    by_cases hname : name ∈ kind.fields
    · rw [hkeep kind hkind name value hname, if_pos rfl]
    · simp [Op.Slots.field, hname]

/-- Well-formed fields that a node does not declare are passed over: the node is the same without
them. -/
theorem ofJson_filter_declared {fields : List (String × Json)} {closed : Bool}
    (hformed : ∀ entry ∈ fields, entry.2.wellFormed = true) :
    Node.ofJson (.object (fields.filter (·.1 ∈ node.declared (.object fields closed))) closed) =
      Node.ofJson (.object fields closed) := by
  have hoperator : Op.kindOf (fields.filter (·.1 ≠ "output")) = Op.kindOf fields :=
    kindOf_filter (by simp) fields
  have hcommon : "output" ∈ node.declared (.object fields closed) ∧
      "op" ∈ node.declared (.object fields closed) := by
    unfold declared
    dsimp only
    split <;> simp
  have houtput : outputOf (fields.filter (·.1 ∈ node.declared (.object fields closed))) none =
      outputOf fields none :=
    outputOf_filter (fun _ => by simpa using hcommon.1) fields none
  have hop : Op.ofFields ((fields.filter (·.1 ∈ node.declared (.object fields closed))).filter
      (·.1 ≠ "output")) = Op.ofFields (fields.filter (·.1 ≠ "output")) := by
    rw [List.filter_comm]
    refine ofFields_filter (fun _ => by simpa using hcommon.2) fun kind hkind name _ hname => ?_
    rw [hoperator] at hkind
    simp [declared, entries, hkind, hname]
  rw [Node.ofJson, Node.ofJson, walkFields, walkFields,
    foldlM_node fun entry hentry _ => hformed entry (List.mem_of_mem_filter hentry),
    foldlM_node fun entry hentry _ => hformed entry hentry, houtput]
  cases outputOf fields none with
  | error fault => rfl
  | ok output =>
    cases closed with
    | false => rfl
    | true =>
      simp only [ok_bind, List.append_nil, List.reverse_reverse, hop, if_true, pure, Except.pure]

/-- A node that was walked keeps its fields beside the output, in order. -/
theorem others_of_walkFields {fields : List (String × Json)} {closed : Bool} {s : Node.Slots}
    (h : walkFields Node.Slots.field {} fields closed = .ok s) :
    s.others.reverse = fields.filter (·.1 ≠ "output") := by
  obtain ⟨last, hlast, hclosed⟩ := bind_eq_ok.mp h
  obtain rfl : last = s := by
    split at hclosed
    · exact Except.ok.inj hclosed
    · exact absurd hclosed throw_ne_ok
  rw [foldlM_node (wellFormed_of_node hlast)] at hlast
  obtain ⟨output, -, hslots⟩ := bind_eq_ok.mp hlast
  obtain rfl := Except.ok.inj hslots
  rw [List.append_nil, List.reverse_reverse]

theorem params_of_node {j v : Json} (h : node.Reads j) (hdeclared : "params" ∈ node.declared j)
    (hfield : ("params", v) ∈ j.entries []) : params.Reads v := by
  obtain ⟨n, h⟩ := h
  cases j with
  | object fields closed =>
    obtain ⟨s, hwalk, h⟩ := bind_eq_ok.mp h
    obtain ⟨_, -, h⟩ := bind_eq_ok.mp h
    obtain ⟨op, hop, -⟩ := bind_eq_ok.mp h
    rw [others_of_walkFields hwalk] at hop
    obtain ⟨kind, hkind, hop⟩ := bind_eq_ok.mp hop
    obtain ⟨slots, hfold, -⟩ := bind_eq_ok.mp hop
    rw [kindOf_filter (by simp)] at hkind
    have hparams : "params" ∈ kind.fields := by
      simpa [declared, entries, hkind] using hdeclared
    obtain ⟨before, after, hstep⟩ := foldlM_step hfold ("params", v)
      (List.mem_filter.mpr ⟨hfield, by simp⟩)
    simp only [Op.Slots.field, if_pos hparams] at hstep
    obtain ⟨p, hread, -⟩ := fill_step hstep
    exact ⟨p, hread⟩
  | _ => simp [entries] at hfield

/-- Whatever plays a role in a tree that is read was read by the reader of the role. -/
theorem reads_of_plays {root j : Json} {role : FormatRole} (hroot : artifact.Reads root)
    (h : Plays root role j) : role.Reads j := by
  induction h with
  | artifact => exact hroot
  | graph _ hfield ih =>
    obtain ⟨_, h⟩ := ih
    obtain ⟨_, hwalk, -⟩ := bind_eq_ok.mp h
    obtain ⟨_, _, hstep⟩ := walkRecord_step hwalk _ hfield
    exact (artifact_field hstep).2.1 rfl
  | constant _ hfield hitem ih =>
    obtain ⟨_, h⟩ := ih
    obtain ⟨_, hwalk, -⟩ := bind_eq_ok.mp h
    obtain ⟨_, _, hstep⟩ := walkRecord_step hwalk _ hfield
    exact (artifact_field hstep).2.2 _ rfl rfl _ hitem
  | input _ hfield hitem ih =>
    obtain ⟨_, h⟩ := ih
    obtain ⟨_, hwalk, -⟩ := bind_eq_ok.mp h
    obtain ⟨_, _, hstep⟩ := walkRecord_step hwalk _ hfield
    exact (graph_field hstep).2.1 _ rfl rfl _ hitem
  | node _ hfield hitem ih =>
    obtain ⟨_, h⟩ := ih
    obtain ⟨_, hwalk, -⟩ := bind_eq_ok.mp h
    obtain ⟨_, _, hstep⟩ := walkRecord_step hwalk _ hfield
    exact (graph_field hstep).2.2 _ rfl rfl _ hitem
  | params _ hdeclared hfield ih => exact params_of_node ih hdeclared hfield
  | tensor _ hfield ih =>
    obtain ⟨_, h⟩ := ih
    obtain ⟨_, hwalk, -⟩ := bind_eq_ok.mp h
    obtain ⟨_, _, hstep⟩ := walkRecord_step hwalk _ hfield
    exact (constant_field hstep).2 rfl

end FormatRole

namespace Artifact

open FormatRole

/-- Reading is closed but for nodes: the keys of an accepted text are declared, wherever they stand,
exactly if those of its nodes are. -/
theorem declares_iff_nodes {text : String} {a : Artifact} (h : decode text = .ok a) :
    (∀ role j, Plays (Document.ofString text).root role j → role.Declares j) ↔
      ∀ j, Plays (Document.ofString text).root .node j → node.Declares j := by
  obtain ⟨s, hread, -⟩ := decode_eq_ok h
  obtain ⟨s', hroot, -⟩ := bind_eq_ok.mp hread
  refine ⟨fun hall j hj => hall .node j hj, fun hnodes role j hplays => ?_⟩
  by_cases hnode : role = .node
  · subst hnode
    exact hnodes j hplays
  · exact declares_of_reads hnode (reads_of_plays ⟨s', hroot⟩ hplays)

/-- A node with a key that no operator has. -/
def looseNode : Json :=
  .record [("output", .string "y"), ("op", .string "sigmoid"), ("input", .string "x"),
    ("debug", .bool true)]

def looseGraph : Json :=
  .record [("inputs", .array []), ("nodes", .array [looseNode]), ("outputs", .array [.string "y"]),
    ("value_shapes", .record [])]

/-- The artifact without the key. -/
def tight : Artifact := ⟨"m", ⟨[], [⟨"y", .sigmoid "x"⟩], ["y"], .empty⟩, []⟩

/-- The artifact's text with the key in it. -/
def looseTree (graphSum sourceSum : String) : Json :=
  .record [("schema_version", .ofNat 1), ("model_name", .string "m"), ("graph", looseGraph),
    ("constants", .array []), ("graph_hash", .string graphSum), ("source_hash", .string sourceSum)]

theorem printable_looseTree (graphSum sourceSum : String) :
    Printable maxDepth (looseTree graphSum sourceSum) := by
  have hnode : Printable 1 looseNode := .object (by simp [Printable.string, Printable.bool])
  have hgraph : Printable 3 looseGraph := by
    refine .object ?_
    simp only [List.forall_mem_cons, List.not_mem_nil, false_implies, implies_true, and_true]
    exact ⟨.array (by simp), .array (by simpa using hnode), .array (by simp [Printable.string]),
      .object (by simp)⟩
  refine printable_mono (show Printable 4 _ from .object ?_) (by decide)
  simp only [List.forall_mem_cons, List.not_mem_nil, false_implies, implies_true, and_true]
  exact ⟨printable_ofNat (by decide), .string _, hgraph, .array (by simp), .string _, .string _⟩

theorem decode_looseTree :
    decode (looseTree tight.graphChecksum tight.sourceChecksum).text = .ok tight := by
  have hgraph : TracedGraph.ofJson looseGraph = .ok tight.graph := by decide +kernel
  -- the checksums stay closed: only their lengths count
  have hsize (a b : String) (ha : a.length = 71) (hb : b.length = 71) :
      4 * (looseTree a b).room 0 ≤ maxBytes := by
    have hblank : 4 * ((looseTree "" "").room 0 + 6 * 71 + 6 * 71) ≤ maxBytes := by decide +kernel
    have hroom : (looseTree a b).room 0 =
        (looseTree "" "").room 0 + 6 * a.length + 6 * b.length := by
      simp only [looseTree, Json.record, Json.room, Json.roomFields, String.length_empty]
      omega
    rwa [hroom, ha, hb]
  have hread : StatedArtifact.ofJson (looseTree tight.graphChecksum tight.sourceChecksum) =
      .ok tight.stated := by
    simp [StatedArtifact.ofJson, looseTree, Json.record, walkRecord, walkFields,
      StatedArtifact.Slots.field, fill, required, asString, hgraph]
    rfl
  exact decode_text (printable_looseTree _ _)
    ((Json.utf8ByteSize_text_le (printable_looseTree _ _)).trans
      (hsize _ _ (Sha256.length_label _) (Sha256.length_label _))) hread
    (by simp [StatedArtifact.verify, stated])

/-- The node plays its part in the tree that the text spells. -/
theorem plays_looseNode :
    Plays (Document.ofString (looseTree tight.graphChecksum tight.sourceChecksum).text).root .node
      looseNode := by
  rw [Document.ofString_text (printable_looseTree _ _)]
  have hgraph : Plays (looseTree tight.graphChecksum tight.sourceChecksum) .graph looseGraph :=
    .graph .artifact (by simp [looseTree, Json.record, entries])
  have hnodes : ("nodes", .array [looseNode]) ∈ looseGraph.entries FormatRole.graph.order := by
    simp [looseGraph, Json.record, entries]
  exact .node hgraph hnodes (List.mem_singleton_self _)

theorem not_declares_looseNode : ¬ node.Declares looseNode := by
  intro h
  exact absurd (h "debug" (by decide)) (by decide)

/-- The accepted text has a key that is not declared. -/
theorem not_declares_looseTree :
    ¬ ∀ role j, Plays (Document.ofString
      (looseTree tight.graphChecksum tight.sourceChecksum).text).root role j → role.Declares j := by
  intro hall
  exact not_declares_looseNode
    ((declares_iff_nodes decode_looseTree).mp hall looseNode plays_looseNode)

/-- A text is accepted although the object of a node has a key that is not declared. -/
theorem decode_undeclared :
    decode (looseTree tight.graphChecksum tight.sourceChecksum).text = .ok tight ∧
      Plays (Document.ofString
        (looseTree tight.graphChecksum tight.sourceChecksum).text).root .node looseNode ∧
      "debug" ∈ looseNode.keys ∧ "debug" ∉ node.declared looseNode :=
  ⟨decode_looseTree, plays_looseNode, by decide, by decide⟩

end Artifact

end TensorParity
