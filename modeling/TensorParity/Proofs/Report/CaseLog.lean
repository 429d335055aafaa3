import TensorParity.Json.Basic
import TensorParity.Proofs.Json.Decode
import TensorParity.Proofs.Json.Printed
import TensorParity.Proofs.Record.RoundTrip
import TensorParity.Proofs.Table
import TensorParity.Report.CaseLog

/-!
Log entries as text. Sorting keeps what a tree needs to be read back, and sorts a tree once and for
all. An extra field stands under its own key, which is none of the envelope, so the object of an
entry has each key once and an entry is read back from its line.
-/
namespace TensorParity

namespace Json

variable {depth : Nat} {j : Json}

theorem sortedItems_eq_map (items : List Json) : sortedItems items = items.map sorted := by
  induction items with
  | nil => rfl
  | cons item rest ih => rw [sortedItems, ih, List.map_cons]

@[simp]
theorem sorted_array (items : List Json) : sorted (.array items) = .array (items.map sorted) := by
  rw [sorted, sortedItems_eq_map]

theorem sortedFields_eq_entries (t : Table Json) (fields : List (String × Json)) :
    sortedFields t.entries fields =
      (fields.foldl (fun t field => t.insert field.1 field.2.sorted) t).entries := by
  induction fields generalizing t with
  | nil => rfl
  | cons field rest ih =>
    rw [sortedFields, List.foldl_cons, ← ih]
    rfl

/-- The fields of a sorted object are the table of its sorted values. -/
theorem sorted_object (fields : List (String × Json)) (closed : Bool) :
    sorted (.object fields closed) =
      .object
        (Table.ofList (fields.map fun field => (field.1, field.2.sorted))).entries closed := by
  rw [sorted, Table.ofList, List.foldl_map]
  exact congrArg (Json.object · closed) (sortedFields_eq_entries .empty fields)

theorem mem_sortedFields {fields : List (String × Json)} {field : String × Json}
    (h : field ∈ (Table.ofList (fields.map fun field => (field.1, field.2.sorted))).entries) :
    ∃ original ∈ fields, field = (original.1, original.2.sorted) := by
  obtain ⟨original, horiginal, rfl⟩ := List.mem_map.mp (Table.mem_ofList h)
  exact ⟨original, horiginal, rfl⟩

theorem printable_sorted (h : Printable depth j) : Printable depth j.sorted := by
  induction h with
  | null => exact .null
  | bool b => exact .bool b
  | number hreadable => exact .number hreadable
  | string s => exact .string s
  | array hitems ih =>
    rw [sorted_array]
    exact printable_map ih
  | object hfields ih =>
    rw [sorted_object]
    refine .object fun field hfield => ?_
    obtain ⟨original, horiginal, rfl⟩ := mem_sortedFields hfield
    exact ih original horiginal

/-- A sorted tree is sorted already. -/
theorem sorted_sorted (h : Printable depth j) : j.sorted.sorted = j.sorted := by
  induction h with
  | null | bool | number | string => rfl
  | array hitems ih =>
    rw [sorted_array, sorted_array, List.map_map]
    exact congrArg Json.array (List.map_congr_left ih)
  | @object depth fields hfields ih =>
    rw [sorted_object, sorted_object]
    -- the values are sorted, and a table is built again from its entries
    have hvalues : ∀ field ∈ (Table.ofList (fields.map fun field =>
        (field.1, field.2.sorted))).entries, (field.1, field.2.sorted) = field := by
      intro field hfield
      obtain ⟨original, horiginal, rfl⟩ := mem_sortedFields hfield
      rw [ih original horiginal]
    rw [List.map_congr_left hvalues, List.map_id', Table.ofList_entries]

end Json

namespace CaseLog

variable {log : CaseLog} {fields : List (String × Json)} {key : String}

theorem extra_withExtra (log : CaseLog) (fields : List (String × Json)) :
    (log.withExtra fields).extra =
      (fields.filter (·.1 ∉ envelopeKeys)).foldl (fun t field => t.insert field.1 field.2.sorted)
        log.extra := by
  rw [List.foldl_filter]
  unfold withExtra
  dsimp only
  congr 1
  funext t field
  by_cases hkey : field.1 ∈ envelopeKeys <;> simp [hkey]

/-- An entry whose line can be read: its numbers are words, and its extra fields are sorted trees of
less than the depth that readers allow, under keys of their own. -/
structure Readable (log : CaseLog) : Prop where
  timestamp : log.timestampMillis < Shape.wordLimit
  seed : log.seed < Shape.wordLimit
  duration : log.durationMillis < Shape.wordLimit
  keys : ∀ field ∈ log.extra.entries, field.1 ∉ envelopeKeys
  values : ∀ field ∈ log.extra.entries,
    Json.Printable (Json.maxDepth - 1) field.2 ∧ field.2.sorted = field.2

theorem Readable.withDuration (h : log.Readable) (millis : UInt64) :
    (log.withDuration millis).Readable :=
  { h with duration := millis.toNat_lt }

theorem mem_extra_withExtra {field : String × Json}
    (h : field ∈ (log.withExtra fields).extra.entries) :
    field ∈ log.extra.entries ∨
      ∃ given ∈ fields, given.1 ∉ envelopeKeys ∧ field = (given.1, given.2.sorted) := by
  have hmap : (log.withExtra fields).extra =
      ((fields.filter (·.1 ∉ envelopeKeys)).map fun field => (field.1, field.2.sorted)).foldl
        (fun t field => t.insert field.1 field.2) log.extra := by
    rw [extra_withExtra, List.foldl_map]
  rw [hmap] at h
  rcases Table.mem_foldl_insert h with hmem | hmem
  · exact .inl hmem
  · obtain ⟨given, hgiven, rfl⟩ := List.mem_map.mp hmem
    obtain ⟨hgiven, hkey⟩ := List.mem_filter.mp hgiven
    exact .inr ⟨given, hgiven, by simpa using hkey, rfl⟩

theorem Readable.withExtra (h : log.Readable)
    (hfields : ∀ field ∈ fields, Json.Printable (Json.maxDepth - 1) field.2) :
    (log.withExtra fields).Readable := by
  refine ⟨h.timestamp, h.seed, h.duration, ?_, ?_⟩
  · intro field hfield
    rcases mem_extra_withExtra hfield with hmem | ⟨given, -, hkey, rfl⟩
    · exact h.keys field hmem
    · exact hkey
  · intro field hfield
    rcases mem_extra_withExtra hfield with hmem | ⟨given, hgiven, -, rfl⟩
    · exact h.values field hmem
    · have hvalue := hfields given hgiven
      exact ⟨Json.printable_sorted hvalue, Json.sorted_sorted hvalue⟩

/-- The fields of every entry, in their order. -/
def envelope (log : CaseLog) : List (String × Json) := [
  ("schema_version", .string log.schemaVersion),
  ("ts_unix_ms", .ofNat log.timestampMillis),
  ("suite_id", .string log.suite),
  ("scenario_id", .string log.scenario),
  ("case_name", .string log.caseName),
  ("family", .string log.family),
  ("backend", .string log.backend),
  ("seed", .ofNat log.seed),
  ("env_fingerprint", .string log.environment),
  ("artifact_refs", .array (log.artifactRefs.map .string)),
  ("replay_command", .string log.replayCommand),
  ("duration_ms", .ofNat log.durationMillis),
  ("outcome", .string log.outcome),
  ("reason_code", .string log.reasonCode)]

/-- The keys of the envelope are among those that no extra field may have. -/
theorem keys_envelope (log : CaseLog) :
    log.envelope.map (·.1) = envelopeKeys.dropLast := rfl

theorem Readable.nodup_keys (h : log.Readable) :
    ((log.envelope ++ log.extra.entries).map (·.1)).Nodup := by
  rw [List.map_append, keys_envelope, List.nodup_append]
  refine ⟨by decide, log.extra.nodup_keys, ?_⟩
  intro key hkey other hother
  obtain ⟨field, hfield, rfl⟩ := List.mem_map.mp hother
  rintro rfl
  exact h.keys field hfield (List.dropLast_subset _ hkey)

open Json

theorem Readable.printable_fields (h : log.Readable) :
    ∀ field ∈ log.envelope ++ log.extra.entries, Printable (maxDepth - 1) field.2 := by
  have hlist : Printable 1 (.array (log.artifactRefs.map .string)) :=
    printable_map fun ref _ => .string ref
  have hrefs := printable_mono hlist (show 1 ≤ maxDepth - 1 by decide)
  have henvelope : ∀ field ∈ log.envelope, Printable (maxDepth - 1) field.2 := by
    simp only [envelope, List.forall_mem_cons, List.not_mem_nil, false_implies, implies_true,
      and_true, Printable.string, printable_ofNat h.timestamp, printable_ofNat h.seed,
      printable_ofNat h.duration, hrefs]
  rw [List.forall_mem_append]
  exact ⟨henvelope, fun field hfield => (h.values field hfield).1⟩

theorem Readable.printable_toJson (h : log.Readable) : Printable maxDepth log.toJson :=
  .object h.printable_fields

/-- Entries made from a first one by timing it and adding extra fields, in any order and any number
of times. The last time counts. -/
inductive Built (first : CaseLog) : (millis : Nat) → CaseLog → Prop
  | made : Built first first.durationMillis first
  | timed {millis : Nat} {log : CaseLog} (h : Built first millis log) (measured : UInt64) :
      Built first measured.toNat (log.withDuration measured)
  | extended {millis : Nat} {log : CaseLog} (h : Built first millis log)
      {fields : List (String × Json)}
      (hfields : ∀ field ∈ fields, Printable (maxDepth - 1) field.2) :
      Built first millis (log.withExtra fields)

theorem Built.readable {first : CaseLog} {millis : Nat} (h : Built first millis log)
    (hfirst : first.Readable) : log.Readable := by
  induction h with
  | made => exact hfirst
  | timed _ measured ih => exact ih.withDuration measured
  | extended _ hfields ih => exact ih.withExtra hfields

end CaseLog

end TensorParity
