import TensorParity.Proofs.Artifact.UnknownField
import TensorParity.Proofs.Digest.Bytes
import TensorParity.Proofs.Text.Bounded

/-!
How long a refusal is. What a refused reading says about the text is cut to a fixed size, and the
checksum that is expected has one size. The name of an unknown field and a checksum that the text
states are shown whole, however long they are, so exactly these can make a refusal long.
-/
namespace TensorParity

open Json

namespace Text

theorem utf8ByteSize_bounded_le (limit : Nat) (s : String) :
    (bounded limit s).utf8ByteSize ≤ limit + 3 := by
  by_cases hfits : s.utf8ByteSize ≤ limit
  · rw [bounded_of_le hfits]
    exact hfits.trans (Nat.le_add_right limit 3)
  · have hdots : "...".utf8ByteSize = 3 := rfl
    rw [bounded_of_lt (Nat.lt_of_not_le hfits), String.utf8ByteSize_append, hdots]
    exact Nat.add_le_add_right (size_upTo_le s limit) 3

/-- Characters of one byte each. -/
theorem utf8Len_of_ascii {cs : List Char} (h : ∀ c ∈ cs, c.utf8Size = 1) :
    String.utf8Len cs = cs.length := by
  induction cs with
  | nil => rfl
  | cons c cs ih =>
    rw [String.utf8Len_cons, ih fun c hc => h c (by simp [hc]), h c (by simp), List.length_cons]

theorem utf8ByteSize_toString_le {n digits : Nat} (hdigits : 0 < digits) (h : n < 10 ^ digits) :
    (toString n).utf8ByteSize ≤ digits := by
  have hascii : ∀ c ∈ Nat.toDigits 10 n, c.utf8Size = 1 := by
    intro c hc
    have hdigit := Nat.isDigit_of_mem_toDigits (by omega) (by omega) hc
    rw [Char.isDigit, Bool.and_eq_true, decide_eq_true_iff, decide_eq_true_iff] at hdigit
    rw [Char.utf8Size_eq_one_iff]
    exact UInt32.le_trans hdigit.2 (by decide)
  have hlength := Nat.toDigits_length 10 n digits hdigits h
  rw [Nat.toString_eq_repr, Nat.repr, String.utf8ByteSize_ofList, utf8Len_of_ascii hascii]
  exact hlength

end Text

/-- A digest's label has as many bytes as characters. -/
theorem Sha256.utf8ByteSize_label (message : List UInt8) : (label message).utf8ByteSize = 71 := by
  have hdigit : ∀ i : Fin 16, (Nat.digitChar i).utf8Size = 1 := by decide
  have hhex : ∀ c ∈ (hexText (bytes message)).toList, c.utf8Size = 1 := by
    intro c hc
    rw [hexText, String.toList_ofList, List.mem_flatMap] at hc
    obtain ⟨b, -, hc⟩ := hc
    have hb := b.toNat_lt
    rcases List.mem_pair.mp hc with rfl | rfl
    · exact hdigit ⟨b.toNat / 16, by omega⟩
    · exact hdigit ⟨b.toNat % 16, by omega⟩
  have hlength := length_label message
  have htag : "sha256:".length = 7 ∧ "sha256:".utf8ByteSize = 7 := ⟨rfl, rfl⟩
  rw [label, String.length_append, htag.1, ← String.length_toList] at hlength
  rw [label, String.utf8ByteSize_append, htag.2, ← String.ofList_toList (s := hexText _),
    String.utf8ByteSize_ofList, Text.utf8Len_of_ascii hhex, hlength]

/-- A version that a text states is half a word. -/
theorem StatedArtifact.version_lt_of_ofJson {j : Json} {s : StatedArtifact} (hj : Readable j)
    (h : ofJson j = .ok s) : s.version < Nat.pow 2 32 := by
  obtain ⟨slots, hwalk, h⟩ := bind_eq_ok.mp h
  obtain ⟨version, hversion, h⟩ := bind_eq_ok.mp h
  obtain ⟨_, -, h⟩ := bind_eq_ok.mp h
  obtain ⟨_, -, h⟩ := bind_eq_ok.mp h
  obtain ⟨_, -, h⟩ := bind_eq_ok.mp h
  obtain ⟨_, -, h⟩ := bind_eq_ok.mp h
  obtain ⟨_, -, h⟩ := bind_eq_ok.mp h
  obtain rfl := Except.ok.inj h
  refine walkRecord_invariant (fun s => ∀ version, s.version = some version →
    version < Nat.pow 2 32) hj (by simp) (fun s name value s' hvalue hs hfield => ?_) hwalk version
    (required_eq_ok.mp hversion)
  unfold Slots.field at hfield
  split at hfield
  case h_1 =>
    obtain ⟨version, hread, rfl⟩ := fill_step hfield
    rintro _ ⟨⟩
    exact asBelow_val hread
  case h_7 => exact absurd hfield throw_ne_ok
  all_goals
    obtain ⟨_, -, rfl⟩ := fill_step hfield
    exact hs

namespace Artifact

open Fault FormatRole

variable {text : String} {e : ArtifactError}

/-- What the text of an artifact states, before it is checked. -/
def readStated (text : String) : Decoded StatedArtifact :=
  Json.decode StatedArtifact.ofJson (Document.ofString text)

/-- Why a text is refused. -/
inductive Refused (text : String) : ArtifactError → Prop where
  | tooLarge (hsize : maxBytes < text.utf8ByteSize) :
      Refused text (.tooLarge text.utf8ByteSize maxBytes)
  | malformed {fault : Fault} (hsize : text.utf8ByteSize ≤ maxBytes)
      (hread : readStated text = .error fault) (hsilent : Silent fault) :
      Refused text (.malformed (Text.bounded diagnosticBytes fault.message))
  | unknownField {fault : Fault} {name : String} (hsize : text.utf8ByteSize ≤ maxBytes)
      (hread : readStated text = .error fault)
      (hnames : Names (Document.ofString text).root fault name) : Refused text (.unknownField name)
  | version {s : StatedArtifact} (hsize : text.utf8ByteSize ≤ maxBytes)
      (hread : readStated text = .ok s) (hversion : s.version ≠ schemaVersion) :
      Refused text (.version schemaVersion s.version)
  | graphChecksum {s : StatedArtifact} (hsize : text.utf8ByteSize ≤ maxBytes)
      (hread : readStated text = .ok s) (hversion : s.version = schemaVersion)
      (hgraph : s.graphChecksum ≠ s.content.graphChecksum) :
      Refused text (.checksum .graph s.content.graphChecksum s.graphChecksum)
  | sourceChecksum {s : StatedArtifact} (hsize : text.utf8ByteSize ≤ maxBytes)
      (hread : readStated text = .ok s) (hversion : s.version = schemaVersion)
      (hgraph : s.graphChecksum = s.content.graphChecksum)
      (hsource : s.sourceChecksum ≠ s.content.sourceChecksum) :
      Refused text (.checksum .source s.content.sourceChecksum s.sourceChecksum)

theorem version_lt_of_readStated {s : StatedArtifact} (h : readStated text = .ok s) :
    s.version < Nat.pow 2 32 := by
  obtain ⟨s', hroot, hended⟩ := bind_eq_ok.mp h
  obtain rfl : s' = s := by
    split at hended
    · exact Except.ok.inj hended
    · exact absurd hended throw_ne_ok
  exact StatedArtifact.version_lt_of_ofJson (Document.readable text) hroot

theorem decode_of_small (hsize : text.utf8ByteSize ≤ maxBytes) :
    decode text = (readStated text).mapError ofFault >>= StatedArtifact.verify := by
  rw [decode, checkSize, if_neg (Nat.not_lt.mpr hsize), ok_bind, readStated]

/-- A text is refused for what is wrong with it. -/
theorem decode_eq_error_iff : decode text = .error e ↔ Refused text e := by
  constructor
  · intro h
    by_cases hsize : maxBytes < text.utf8ByteSize
    · rw [decode, checkSize, if_pos hsize, error_bind] at h
      obtain rfl := Except.error.inj h
      exact .tooLarge hsize
    have hsmall := Nat.le_of_not_lt hsize
    rw [decode_of_small hsmall, bind_eq_error] at h
    rcases h with hread | ⟨s, hread, hverify⟩
    · obtain ⟨fault, hfault, rfl⟩ := mapError_eq_error.mp hread
      cases hname : unknownFieldIn? fault.message with
      | none =>
        rw [ofFault, hname]
        exact .malformed hsmall hfault hname
      | some name =>
        rw [ofFault, hname]
        exact .unknownField hsmall hfault (names_of_blames (blames_of_decode hfault) hname)
    · have hstated := mapError_eq_ok.mp hread
      obtain ⟨hversion, h⟩ | ⟨hversion, hgraph, h⟩ | ⟨hversion, hgraph, hsource, h⟩ |
        ⟨-, -, -, h⟩ := s.verify_cases
      · obtain rfl := Except.error.inj (h.symm.trans hverify)
        exact .version hsmall hstated hversion
      · obtain rfl := Except.error.inj (h.symm.trans hverify)
        exact .graphChecksum hsmall hstated hversion hgraph
      · obtain rfl := Except.error.inj (h.symm.trans hverify)
        exact .sourceChecksum hsmall hstated hversion hgraph hsource
      · cases h.symm.trans hverify
  · intro h
    cases h with
    | tooLarge hsize => rw [decode, checkSize, if_pos hsize, error_bind]
    | malformed hsize hread hsilent =>
      rw [decode_of_small hsize, hread]
      exact congrArg Except.error (by rw [ofFault, hsilent])
    | unknownField hsize hread hnames =>
      rw [decode_of_small hsize, hread]
      exact congrArg Except.error (ofFault_eq_unknownField.mpr (unknownFieldIn?_of_names hnames))
    | version hsize hread hversion =>
      rw [decode_of_small hsize, hread]
      exact if_pos hversion
    | graphChecksum hsize hread hversion hgraph =>
      rw [decode_of_small hsize, hread]
      exact (if_neg (not_not.mpr hversion)).trans (if_pos hgraph)
    | sourceChecksum hsize hread hversion hgraph hsource =>
      rw [decode_of_small hsize, hread]
      exact (if_neg (not_not.mpr hversion)).trans
        ((if_neg (not_not.mpr hgraph)).trans (if_pos hsource))

/-- A string that a refusal shows beside its own words. -/
inductive Shows : ArtifactError → String → Prop where
  | diagnostic (diagnostic : String) : Shows (.malformed diagnostic) diagnostic
  | field (name : String) : Shows (.unknownField name) name
  | expected (part : ArtifactPart) (expected found : String) :
      Shows (.checksum part expected found) expected
  | found (part : ArtifactPart) (expected found : String) :
      Shows (.checksum part expected found) found

/-- A string that comes from the text and is shown whole: the name of an unknown field, or a wrong
checksum. -/
inductive Quoted (text : String) : String → Prop where
  | field {name : String} (h : Refused text (.unknownField name)) : Quoted text name
  | checksum {part : ArtifactPart} {expected found : String}
      (h : Refused text (.checksum part expected found)) : Quoted text found

/-- Whatever else is shown is cut, or a checksum of the right form. -/
theorem Refused.shows {s : String} (h : Refused text e) (hshows : Shows e s) :
    s.utf8ByteSize ≤ diagnosticBytes + 3 ∨ Quoted text s := by
  have hlabel (message : List UInt8) :
      (Sha256.label message).utf8ByteSize ≤ diagnosticBytes + 3 := by
    rw [Sha256.utf8ByteSize_label]
    decide
  cases hshows with
  | diagnostic =>
    cases h with
    | malformed => exact .inl (Text.utf8ByteSize_bounded_le _ _)
  | field => exact .inr (.field h)
  | expected =>
    cases h with
    | graphChecksum => exact .inl (hlabel _)
    | sourceChecksum => exact .inl (hlabel _)
  | found => exact .inr (.checksum h)

theorem checksum_message_le {limit : Nat} (part : ArtifactPart) (message : List UInt8)
    {found : String} (hfound : found.utf8ByteSize ≤ limit) :
    (ArtifactError.checksum part (Sha256.label message) found).message.utf8ByteSize ≤
      limit + 113 := by
  have hpart : part.name.utf8ByteSize = 5 ∨ part.name.utf8ByteSize = 6 := by
    cases part with
    | graph => exact .inl rfl
    | source => exact .inr rfl
  have hwords : " checksum mismatch: expected=".utf8ByteSize = 29 ∧
      " found=".utf8ByteSize = 7 := ⟨rfl, rfl⟩
  change (part.name ++ " checksum mismatch: expected=" ++ Sha256.label message ++ " found=" ++
    found).utf8ByteSize ≤ _
  simp only [String.utf8ByteSize_append, Sha256.utf8ByteSize_label, hwords]
  omega

/-- A refusal is as long as what it shows, but for some words. -/
theorem Refused.message_le {limit : Nat} (h : Refused text e)
    (hlimit : diagnosticBytes + 3 ≤ limit) (hsize : text.utf8ByteSize < Shape.wordLimit)
    (hshown : ∀ s, Shows e s → s.utf8ByteSize ≤ limit) :
    e.message.utf8ByteSize ≤ limit + 113 := by
  have hroom : 203 ≤ limit := hlimit
  cases h with
  | tooLarge =>
    have hactual : (toString text.utf8ByteSize).utf8ByteSize ≤ 20 :=
      Text.utf8ByteSize_toString_le (by decide) (hsize.trans (by decide))
    have hmax : (toString maxBytes).utf8ByteSize ≤ 8 :=
      Text.utf8ByteSize_toString_le (by decide) (by decide)
    have hwords : "artifact payload exceeds max bytes: actual=".utf8ByteSize = 43 ∧
        " max=".utf8ByteSize = 5 := ⟨rfl, rfl⟩
    change ("artifact payload exceeds max bytes: actual=" ++ toString text.utf8ByteSize ++
      " max=" ++ toString maxBytes).utf8ByteSize ≤ _
    simp only [String.utf8ByteSize_append, hwords]
    omega
  | @malformed fault =>
    have hshort := hshown _ (.diagnostic _)
    have hwords : "invalid json: ".utf8ByteSize = 14 := rfl
    change ("invalid json: " ++ Text.bounded diagnosticBytes fault.message).utf8ByteSize ≤ _
    rw [String.utf8ByteSize_append, hwords]
    omega
  | @unknownField _ name =>
    have hshort := hshown _ (.field _)
    have hwords : "unknown field '".utf8ByteSize = 15 ∧ "'".utf8ByteSize = 1 := ⟨rfl, rfl⟩
    change ("unknown field '" ++ name ++ "'").utf8ByteSize ≤ _
    simp only [String.utf8ByteSize_append, hwords]
    omega
  | @version s _ hread =>
    have hversion : s.version < Nat.pow 2 32 := version_lt_of_readStated hread
    have hexpected : (toString schemaVersion).utf8ByteSize ≤ 1 :=
      Text.utf8ByteSize_toString_le (by decide) (by decide)
    have hfound : (toString s.version).utf8ByteSize ≤ 10 :=
      Text.utf8ByteSize_toString_le (by decide) (hversion.trans (by decide))
    have hwords : "schema version mismatch: expected=".utf8ByteSize = 34 ∧
        " found=".utf8ByteSize = 7 := ⟨rfl, rfl⟩
    change ("schema version mismatch: expected=" ++ toString schemaVersion ++ " found=" ++
      toString s.version).utf8ByteSize ≤ _
    simp only [String.utf8ByteSize_append, hwords]
    omega
  | graphChecksum => exact checksum_message_le _ _ (hshown _ (.found _ _ _))
  | sourceChecksum => exact checksum_message_le _ _ (hshown _ (.found _ _ _))

/-- For any limit that leaves room for a cut diagnostic, all that a refusal shows is within the limit
exactly if the name of the unknown field and the wrong checksum that it quotes are; then the whole
message is not much longer. -/
theorem decode_bounded_iff {limit : Nat} (hlimit : diagnosticBytes + 3 ≤ limit)
    (h : decode text = .error e) :
    ((∀ s, Shows e s → s.utf8ByteSize ≤ limit) ↔ ∀ s, Quoted text s → s.utf8ByteSize ≤ limit) ∧
      (text.utf8ByteSize < Shape.wordLimit → (∀ s, Quoted text s → s.utf8ByteSize ≤ limit) →
        e.message.utf8ByteSize ≤ limit + 113) := by
  have hrefused : Refused text e := decode_eq_error_iff.mp h
  -- a text has one refusal, so what is quoted is shown
  have hshown : ∀ s, Quoted text s → Shows e s := by
    intro s hquoted
    cases hquoted with
    | field hfield =>
      obtain rfl := Except.error.inj (h.symm.trans (decode_eq_error_iff.mpr hfield))
      exact .field s
    | checksum hchecksum =>
      obtain rfl := Except.error.inj (h.symm.trans (decode_eq_error_iff.mpr hchecksum))
      exact .found _ _ s
  have hall (hquoted : ∀ s, Quoted text s → s.utf8ByteSize ≤ limit) :
      ∀ s, Shows e s → s.utf8ByteSize ≤ limit := by
    intro s hs
    rcases hrefused.shows hs with hshort | hquote
    · exact hshort.trans hlimit
    · exact hquoted s hquote
  exact ⟨⟨fun hshows s hs => hshows s (hshown s hs), hall⟩,
    fun hsize hquoted => hrefused.message_le hlimit hsize (hall hquoted)⟩

/-- A text with one key that no artifact has. -/
def strayTree (key : String) : Json := .record [(key, .null)]

theorem printable_strayTree (key : String) : Printable maxDepth (strayTree key) := by
  refine printable_mono (show Printable 1 _ from .object ?_) (by decide)
  simp [Printable.null]

theorem utf8ByteSize_strayTree_le (key : String) :
    (strayTree key).text.utf8ByteSize ≤ 24 * key.length + 60 := by
  refine (Json.utf8ByteSize_text_le (printable_strayTree key)).trans ?_
  simp only [strayTree, Json.record, Json.room, Json.roomFields]
  omega

/-- The key is shown whole. -/
theorem refused_strayTree {key : String} (hkey : key ∉ FormatRole.artifact.order)
    (hplain : backquote ∉ key.toList) (hsize : (strayTree key).text.utf8ByteSize ≤ maxBytes) :
    Refused (strayTree key).text (.unknownField key) := by
  have hdocument := Document.ofString_text (printable_strayTree key)
  have hfield (s : StatedArtifact.Slots) :
      s.field key .null = .error (.unknownField key) := by
    unfold StatedArtifact.Slots.field
    split
    case h_7 => rfl
    all_goals exact absurd hkey (by decide)
  have hread : readStated (strayTree key).text = .error (.unknownField key) := by
    rw [readStated, hdocument]
    simp [Json.decode, StatedArtifact.ofJson, strayTree, Json.record, walkRecord, walkFields,
      hfield, error_bind]
  have hmem : key ∈ (strayTree key).keys := by simp [strayTree, Json.record, keys]
  have hnames := Names.key (Plays.artifact : Plays (strayTree key) .artifact _) hmem hkey
  rw [takeWhile_plain hplain, String.ofList_toList] at hnames
  refine .unknownField hsize hread ?_
  rw [hdocument]
  exact hnames

/-- A wrong graph checksum is shown whole, whatever the text has in its place. -/
theorem refused_misstated {s : StatedArtifact} (hversion : s.version = schemaVersion)
    (hcontent : s.content.Writable) (hsize : s.toJson.text.utf8ByteSize ≤ maxBytes)
    (hgraph : s.graphChecksum ≠ s.content.graphChecksum) :
    Refused s.toJson.text (.checksum .graph s.content.graphChecksum s.graphChecksum) := by
  have hlt : s.version < Nat.pow 2 32 := hversion ▸ schemaVersion_lt
  have hread : readStated s.toJson.text = .ok s := by
    rw [readStated, Document.ofString_text (StatedArtifact.printable_toJson hlt hcontent),
      Json.decode, StatedArtifact.ofJson_toJson hlt hcontent]
    rfl
  exact .graphChecksum hsize hread hversion hgraph

/-- An undeclared key of five bytes leads to a short message. -/
theorem message_le_debug :
    (∀ s, Quoted (strayTree "debug").text s → s.utf8ByteSize ≤ 259) ∧
      (ArtifactError.unknownField "debug").message.utf8ByteSize ≤ 372 := by
  have hsize : (strayTree "debug").text.utf8ByteSize ≤ maxBytes :=
    (utf8ByteSize_strayTree_le _).trans (by decide)
  have hrefused : Refused (strayTree "debug").text (.unknownField "debug") :=
    refused_strayTree (by decide) (by decide) hsize
  have hlimit : diagnosticBytes + 3 ≤ 259 := by decide
  have hbounded := decode_bounded_iff hlimit (decode_eq_error_iff.mpr hrefused)
  have hquoted := hbounded.1.mp fun s hs => by
    cases hs
    decide
  exact ⟨hquoted, hbounded.2 (hsize.trans_lt (by decide)) hquoted⟩

/-- A text of so many bytes. -/
def longText (n : Nat) : String := String.ofList (List.replicate n 'a')

theorem length_longText (n : Nat) : (longText n).length = n := by
  rw [longText, String.length_ofList, List.length_replicate]

theorem utf8ByteSize_longText (n : Nat) : (longText n).utf8ByteSize = n := by
  have hascii : ∀ c ∈ List.replicate n 'a', c.utf8Size = 1 := by
    intro c hc
    rw [List.eq_of_mem_replicate hc]
    rfl
  rw [longText, String.utf8ByteSize_ofList, Text.utf8Len_of_ascii hascii, List.length_replicate]

theorem refused_longText {n : Nat} (hlong : 14 < n) (hsize : 24 * n + 60 ≤ maxBytes) :
    Refused (strayTree (longText n)).text (.unknownField (longText n)) := by
  refine refused_strayTree ?_ ?_ ?_
  · intro h
    have hshort : ∀ key ∈ FormatRole.artifact.order, key.length ≤ 14 := by decide
    have hlength := hshort _ h
    rw [length_longText] at hlength
    omega
  · intro h
    rw [longText, String.toList_ofList] at h
    exact absurd (List.eq_of_mem_replicate h) (by decide)
  · have hroom := utf8ByteSize_strayTree_le (longText n)
    rw [length_longText] at hroom
    exact hroom.trans hsize

/-- An empty artifact with a long text in the place of the checksum of its graph. -/
def misstated (n : Nat) : StatedArtifact :=
  ⟨schemaVersion, ⟨"m", ⟨[], [], [], .empty⟩, []⟩, longText n, ""⟩

theorem writable_misstated (n : Nat) : (misstated n).content.Writable :=
  ⟨⟨nofun, nofun, nofun⟩, nofun⟩

theorem refused_misstated_longText {n : Nat} (hlong : 71 < n) (hsize : 24 * n + 4000 ≤ maxBytes) :
    Refused (misstated n).toJson.text
      (.checksum .graph (misstated n).content.graphChecksum (longText n)) := by
  refine refused_misstated rfl (writable_misstated n) ?_ fun h => ?_
  · refine (Json.utf8ByteSize_text_le
      (StatedArtifact.printable_toJson schemaVersion_lt (writable_misstated n))).trans ?_
    have hroom : (misstated n).toJson.room 0 = (misstated 0).toJson.room 0 + 6 * n := by
      simp only [misstated, StatedArtifact.toJson, Json.record, Json.room, Json.roomFields,
        length_longText]
      omega
    have hblank : 4 * (misstated 0).toJson.room 0 ≤ 4000 := by decide
    omega
  · have hlengths := congrArg String.length h
    rw [graphChecksum, TracedGraph.checksum, Sha256.length_label] at hlengths
    exact absurd (hlengths.symm.trans (length_longText n)) (by omega)

/-- A key and a checksum of three hundred bytes are shown whole. -/
theorem decode_long :
    decode (strayTree (longText 300)).text = .error (.unknownField (longText 300)) ∧
      decode (misstated 300).toJson.text =
        .error (.checksum .graph (misstated 300).content.graphChecksum (longText 300)) ∧
      Shows (.unknownField (longText 300)) (longText 300) ∧
      Shows (.checksum .graph (misstated 300).content.graphChecksum (longText 300))
        (longText 300) ∧
      ¬(longText 300).utf8ByteSize ≤ 259 := by
  refine ⟨decode_eq_error_iff.mpr (refused_longText (by decide) (by decide)),
    decode_eq_error_iff.mpr (refused_misstated_longText (by decide) (by decide)), .field _,
    .found _ _ _, ?_⟩
  rw [utf8ByteSize_longText]
  decide

end Artifact

end TensorParity
