import TensorParity.Proofs.Json.Decode
import TensorParity.Proofs.Json.Printed

/-!
Texts that say the same in other words: beside blanks and escapes, the fields of an object may
stand in any order, and a double may have any literal that lies in its rounding interval. What is
read from such a text is a tree of the same data, which need not be the same tree. Typed readers do
not notice the difference: scalars and lists are read one by one, and a record fills its slots in
whatever order its fields come.
-/
namespace TensorParity

namespace Json

/-- The literals of a number. An integer has the one it is printed as; a double has all whose sign
is its own and whose decimal is nearest to it. -/
def Denotes (n : JsonNumber) (cs : List Char) : Prop :=
  n.Readable ∧
    match n with
    | .real x => ∃ d, Literal (SignedBits.ofFloat x).negative d cs ∧
        d.ReadsAs (SignedBits.ofFloat x).bits
    | n => cs = Printer.number n

/-- Any literal of a number, and fields in any order. -/
def Choices.free : Choices := ⟨Denotes, List.Perm⟩

/-- Whether a text says what a tree holds. -/
def Words (j : Json) (text : String) : Prop :=
  ∃ before cs after, text.toList = before ++ cs ++ after ∧ Blanks before ∧
    Spells .free maxDepth (.value j) cs ∧ Blanks after

/-- Parts of trees that hold the same data: fields stand in another order, and a double is a number
of its value. -/
inductive SameData : Part → Part → Prop where
  | null : SameData (.value .null) (.value .null)
  | bool (b : Bool) : SameData (.value (.bool b)) (.value (.bool b))
  | number (n : JsonNumber) : SameData (.value (.number n)) (.value (.number n))
  | double {x : Float} {n : JsonNumber} (hvalue : JsonNumber.toFloat n = x) :
      SameData (.value (.number (.real x))) (.value (.number n))
  | string (s : String) : SameData (.value (.string s)) (.value (.string s))
  | array {js js' : List Json} (hitems : SameData (.items js) (.items js')) :
      SameData (.value (.array js)) (.value (.array js'))
  | object {fields ordered fields' : List (String × Json)} (horder : fields.Perm ordered)
      (hmembers : SameData (.members ordered) (.members fields')) :
      SameData (.value (.object fields true)) (.value (.object fields' true))
  | noItems : SameData (.items []) (.items [])
  | item {j j' : Json} {js js' : List Json} (hhead : SameData (.value j) (.value j'))
      (htail : SameData (.items js) (.items js')) : SameData (.items (j :: js)) (.items (j' :: js'))
  | noMembers : SameData (.members []) (.members [])
  | member {j j' : Json} {fields fields' : List (String × Json)} (key : String)
      (hhead : SameData (.value j) (.value j'))
      (htail : SameData (.members fields) (.members fields')) :
      SameData (.members ((key, j) :: fields)) (.members ((key, j') :: fields'))

/-- A literal of a number is read as a number of its value, and of its class if it is an integer. -/
theorem Denotes.read {n : JsonNumber} {cs : List Char} (h : Denotes n cs) :
    ∃ n', SameData (.value (.number n)) (.value (.number n')) ∧
      Reader.number? cs = some (n', []) := by
  obtain ⟨hreadable, hliteral⟩ := h
  cases n with
  | unsigned n =>
    obtain rfl := hliteral
    exact ⟨_, .number _, number?_printed hreadable⟩
  | negative n =>
    obtain rfl := hliteral
    exact ⟨_, .number _, number?_printed hreadable⟩
  | real x =>
    obtain ⟨d, hliteral, hreads⟩ := hliteral
    obtain ⟨n', hread, hvalue, -⟩ :=
      hliteral.number? ((SignedBits.isFinite_iff x).mp hreadable) hreads
    exact ⟨n', .double (hvalue.trans (SignedBits.toFloat_ofFloat x)), hread⟩

/-- Parts with the same data are of one kind. -/
theorem SameData.value_left {j : Json} {part : Part} (h : SameData (.value j) part) :
    ∃ j', part = .value j' := by
  cases h <;> exact ⟨_, rfl⟩

theorem SameData.items_left {js : List Json} {part : Part} (h : SameData (.items js) part) :
    ∃ js', part = .items js' := by
  cases h <;> exact ⟨_, rfl⟩

theorem SameData.members_left {fields : List (String × Json)} {part : Part}
    (h : SameData (.members fields) part) : ∃ fields', part = .members fields' := by
  cases h <;> exact ⟨_, rfl⟩

/-- What a text says in free words is read as a part with the same data. -/
theorem Spells.sameData {depth : Nat} {part : Part} {cs : List Char}
    (h : Spells .free depth part cs) :
    ∃ part', SameData part part' ∧ Spells .asRead depth part' cs := by
  induction h with
  | nullWord => exact ⟨_, .null, .nullWord⟩
  | trueWord => exact ⟨_, .bool true, .trueWord⟩
  | falseWord => exact ⟨_, .bool false, .falseWord⟩
  | number hliteral =>
    obtain ⟨n', hsame, hread⟩ := Denotes.read hliteral
    exact ⟨_, hsame, .number hread⟩
  | string hstring => exact ⟨_, .string _, .string hstring⟩
  | emptyArray hblanks => exact ⟨_, .array .noItems, .emptyArray hblanks⟩
  | array hitems ih =>
    obtain ⟨part', hsame, hspells⟩ := ih
    obtain ⟨js', rfl⟩ := hsame.items_left
    exact ⟨_, .array hsame, .array hspells⟩
  | emptyObject hblanks => exact ⟨_, .object (.refl _) .noMembers, .emptyObject hblanks⟩
  | object horder hmembers ih =>
    obtain ⟨part', hsame, hspells⟩ := ih
    obtain ⟨fields', rfl⟩ := hsame.members_left
    exact ⟨_, .object horder hsame, .object rfl hspells⟩
  | lastItem hbefore hvalue hafter ih =>
    obtain ⟨part', hsame, hspells⟩ := ih
    obtain ⟨j', rfl⟩ := hsame.value_left
    exact ⟨_, .item hsame .noItems, .lastItem hbefore hspells hafter⟩
  | item hbefore hvalue hafter hitems ih ihItems =>
    obtain ⟨part', hsame, hspells⟩ := ih
    obtain ⟨j', rfl⟩ := hsame.value_left
    obtain ⟨rest', hrest, hspellsRest⟩ := ihItems
    obtain ⟨js', rfl⟩ := hrest.items_left
    exact ⟨_, .item hsame hrest, .item hbefore hspells hafter hspellsRest⟩
  | lastMember hbefore hname hcolon hspace hvalue hafter ih =>
    obtain ⟨part', hsame, hspells⟩ := ih
    obtain ⟨j', rfl⟩ := hsame.value_left
    exact ⟨_, .member _ hsame .noMembers,
      .lastMember hbefore hname hcolon hspace hspells hafter⟩
  | member hbefore hname hcolon hspace hvalue hafter hmembers ih ihMembers =>
    obtain ⟨part', hsame, hspells⟩ := ih
    obtain ⟨j', rfl⟩ := hsame.value_left
    obtain ⟨rest', hrest, hspellsRest⟩ := ihMembers
    obtain ⟨fields', rfl⟩ := hrest.members_left
    exact ⟨_, .member _ hsame hrest,
      .member hbefore hname hcolon hspace hspells hafter hspellsRest⟩

/-- A text that says what a tree holds is read as a tree that holds the same. -/
theorem Words.ofString {j : Json} {text : String} (h : j.Words text) :
    ∃ j', SameData (.value j) (.value j') ∧ Document.ofString text = ⟨j', true⟩ := by
  obtain ⟨before, cs, after, htext, hbefore, hspells, hafter⟩ := h
  obtain ⟨part', hsame, hread⟩ := hspells.sameData
  obtain ⟨j', rfl⟩ := hsame.value_left
  exact ⟨j', hsame, Document.ofString_spelling htext hbefore hread hafter⟩

/-! Texts that say what a tree holds: among them are the printed ones. -/

theorem allows_free : Printer.Allows .free where
  literal n h := by
    cases n with
    | unsigned | negative => exact ⟨h, rfl⟩
    | real x => exact ⟨h, (literal_printed h).2⟩
  order _ := .refl _

theorem words_text {j : Json} (h : Printable maxDepth j) : j.Words j.text := by
  obtain ⟨cs, htext, hspells⟩ := Printer.prints_compact allows_free h ""
  exact ⟨[], cs, [], by simpa [text] using htext, blanks_nil, hspells, blanks_nil⟩

theorem words_prettyText {j : Json} (h : Printable maxDepth j) : j.Words j.prettyText := by
  obtain ⟨cs, htext, hspells⟩ := Printer.prints_pretty allows_free h 0 ""
  exact ⟨[], cs, [], by simpa [prettyText] using htext, blanks_nil, hspells, blanks_nil⟩

/-- What a text says of fields in one order it says of them in every order. -/
theorem Words.reorder {fields ordered : List (String × Json)} {text : String}
    (h : (record ordered).Words text) (horder : fields.Perm ordered) :
    (record fields).Words text := by
  obtain ⟨before, cs, after, htext, hbefore, hspells, hafter⟩ := h
  refine ⟨before, cs, after, htext, hbefore, ?_, hafter⟩
  cases hspells with
  | emptyObject hblanks => exact horder.eq_nil ▸ .emptyObject hblanks
  | object horder' hmembers => exact .object (horder.trans horder') hmembers

/-! What trees with the same data have in common. -/

/-- Trees that hold the same data. -/
abbrev Same (j j' : Json) : Prop := SameData (.value j) (.value j')

theorem SameData.forall₂_items {js js' : List Json} (h : SameData (.items js) (.items js')) :
    List.Forall₂ Same js js' := by
  induction js generalizing js' with
  | nil =>
    cases h
    exact .nil
  | cons j js ih =>
    cases h with
    | item hhead htail => exact .cons hhead (ih htail)

/-- Members with the same data have the same keys, and each comes from one with its key. -/
theorem SameData.members_source {fields fields' : List (String × Json)}
    (h : SameData (.members fields) (.members fields')) :
    fields.map (·.1) = fields'.map (·.1) ∧
      ∀ key v, (key, v) ∈ fields' → ∃ j, (key, j) ∈ fields ∧ Same j v := by
  induction fields generalizing fields' with
  | nil =>
    cases h
    exact ⟨rfl, nofun⟩
  | cons entry fields ih =>
    cases h with
    | member key hhead htail =>
      obtain ⟨hkeys, hsource⟩ := ih htail
      refine ⟨by simp [hkeys], fun key' v hmem => ?_⟩
      rcases List.mem_cons.mp hmem with heq | hmem
      · obtain ⟨rfl, rfl⟩ := Prod.mk.inj heq
        exact ⟨_, List.mem_cons_self, hhead⟩
      · obtain ⟨j, hj, hsame⟩ := hsource key' v hmem
        exact ⟨j, List.mem_cons_of_mem _ hj, hsame⟩

/-- Whether the texts of a part are well formed. -/
def Part.WellFormed : Part → Prop
  | .value j => j.wellFormed = true
  | .items js => wellFormedItems js = true
  | .members fields => wellFormedFields fields = true

/-- What has the same data as another part is well formed. -/
theorem SameData.wellFormed {part part' : Part} (h : SameData part part') : part'.WellFormed := by
  induction h with
  | null | bool | number | double | string | noItems | noMembers =>
    simp [Part.WellFormed, Json.wellFormed, wellFormedItems, wellFormedFields]
  | array _ ih => exact ih
  | object _ _ ih => simpa [Part.WellFormed, Json.wellFormed] using ih
  | item _ _ ih ihTail => simpa [Part.WellFormed, wellFormedItems] using ⟨ih, ihTail⟩
  | member _ _ _ ih ihTail => simpa [Part.WellFormed, wellFormedFields] using ⟨ih, ihTail⟩

/-- Fields with different keys, and what an object of the same data has in their place. -/
structure SameFields (fields fields' : List (String × Json)) : Prop where
  distinct : (fields'.map (·.1)).Nodup
  keys : ∀ key ∈ fields.map (·.1), key ∈ fields'.map (·.1)
  source : ∀ key v, (key, v) ∈ fields' → ∃ j, (key, j) ∈ fields ∧ Same j v

theorem Same.fields {fields : List (String × Json)} {j : Json}
    (h : Same (.record fields) j) (hdistinct : (fields.map (·.1)).Nodup) :
    ∃ fields', j = .record fields' ∧ SameFields fields fields' := by
  cases h with
  | @object _ ordered fields' horder hmembers =>
    obtain ⟨hkeys, hsource⟩ := hmembers.members_source
    have hperm : (fields.map (·.1)).Perm (fields'.map (·.1)) := hkeys ▸ horder.map _
    refine ⟨fields', rfl, hperm.nodup_iff.mp hdistinct, fun key hkey => hperm.mem_iff.mp hkey,
      fun key v hmem => ?_⟩
    obtain ⟨j, hj, hsame⟩ := hsource key v hmem
    exact ⟨j, horder.mem_iff.mpr hj, hsame⟩

/-- The first field is somewhere among the fields of the same data, and the others are around it. -/
theorem SameFields.extract {key : String} {j : Json} {fields fields' : List (String × Json)}
    (h : SameFields ((key, j) :: fields) fields') (hnew : key ∉ fields.map (·.1)) :
    ∃ before v after, fields' = before ++ (key, v) :: after ∧ Same j v ∧
      SameFields fields (before ++ after) := by
  obtain ⟨⟨key, v⟩, hmem, rfl⟩ := List.mem_map.mp (h.keys key List.mem_cons_self)
  obtain ⟨before, after, rfl⟩ := List.append_of_mem hmem
  have hmiddle : ((before ++ (key, v) :: after).map (·.1)).Perm
      (key :: (before ++ after).map (·.1)) := List.perm_middle.map Prod.fst
  obtain ⟨hout, hdistinct⟩ := List.nodup_cons.mp (hmiddle.nodup_iff.mp h.distinct)
  refine ⟨before, v, after, rfl, ?_, hdistinct, fun key' hkey' => ?_, fun key' v' hmem' => ?_⟩
  · obtain ⟨j', hj', hsame⟩ := h.source key v hmem
    rcases List.mem_cons.mp hj' with heq | hj'
    · exact (Prod.mk.inj heq).2 ▸ hsame
    · exact absurd (List.mem_map_of_mem hj') hnew
  · have hkeys := hmiddle.mem_iff.mp (h.keys key' (List.mem_cons_of_mem _ hkey'))
    rcases List.mem_cons.mp hkeys with rfl | hkeys
    · exact absurd hkey' hnew
    · exact hkeys
  · obtain ⟨j', hj', hsame⟩ := h.source key' v' (by simp at hmem' ⊢; tauto)
    rcases List.mem_cons.mp hj' with heq | hj'
    · exact absurd (List.mem_map_of_mem (f := (·.1)) hmem') ((Prod.mk.inj heq).1 ▸ hout)
    · exact ⟨j', hj', hsame⟩

end Json

/-! ## Typed readers -/

namespace Json

/-- Whether the data of a tree settle what a reader yields. -/
def Settles {α : Type} (read : Json → Decoded α) (j : Json) (a : α) : Prop :=
  ∀ j', Same j j' → read j' = .ok a

variable {α : Type}

theorem settles_string (s : String) : Settles asString (.string s) s := by
  intro j' hsame
  cases hsame
  rfl

theorem settles_below {limit n : Nat} (h : n < limit) :
    Settles (asBelow limit) (ofNat n) ⟨n, h⟩ := by
  intro j' hsame
  cases hsame
  exact asBelow_ofNat h

theorem settles_bounded {limit n : Nat} (h : n < limit) :
    Settles (asBounded limit) (ofNat n) n := by
  intro j' hsame
  cases hsame
  exact asBounded_ofNat h

theorem settles_float {x : Float} (h : x.isFinite = true) : Settles asFloat (ofFloat x) x := by
  intro j' hsame
  rw [ofFloat, if_pos h] at hsame
  cases hsame with
  | number => rfl
  | double hvalue => exact congrArg Except.ok hvalue

theorem settles_option (name : Option String) :
    Settles (asOption asString) (ofOption .string name) name := by
  intro j' hsame
  cases name with
  | none =>
    cases hsame
    rfl
  | some name =>
    cases hsame
    rfl

theorem settles_list {read : Json → Decoded α} {write : α → Json} {items : List α}
    (h : ∀ a ∈ items, Settles read (write a) a) :
    Settles (asList read) (.array (items.map write)) items := by
  intro j' hsame
  cases hsame with
  | array hitems =>
    have hpairs := List.forall₂_map_left_iff.mp hitems.forall₂_items
    clear hitems
    rw [asList]
    induction hpairs with
    | nil => rfl
    | cons hhead _ ih =>
      rw [List.forall_mem_cons] at h
      rw [List.mapM_cons, h.1 _ hhead, ok_bind, ih h.2]
      rfl

theorem settles_shape {s : List Nat} (h : ∀ d ∈ s, d < Shape.wordLimit) :
    Settles asShape (ofShape s) s :=
  settles_list fun d hd => settles_bounded (h d hd)

theorem settles_pair {limit m n : Nat} (hm : m < limit) (hn : n < limit) :
    Settles (asPair (asBelow limit)) (.array [ofNat m, ofNat n]) (⟨m, hm⟩, ⟨n, hn⟩) := by
  intro j' hsame
  cases hsame with
  | array hitems =>
    cases hitems with
    | item hfirst hrest =>
      cases hrest with
      | item hsecond hnil =>
        cases hnil
        rw [asPair, settles_below hm _ hfirst, settles_below hn _ hsecond]
        rfl

/-! A record in progress: the slots of the keys read so far hold their values. -/

/-- What the slot of `key` holds once the keys `filled` are read. -/
def kept (key : String) (filled : List String) (a : α) : Option α :=
  if key ∈ filled then some a else none

variable {key : String} {filled : List String} {a : α}

@[simp] theorem kept_nil : kept key [] a = none := rfl

@[simp] theorem kept_cons_of_ne {other : String} (h : key ≠ other) :
    kept key (other :: filled) a = kept key filled a := by
  simp [kept, h]

theorem fill_kept {read : Json → Decoded α} {v : Json} (hnew : key ∉ filled)
    (hread : read v = .ok a) : fill key (kept key filled a) read v = .ok (some a) := by
  rw [kept, if_neg hnew, fill, hread]
  rfl

@[simp] theorem kept_of_mem (h : key ∈ filled) : kept key filled a = some a := if_pos h

theorem required_kept (h : key ∈ filled) : required key (kept key filled a) = .ok a := by
  rw [kept, if_pos h, required]
  rfl

/-- Whether each of these fields fills the slot of its key, and no other. -/
def Fills {σ : Type} (field : σ → String → Json → Decoded σ) (part : List String → σ)
    (fields : List (String × Json)) : Prop :=
  ∀ key j, (key, j) ∈ fields → ∀ v filled, Same j v → key ∉ filled →
    field (part filled) key v = .ok (part (key :: filled))

namespace Fills

variable {σ : Type} {field : σ → String → Json → Decoded σ} {part : List String → σ}
  {fields fields' : List (String × Json)}

theorem nil : Fills field part [] := nofun

theorem cons {j : Json} (hfirst : ∀ v filled, Same j v → key ∉ filled →
      field (part filled) key v = .ok (part (key :: filled)))
    (hrest : Fills field part fields) : Fills field part ((key, j) :: fields) := by
  intro key' j' hmem
  rcases List.mem_cons.mp hmem with heq | hmem
  · obtain ⟨rfl, rfl⟩ := Prod.mk.inj heq
    exact hfirst
  · exact hrest key' j' hmem

/-- Fields of the same data fill the slots of their keys, in whatever order they come. -/
theorem foldlM (hstep : Fills field part fields) (hdistinct : (fields'.map (·.1)).Nodup)
    (hsource : ∀ key v, (key, v) ∈ fields' → ∃ j, (key, j) ∈ fields ∧ Same j v)
    (filled : List String) (hnew : ∀ key ∈ fields'.map (·.1), key ∉ filled) :
    fields'.foldlM (fun s (key, v) => field s key v) (part filled) =
      .ok (part ((fields'.map (·.1)).reverse ++ filled)) := by
  induction fields' generalizing filled with
  | nil => rfl
  | cons entry rest ih =>
    obtain ⟨key, v⟩ := entry
    rw [List.map_cons, List.nodup_cons] at hdistinct
    rw [List.map_cons, List.forall_mem_cons] at hnew
    obtain ⟨j, hmem, hsame⟩ := hsource key v List.mem_cons_self
    have hfirst := hstep key j hmem v filled hsame hnew.1
    have hrest := ih hdistinct.2 (fun key v hmem => hsource key v (List.mem_cons_of_mem _ hmem))
      (key :: filled) fun other hother hmem => ?_
    · rw [List.foldlM_cons]
      simp only [hfirst, ok_bind, hrest]
      simp
    · rcases List.mem_cons.mp hmem with rfl | hmem
      · exact hdistinct.1 hother
      · exact hnew.2 other hother hmem

/-- All slots are filled at the end. -/
theorem foldlM_all (hstep : Fills field part fields) (h : SameFields fields fields') :
    ∃ filled, (∀ key ∈ fields.map (·.1), key ∈ filled) ∧
      fields'.foldlM (fun s (key, v) => field s key v) (part []) = .ok (part filled) := by
  have hfold := hstep.foldlM h.distinct h.source [] fun _ _ => List.not_mem_nil
  exact ⟨_, fun key hkey => by simpa using h.keys key hkey, hfold⟩

theorem walkFields (hstep : Fills field part fields) (h : SameFields fields fields') :
    ∃ filled, (∀ key ∈ fields.map (·.1), key ∈ filled) ∧
      walkFields field (part []) fields' true = .ok (part filled) := by
  obtain ⟨filled, hkeys, hfold⟩ := hstep.foldlM_all h
  refine ⟨filled, hkeys, ?_⟩
  rw [Json.walkFields, hfold]
  rfl

/-- A record is read as an object, so the declared order of its fields plays no part. -/
theorem walkRecord (hstep : Fills field part fields) {j : Json} (hsame : Same (.record fields) j)
    (hdistinct : (fields.map (·.1)).Nodup) :
    ∃ filled, (∀ key ∈ fields.map (·.1), key ∈ filled) ∧
      ∀ declared, walkRecord declared field (part []) j = .ok (part filled) := by
  obtain ⟨fields', rfl, hfields⟩ := Same.fields hsame hdistinct
  obtain ⟨filled, hkeys, hwalk⟩ := hstep.walkFields hfields
  exact ⟨filled, hkeys, fun _ => hwalk⟩

end Fills

end Json

end TensorParity
