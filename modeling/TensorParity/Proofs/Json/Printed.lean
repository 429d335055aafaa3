import TensorParity.Proofs.Json.Literal
import TensorParity.Proofs.Json.Spelling

/-!
Printed trees are read back. What is printed for a tree, on one line or over several, spells it, so
the reader yields the same tree. What is printed on one line is the same wherever it is put, and holds
no line feed: those of strings are escaped.
-/
namespace TensorParity

namespace Json

/-- A tree that was read to its end, with containers nested at most so deep: no other tree is read
back from what is printed for it. -/
inductive Printable : (depth : Nat) → Json → Prop where
  | null {depth : Nat} : Printable depth .null
  | bool {depth : Nat} (b : Bool) : Printable depth (.bool b)
  | number {depth : Nat} {n : JsonNumber} (hreadable : n.Readable) : Printable depth (.number n)
  | string {depth : Nat} (s : String) : Printable depth (.string s)
  | array {depth : Nat} {js : List Json} (hitems : ∀ j ∈ js, Printable depth j) :
      Printable (depth + 1) (.array js)
  | object {depth : Nat} {fields : List (String × Json)}
      (hfields : ∀ field ∈ fields, Printable depth field.2) :
      Printable (depth + 1) (.object fields true)

namespace Printer

@[simp]
theorem toList_put (out : String) (cs : List Char) : (put out cs).toList = out.toList ++ cs := by
  induction cs generalizing out with
  | nil => simp [put]
  | cons c cs ih =>
    have := ih (out.push c)
    simp_all [put]

@[simp]
theorem toList_putString (out s : String) :
    (putString out s).toList = out.toList ++ '"' :: (s.toList.flatMap escape ++ ['"']) := by
  have hfold (cs : List Char) (out : String) :
      (cs.foldl (fun out c => put out (escape c)) out).toList =
        out.toList ++ cs.flatMap escape := by
    induction cs generalizing out with
    | nil => simp
    | cons c cs ih => simp [ih]
  simp [putString, hfold]

/-- What stands for a character is one of its spellings. -/
theorem escape_spelling (c : Char) : CharSpelling c (escape c) := by
  unfold escape
  split
  · subst c
    exact .short rfl
  split
  · subst c
    exact .short rfl
  split
  · subst c
    exact .short rfl
  split
  · subst c
    exact .short rfl
  split
  · subst c
    exact .short rfl
  split
  · subst c
    exact .short rfl
  split
  · subst c
    exact .short rfl
  split
  · rename_i hcontrol
    have hdigits (n : Nat) (hn : n < 0x20) : Reader.hex4? '0' '0' (Nat.digitChar (n / 16))
        (Nat.digitChar (n % 16)) = some n := by
      interval_cases n <;> rfl
    have hunit := CharSpelling.unit (hdigits c.toNat hcontrol)
      (by simp [Reader.isHighSurrogate]; omega) (by simp [Reader.isLowSurrogate]; omega)
    rwa [Char.ofNat_toNat] at hunit
  · rename_i hquote hslash _ _ _ _ _ hprintable
    exact .plain (by omega) hquote hslash

theorem escape_spellings (cs : List Char) : CharsSpelling cs (cs.flatMap escape) := by
  induction cs with
  | nil => exact .nil
  | cons c cs ih => exact .cons (escape_spelling c) ih

theorem string_spelling (s : String) :
    StringSpelling s ('"' :: (s.toList.flatMap escape ++ ['"'])) := by
  have h := StringSpelling.quoted (escape_spellings s.toList)
  rwa [String.ofList_toList] at h

/-- Choices that a printer makes: its own literals, and fields in the order they have. -/
structure Allows (choices : Choices) : Prop where
  literal : ∀ n, n.Readable → choices.literal n (number n)
  order : ∀ fields, choices.order fields fields

theorem allows_asRead : Allows .asRead := ⟨fun _ => number?_printed, fun _ => rfl⟩

/-- A printer of values puts a spelling of the value at the end of what it was given. -/
def Prints (choices : Choices) (print : String → Json → String) (depth : Nat) (j : Json) : Prop :=
  ∀ out, ∃ cs, (print out j).toList = out.toList ++ cs ∧ Spells choices depth (.value j) cs

/-- Entries with commas between them and the same characters before each. -/
def joined {α : Type} (lead : List Char) (print : String → α → String) (out : String)
    (first : Bool) :
    List α → String
  | [] => out
  | a :: rest =>
    joined lead print (print (put (if first then out else out.push ',') lead) a) false rest

/-- What a printer of entries adds before the first of them. -/
def comma (first : Bool) : List Char := if first then [] else [',']

theorem toList_comma (out : String) (first : Bool) :
    (if first then out else out.push ',').toList = out.toList ++ comma first := by
  cases first <;> simp [comma]

variable {choices : Choices} {depth : Nat} {lead : List Char} {print : String → Json → String}

theorem joined_items (hlead : Blanks lead) {js : List Json} (hne : js ≠ [])
    (hprint : ∀ j ∈ js, Prints choices print depth j) (out : String) (first : Bool) :
    ∃ cs, (joined lead print out first js).toList = out.toList ++ comma first ++ cs ∧
      ∀ after, Blanks after → Spells choices depth (.items js) (cs ++ after) := by
  induction js generalizing out first with
  | nil => exact absurd rfl hne
  | cons j js ih =>
    obtain ⟨cs, htext, hspells⟩ := hprint j (by simp)
      (put (if first then out else out.push ',') lead)
    rw [toList_put, toList_comma] at htext
    rw [joined]
    cases js with
    | nil =>
      refine ⟨lead ++ cs, by simp [joined, htext], fun after hafter => ?_⟩
      exact .lastItem hlead hspells hafter
    | cons j' js =>
      obtain ⟨rest, hrest, hitems⟩ := ih (by simp) (fun j hj => hprint j (by simp [hj]))
        (print (put (if first then out else out.push ',') lead) j) false
      refine ⟨lead ++ cs ++ [] ++ ',' :: rest, by simp [hrest, htext, comma],
        fun after hafter => ?_⟩
      rw [List.append_assoc, List.cons_append]
      exact .item hlead hspells blanks_nil (hitems after hafter)

theorem joined_members (hlead : Blanks lead) {space : List Char} (hspace : Blanks space)
    {fields : List (String × Json)} (hne : fields ≠ [])
    (hprint : ∀ field ∈ fields, Prints choices print depth field.2) (out : String) (first : Bool) :
    ∃ cs, (joined lead (fun out field => print (put (putString out field.1) (':' :: space)) field.2)
        out first fields).toList = out.toList ++ comma first ++ cs ∧
      ∀ after, Blanks after → Spells choices depth (.members fields) (cs ++ after) := by
  induction fields generalizing out first with
  | nil => exact absurd rfl hne
  | cons field fields ih =>
    obtain ⟨key, j⟩ := field
    obtain ⟨cs, htext, hspells⟩ := hprint (key, j) (by simp)
      (put (putString (put (if first then out else out.push ',') lead) key) (':' :: space))
    rw [toList_put, toList_putString, toList_put, toList_comma] at htext
    rw [joined]
    have hname := string_spelling key
    cases fields with
    | nil =>
      refine ⟨lead ++ ('"' :: (key.toList.flatMap escape ++ ['"'])) ++ [] ++
        ':' :: (space ++ cs), by simp [joined, htext], fun after hafter => ?_⟩
      rw [List.append_assoc, List.cons_append]
      exact .lastMember hlead hname blanks_nil hspace hspells hafter
    | cons field' fields =>
      obtain ⟨rest, hrest, hmembers⟩ := ih (by simp)
        (fun field hfield => hprint field (by simp [hfield]))
        (print (put (putString (put (if first then out else out.push ',') lead) key) (':' :: space))
          j) false
      refine ⟨lead ++ ('"' :: (key.toList.flatMap escape ++ ['"'])) ++ [] ++
        ':' :: (space ++ cs ++ [] ++ ',' :: rest), by simp [hrest, htext, comma],
        fun after hafter => ?_⟩
      have hmember := Spells.member hlead hname blanks_nil hspace hspells blanks_nil
        (hmembers after hafter)
      simpa only [List.append_assoc, List.cons_append] using hmember

theorem compactItems_eq (out : String) (first : Bool) (js : List Json) :
    compactItems out first js = joined [] compact out first js := by
  induction js generalizing out first with
  | nil => rfl
  | cons j js ih =>
    rw [compactItems, ih]
    rfl

theorem compactFields_eq (out : String) (first : Bool) (fields : List (String × Json)) :
    compactFields out first fields =
      joined [] (fun out field => compact (put (putString out field.1) [':']) field.2) out first
        fields := by
  induction fields generalizing out first with
  | nil => rfl
  | cons field fields ih =>
    rw [compactFields, ih]
    rfl

/-- What is printed on one line spells the tree. -/
theorem prints_compact (hallows : Allows choices) {j : Json} (h : Printable depth j) :
    Prints choices compact depth j := by
  induction h with
  | null => exact fun out => ⟨_, by simp [compact], .nullWord⟩
  | bool b =>
    intro out
    cases b
    · exact ⟨_, by simp [compact], .falseWord⟩
    · exact ⟨_, by simp [compact], .trueWord⟩
  | number hreadable =>
    exact fun out => ⟨_, by simp [compact], .number (hallows.literal _ hreadable)⟩
  | string s => exact fun out => ⟨_, by simp [compact], .string (string_spelling s)⟩
  | @array depth js hitems ih =>
    intro out
    by_cases hne : js = []
    · subst hne
      exact ⟨_, by simp [compact, compactItems], .emptyArray blanks_nil⟩
    · obtain ⟨cs, htext, hspells⟩ := joined_items blanks_nil hne ih
        (out.push '[') true
      refine ⟨_, ?_, .array (hspells [] blanks_nil)⟩
      simp [compact, compactItems_eq, htext, comma]
  | @object depth fields hfields ih =>
    intro out
    by_cases hne : fields = []
    · subst hne
      exact ⟨_, by simp [compact, compactFields], .emptyObject blanks_nil⟩
    · obtain ⟨cs, htext, hspells⟩ := joined_members blanks_nil blanks_nil hne ih (out.push '{') true
      refine ⟨_, ?_, .object (hallows.order _) (hspells [] blanks_nil)⟩
      simp [compact, compactFields_eq, htext, comma]

theorem prettyItems_eq (level : Nat) (out : String) (first : Bool) (js : List Json) :
    prettyItems level out first js =
      joined ('\n' :: List.replicate (2 * level) ' ') (pretty level) out first js := by
  induction js generalizing out first with
  | nil => simp [prettyItems, joined]
  | cons j js ih =>
    rw [prettyItems, ih]
    rfl

theorem prettyFields_eq (level : Nat) (out : String) (first : Bool)
    (fields : List (String × Json)) :
    prettyFields level out first fields =
      joined ('\n' :: List.replicate (2 * level) ' ')
        (fun out field => pretty level (put (putString out field.1) [':', ' ']) field.2) out first
        fields := by
  induction fields generalizing out first with
  | nil => simp [prettyFields, joined]
  | cons field fields ih =>
    have hcolon (out : String) : out ++ ": " = put out [':', ' '] := by
      rw [← String.toList_inj]
      simp
    obtain ⟨key, j⟩ := field
    rw [prettyFields, ih, hcolon]
    rfl

/-- The line break before an entry. -/
theorem blanks_newline (level : Nat) : Blanks ('\n' :: List.replicate (2 * level) ' ') := by
  intro c hc
  rcases List.mem_cons.mp hc with rfl | hc
  · rfl
  · rw [List.eq_of_mem_replicate hc]
    rfl

/-- What is printed over several lines spells the tree. -/
theorem prints_pretty (hallows : Allows choices) {j : Json} (h : Printable depth j) (level : Nat) :
    Prints choices (pretty level) depth j := by
  induction h generalizing level with
  | null => exact fun out => ⟨_, by simp [pretty], .nullWord⟩
  | bool b =>
    intro out
    cases b
    · exact ⟨_, by simp [pretty], .falseWord⟩
    · exact ⟨_, by simp [pretty], .trueWord⟩
  | number hreadable =>
    exact fun out => ⟨_, by simp [pretty], .number (hallows.literal _ hreadable)⟩
  | string s => exact fun out => ⟨_, by simp [pretty], .string (string_spelling s)⟩
  | @array depth js hitems ih =>
    intro out
    match js, ih with
    | [], _ => exact ⟨_, by simp [pretty], .emptyArray blanks_nil⟩
    | j :: js, ih =>
      obtain ⟨cs, htext, hspells⟩ := joined_items (blanks_newline (level + 1)) (by simp)
        (fun j hj => ih j hj (level + 1)) (out.push '[') true
      refine ⟨_, ?_, .array (hspells _ (blanks_newline level))⟩
      simp [pretty, prettyItems_eq, newline, htext, comma]
  | @object depth fields hfields ih =>
    intro out
    match fields, ih with
    | [], _ => exact ⟨_, by simp [pretty], .emptyObject blanks_nil⟩
    | field :: fields, ih =>
      obtain ⟨cs, htext, hspells⟩ := joined_members (blanks_newline (level + 1))
        (show Blanks [' '] by simp [Blanks, isBlank]) (by simp)
        (fun field hfield => ih field hfield (level + 1))
        (out.push '{') true
      refine ⟨_, ?_, .object (hallows.order _) (hspells _ (blanks_newline level))⟩
      simp [pretty, prettyFields_eq, newline, htext, comma]

end Printer

/-- A tree printed on one line is read back. -/
theorem Document.ofString_text {j : Json} (h : Printable maxDepth j) :
    Document.ofString j.text = ⟨j, true⟩ := by
  obtain ⟨cs, htext, hspells⟩ := Printer.prints_compact Printer.allows_asRead h ""
  exact ofString_spelling (by simpa [text] using htext) blanks_nil hspells blanks_nil

/-- A tree printed over several lines is read back. -/
theorem Document.ofString_prettyText {j : Json} (h : Printable maxDepth j) :
    Document.ofString j.prettyText = ⟨j, true⟩ := by
  obtain ⟨cs, htext, hspells⟩ := Printer.prints_pretty Printer.allows_asRead h 0 ""
  exact ofString_spelling (by simpa [prettyText] using htext) blanks_nil hspells blanks_nil

namespace Printer

/-- A printer that puts the same characters behind whatever it is given, and no line feed. -/
def OneLine {α : Type} (print : String → α → String) (a : α) : Prop :=
  ∃ cs, '\n' ∉ cs ∧ ∀ out, (print out a).toList = out.toList ++ cs

theorem newline_not_mem_escape (c : Char) : '\n' ∉ escape c := by
  by_cases hcontrol : c.toNat < 0x20
  · -- control characters are few enough to go through
    have hall : ∀ n < 0x20, '\n' ∉ escape (Char.ofNat n) := by decide
    have hc := hall c.toNat hcontrol
    rwa [Char.ofNat_toNat] at hc
  · unfold escape
    repeat' split
    case isFalse =>
      rw [List.mem_singleton]
      rintro rfl
      exact hcontrol (by decide)
    all_goals first | contradiction | decide

theorem newline_not_mem_escapes (cs : List Char) : '\n' ∉ cs.flatMap escape := by
  rw [List.mem_flatMap]
  rintro ⟨c, -, hmem⟩
  exact newline_not_mem_escape c hmem

theorem newline_not_mem_number {n : JsonNumber} (h : n.Readable) : '\n' ∉ number n := by
  intro hmem
  exact absurd (Reader.number?_noBlank (number?_printed h) '\n' hmem) (by decide)

/-- Entries on one line, with commas between them, stand on one line. -/
theorem oneLine_joined {α : Type} {print : String → α → String} {entries : List α}
    (h : ∀ a ∈ entries, OneLine print a) (first : Bool) :
    ∃ cs, '\n' ∉ cs ∧
      ∀ out, (joined [] print out first entries).toList = out.toList ++ cs := by
  induction entries generalizing first with
  | nil => exact ⟨[], List.not_mem_nil, fun out => (List.append_nil _).symm⟩
  | cons a rest ih =>
    rw [List.forall_mem_cons] at h
    obtain ⟨⟨entry, hentry, hprint⟩, hrest⟩ := h
    obtain ⟨later, hlater, hjoined⟩ := ih hrest false
    refine ⟨comma first ++ entry ++ later, ?_, fun out => ?_⟩
    · cases first <;> simp [comma, hentry, hlater]
    · rw [joined, hjoined, hprint, toList_put, toList_comma]
      simp only [List.append_nil, List.append_assoc]

theorem oneLine_fields {fields : List (String × Json)}
    (h : ∀ field ∈ fields, OneLine compact field.2) :
    ∃ cs, '\n' ∉ cs ∧ ∀ out, (compactFields out true fields).toList = out.toList ++ cs := by
  have hmembers : ∀ field ∈ fields, OneLine
      (fun out (field : String × Json) => compact (put (putString out field.1) [':']) field.2)
      field := by
    intro field hfield
    obtain ⟨cs, hcs, hprint⟩ := h field hfield
    refine ⟨'"' :: (field.1.toList.flatMap escape ++ ['"']) ++ ':' :: cs, ?_, fun out => ?_⟩
    · simpa [hcs] using newline_not_mem_escapes field.1.toList
    · simp [hprint]
  obtain ⟨cs, hcs, hjoined⟩ := oneLine_joined hmembers true
  exact ⟨cs, hcs, fun out => by rw [compactFields_eq, hjoined]⟩

theorem oneLine_compact {depth : Nat} {j : Json} (h : Printable depth j) : OneLine compact j := by
  induction h with
  | null => exact ⟨['n', 'u', 'l', 'l'], by decide, fun out => by simp [compact]⟩
  | bool b =>
    cases b
    · exact ⟨['f', 'a', 'l', 's', 'e'], by decide, fun out => by simp [compact]⟩
    · exact ⟨['t', 'r', 'u', 'e'], by decide, fun out => by simp [compact]⟩
  | number hreadable =>
    exact ⟨_, newline_not_mem_number hreadable, fun out => by rw [compact, toList_put]⟩
  | string s =>
    refine ⟨_, ?_, fun out => by rw [compact, toList_putString]⟩
    simpa using newline_not_mem_escapes s.toList
  | array hitems ih =>
    obtain ⟨cs, hcs, hjoined⟩ := oneLine_joined ih true
    refine ⟨'[' :: (cs ++ [']']), by simp [hcs], fun out => ?_⟩
    simp [compact, compactItems_eq, hjoined]
  | object hfields ih =>
    obtain ⟨cs, hcs, hjoined⟩ := oneLine_fields ih
    refine ⟨'{' :: (cs ++ ['}']), by simp [hcs], fun out => ?_⟩
    simp [compact, hjoined]

end Printer

variable {depth : Nat} {j : Json}

/-- A tree is printed behind a text as it is printed alone. -/
theorem toList_compact (h : Printable depth j) (out : String) :
    (Printer.compact out j).toList = out.toList ++ j.text.toList := by
  obtain ⟨cs, -, hprint⟩ := Printer.oneLine_compact h
  rw [text, hprint, hprint]
  rfl

theorem newline_not_mem_text (h : Printable depth j) : '\n' ∉ j.text.toList := by
  obtain ⟨cs, hcs, hprint⟩ := Printer.oneLine_compact h
  rw [text, hprint]
  simpa using hcs

theorem toList_text_record {fields : List (String × Json)}
    (h : ∀ field ∈ fields, Printable depth field.2) :
    ∃ cs, (Json.record fields).text.toList = '{' :: cs := by
  obtain ⟨cs, -, hprint⟩ := Printer.oneLine_fields fun field hfield =>
    Printer.oneLine_compact (h field hfield)
  refine ⟨cs ++ ['}'], ?_⟩
  simp [text, Json.record, Printer.compact, hprint]

theorem toList_text_single (h : Printable depth j) (key : String) :
    (Json.record [(key, j)]).text.toList =
      '{' :: '"' :: (key.toList.flatMap Printer.escape ++
        '"' :: ':' :: (j.text.toList ++ ['}'])) := by
  have hvalue := toList_compact h
  rw [text, Json.record, Printer.compact, Printer.compactFields, Printer.compactFields]
  simp only [String.toList_push, hvalue, Printer.toList_putString]
  simp

/-- The text of an object of one field whose key needs no escapes. -/
theorem text_single (h : Printable depth j) {key : String}
    (hplain : key.toList.flatMap Printer.escape = key.toList) :
    (Json.record [(key, j)]).text = "\x7b\"" ++ key ++ "\":" ++ j.text ++ "\x7d" := by
  rw [← String.toList_inj, toList_text_single h, hplain]
  simp

end Json

end TensorParity
