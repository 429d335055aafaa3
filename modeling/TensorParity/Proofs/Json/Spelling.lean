import TensorParity.Proofs.Json.Number

/-!
The texts of a tree. A tree may be spelled with any blanks between its tokens and any escapes in its
strings. Whether a number may have other literals than those read as it, and an object another order
of its fields, is for the user to say; where neither is so, the reader yields the tree for each of
its texts. Texts that break off are not covered.
-/
namespace TensorParity

namespace Json

/-- Nothing but blanks. -/
def Blanks (cs : List Char) : Prop := ∀ c ∈ cs, isBlank c = true

theorem blanks_nil : Blanks [] := by simp [Blanks]

/-- How one character may stand inside a string. -/
inductive CharSpelling : Char → List Char → Prop where
  | plain {c : Char} (hprintable : 0x20 ≤ c.toNat) (hquote : c ≠ '"') (hslash : c ≠ '\\') :
      CharSpelling c [c]
  | short {e c : Char} (hescape : Reader.escaped? e = some c) : CharSpelling c ['\\', e]
  | unit {a b c d : Char} {n : Nat} (hdigits : Reader.hex4? a b c d = some n)
      (hhigh : Reader.isHighSurrogate n = false) (hlow : Reader.isLowSurrogate n = false) :
      CharSpelling (Char.ofNat n) ['\\', 'u', a, b, c, d]
  | pair {a b c d a' b' c' d' : Char} {high low : Nat}
      (hdigits : Reader.hex4? a b c d = some high)
      (hdigits' : Reader.hex4? a' b' c' d' = some low)
      (hhigh : Reader.isHighSurrogate high = true) (hlow : Reader.isLowSurrogate low = true) :
      CharSpelling (Reader.joinSurrogates high low)
        ['\\', 'u', a, b, c, d, '\\', 'u', a', b', c', d']

/-- How characters may stand between the quotes of a string. -/
inductive CharsSpelling : List Char → List Char → Prop where
  | nil : CharsSpelling [] []
  | cons {c : Char} {s spelled rest : List Char} (hhead : CharSpelling c spelled)
      (htail : CharsSpelling s rest) : CharsSpelling (c :: s) (spelled ++ rest)

/-- A string between its quotes. -/
inductive StringSpelling : String → List Char → Prop where
  | quoted {s : List Char} {cs : List Char} (hchars : CharsSpelling s cs) :
      StringSpelling (String.ofList s) ('"' :: (cs ++ ['"']))

/-- What a stretch of text stands for. -/
inductive Part where
  | value (j : Json)
  /-- Items with the commas between them. -/
  | items (js : List Json)
  | members (fields : List (String × Json))

/-- What a text may choose beside blanks and escapes. -/
structure Choices where
  /-- The literals of a number. -/
  literal : JsonNumber → List Char → Prop
  /-- The orders in which the fields of an object may stand. -/
  order : List (String × Json) → List (String × Json) → Prop

/-- The literals that are read as the very number, and fields in the order of the tree. -/
def Choices.asRead : Choices := ⟨fun n cs => Reader.number? cs = some (n, []), (· = ·)⟩

/-- The texts of a part of a tree whose containers nest at most so deep. Blanks belong to the items
and members around which they stand; a value by itself has none at its ends. -/
inductive Spells (choices : Choices) : (depth : Nat) → Part → List Char → Prop where
  | nullWord {depth : Nat} : Spells choices depth (.value .null) ['n', 'u', 'l', 'l']
  | trueWord {depth : Nat} : Spells choices depth (.value (.bool true)) ['t', 'r', 'u', 'e']
  | falseWord {depth : Nat} : Spells choices depth (.value (.bool false)) ['f', 'a', 'l', 's', 'e']
  | number {depth : Nat} {n : JsonNumber} {cs : List Char}
      (hliteral : choices.literal n cs) : Spells choices depth (.value (.number n)) cs
  | string {depth : Nat} {s : String} {cs : List Char} (hstring : StringSpelling s cs) :
      Spells choices depth (.value (.string s)) cs
  | emptyArray {depth : Nat} {blanks : List Char} (hblanks : Blanks blanks) :
      Spells choices (depth + 1) (.value (.array [])) ('[' :: (blanks ++ [']']))
  | array {depth : Nat} {js : List Json} {cs : List Char}
      (hitems : Spells choices depth (.items js) cs) :
      Spells choices (depth + 1) (.value (.array js)) ('[' :: (cs ++ [']']))
  | emptyObject {depth : Nat} {blanks : List Char} (hblanks : Blanks blanks) :
      Spells choices (depth + 1) (.value (.object [] true)) ('{' :: (blanks ++ ['}']))
  | object {depth : Nat} {fields ordered : List (String × Json)} {cs : List Char}
      (horder : choices.order fields ordered)
      (hmembers : Spells choices depth (.members ordered) cs) :
      Spells choices (depth + 1) (.value (.object fields true)) ('{' :: (cs ++ ['}']))
  | lastItem {depth : Nat} {j : Json} {before cs after : List Char} (hbefore : Blanks before)
      (hvalue : Spells choices depth (.value j) cs) (hafter : Blanks after) :
      Spells choices depth (.items [j]) (before ++ cs ++ after)
  | item {depth : Nat} {j : Json} {js : List Json} {before cs after rest : List Char}
      (hbefore : Blanks before) (hvalue : Spells choices depth (.value j) cs)
      (hafter : Blanks after) (hitems : Spells choices depth (.items js) rest) :
      Spells choices depth (.items (j :: js)) (before ++ cs ++ after ++ ',' :: rest)
  | lastMember {depth : Nat} {key : String} {j : Json}
      {before name colon space cs after : List Char}
      (hbefore : Blanks before) (hname : StringSpelling key name) (hcolon : Blanks colon)
      (hspace : Blanks space) (hvalue : Spells choices depth (.value j) cs)
      (hafter : Blanks after) :
      Spells choices depth (.members [(key, j)])
        (before ++ name ++ colon ++ ':' :: (space ++ cs ++ after))
  | member {depth : Nat} {key : String} {j : Json} {fields : List (String × Json)}
      {before name colon space cs after rest : List Char}
      (hbefore : Blanks before) (hname : StringSpelling key name) (hcolon : Blanks colon)
      (hspace : Blanks space) (hvalue : Spells choices depth (.value j) cs)
      (hafter : Blanks after) (hmembers : Spells choices depth (.members fields) rest) :
      Spells choices depth (.members ((key, j) :: fields))
        (before ++ name ++ colon ++ ':' :: (space ++ cs ++ after ++ ',' :: rest))

theorem skipBlank_append {blanks rest : List Char} (h : Blanks blanks) :
    skipBlank (blanks ++ rest) = skipBlank rest :=
  List.dropWhile_append_of_pos h

theorem skipBlank_cons {c : Char} {rest : List Char} (h : isBlank c = false) :
    skipBlank (c :: rest) = c :: rest := by
  simp [skipBlank, h]

theorem skipBlank_skipBlank (cs : List Char) : skipBlank (skipBlank cs) = skipBlank cs :=
  List.dropWhile_idempotent isBlank cs

/-- No blank continues a number. -/
theorem endsNumber_append {blanks rest : List Char} (h : Blanks blanks) (hrest : EndsNumber rest) :
    EndsNumber (blanks ++ rest) := by
  cases blanks with
  | nil => exact hrest
  | cons c blanks =>
    intro c' hc'
    obtain rfl : c = c' := by simpa using hc'
    have hc : isBlank c = true := h c (by simp)
    simp only [isBlank, Bool.or_eq_true, decide_eq_true_eq] at hc
    rcases hc with ((rfl | rfl) | rfl) | rfl <;> decide

theorem endsNumber_cons {c : Char} {rest : List Char}
    (h : c.isDigit = false ∧ c ≠ '.' ∧ c ≠ 'e' ∧ c ≠ 'E') : EndsNumber (c :: rest) := by
  intro c' hc'
  obtain rfl : c = c' := by simpa using hc'
  exact h

namespace Reader

/-- A spelled character is taken off the text and put to those already read. -/
private theorem string?_char {c : Char} {cs : List Char} (h : CharSpelling c cs)
    (read rest : List Char) : string? read (cs ++ rest) = string? (c :: read) rest := by
  cases h with
  | plain hprintable hquote hslash =>
    rw [List.singleton_append, string?.eq_4 _ _ _ (by simpa using hquote) (by simp [hslash])
      (by simp [hslash]), if_neg (by simp only [hslash, or_false]; omega)]
  | short hescape =>
    rename_i e
    have he : e ≠ 'u' := by
      rintro rfl
      simp [escaped?] at hescape
    simp [string?, he, hescape]
  | unit hdigits hhigh hlow => simp [string?, hdigits, hhigh, hlow]
  | pair hdigits hdigits' hhigh hlow =>
    rename_i high low
    have hnotLow : isLowSurrogate high = false := by
      simp only [isHighSurrogate, isLowSurrogate, Bool.and_eq_true, decide_eq_true_eq] at hhigh ⊢
      simp
      omega
    simp [string?, hdigits, hdigits', hhigh, hlow, hnotLow]

theorem string?_spelling {s cs : List Char} (h : CharsSpelling s cs) (read rest : List Char) :
    string? read (cs ++ '"' :: rest) = some (String.ofList (read.reverse ++ s), rest) := by
  induction h generalizing read with
  | nil => simp [string?]
  | cons hhead htail ih =>
    rw [List.append_assoc, string?_char hhead, ih]
    simp

theorem value_number {depth fuel : Nat} {c : Char} {cs : List Char}
    (h : c = '-' ∨ c.isDigit = true) :
    value depth (fuel + 1) (c :: cs) =
      match number? (c :: cs) with
      | some (n, rest) => (.number n, some rest)
      | none => (.broken, none) := by
  simp only [value, skipBlank_cons (isBlank_number h)]
  split
  all_goals first
    | rename_i heq
      obtain ⟨rfl, -⟩ := List.cons.inj heq
      simp [Char.isDigit] at h
    | rfl

theorem value_skipBlank {depth fuel : Nat} (cs : List Char) :
    value depth fuel (skipBlank cs) = value depth fuel cs := by
  cases fuel with
  | zero => rw [value_zero, value_zero]
  | succ fuel => simp only [value, skipBlank_skipBlank]

theorem items_skipBlank {depth fuel : Nat} {read : List Json} (cs : List Char) :
    items depth fuel read (skipBlank cs) = items depth fuel read cs := by
  cases fuel with
  | zero => rw [items_zero, items_zero]
  | succ fuel => simp only [items, value_skipBlank]

theorem members_skipBlank {depth fuel : Nat} {read : List (String × Json)} (cs : List Char) :
    members depth fuel read (skipBlank cs) = members depth fuel read cs := by
  cases fuel with
  | zero => rw [members_zero, members_zero]
  | succ fuel => simp only [members, skipBlank_skipBlank]

/-- The first character that is no blank, with what follows it. -/
theorem skipBlank_append_of_cons {cs rest tail : List Char} {c : Char}
    (h : skipBlank cs = c :: tail) : skipBlank (cs ++ rest) = c :: (tail ++ rest) := by
  unfold skipBlank at h ⊢
  rw [List.dropWhile_append, h]
  rfl

theorem value_array {depth fuel : Nat} {cs tail : List Char} {c : Char}
    (h : skipBlank cs = c :: tail) (hc : c ≠ ']') :
    value (depth + 1) (fuel + 1) ('[' :: cs) = items depth fuel [] cs := by
  simp only [value, skipBlank_cons (c := '[') (by decide)]
  rw [← items_skipBlank cs, h]
  split
  · rename_i heq
    exact absurd (List.cons.inj heq).1 hc
  · rfl

theorem value_object {depth fuel : Nat} {cs tail : List Char} {c : Char}
    (h : skipBlank cs = c :: tail) (hc : c ≠ '}') :
    value (depth + 1) (fuel + 1) ('{' :: cs) = members depth fuel [] cs := by
  simp only [value, skipBlank_cons (c := '{') (by decide)]
  rw [← members_skipBlank cs, h]
  split
  · rename_i heq
    exact absurd (List.cons.inj heq).1 hc
  · rfl

/-- A member up to its value. -/
theorem members_name {depth fuel : Nat} {read : List (String × Json)} {key : String}
    {before name colon rest : List Char} (hbefore : Blanks before) (hname : StringSpelling key name)
    (hcolon : Blanks colon) :
    members depth (fuel + 1) read (before ++ (name ++ (colon ++ ':' :: rest))) =
      match value depth fuel rest with
      | (v, none) => (.object ((key, v) :: read).reverse false, none)
      | (v, some rest) =>
        match skipBlank rest with
        | ',' :: rest => members depth fuel ((key, v) :: read) rest
        | '}' :: rest => (.object ((key, v) :: read).reverse true, some rest)
        | _ => (.object ((key, v) :: read).reverse false, none) := by
  obtain ⟨hchars⟩ := hname
  have hread := string?_spelling hchars [] (colon ++ ':' :: rest)
  simp only [List.reverse_nil, List.nil_append] at hread
  simp only [members, skipBlank_append hbefore, List.cons_append, List.append_assoc,
    List.nil_append, skipBlank_cons (c := '"') (by decide), hread, skipBlank_append hcolon,
    skipBlank_cons (c := ':') (by decide)] <;> rfl

/-- What the reader does with the texts of a part. Fuel for two steps a character is enough. -/
def Reads (depth : Nat) : Part → List Char → Prop
  | .value j, cs => ∀ fuel rest, 2 * cs.length ≤ fuel → EndsNumber rest →
      value depth fuel (cs ++ rest) = (j, some rest)
  | .items js, cs => ∀ fuel read rest, 2 * cs.length + 1 ≤ fuel →
      items depth fuel read (cs ++ ']' :: rest) = (.array (read.reverse ++ js), some rest)
  | .members fields, cs => ∀ fuel read rest, 2 * cs.length + 1 ≤ fuel →
      members depth fuel read (cs ++ '}' :: rest) =
        (.object (read.reverse ++ fields) true, some rest)

/-- A value with blanks around it, where what follows them cannot continue a number. -/
theorem value_spaced {depth fuel : Nat} {j : Json} {before cs after rest : List Char} {c : Char}
    (hbefore : Blanks before) (hvalue : Reads depth (.value j) cs) (hafter : Blanks after)
    (hfuel : 2 * cs.length ≤ fuel)
    (hc : c.isDigit = false ∧ c ≠ '.' ∧ c ≠ 'e' ∧ c ≠ 'E') :
    value depth fuel (before ++ (cs ++ (after ++ c :: rest))) = (j, some (after ++ c :: rest)) := by
  rw [← value_skipBlank, skipBlank_append hbefore, value_skipBlank]
  exact hvalue fuel _ hfuel (endsNumber_append hafter (endsNumber_cons hc))

/-- The first character of a part that is no blank. -/
def Starts : Part → List Char → Prop
  | .value _, cs => ∃ c tail, cs = c :: tail ∧ isBlank c = false ∧ c ≠ ']'
  | .items _, cs => ∃ c tail, skipBlank cs = c :: tail ∧ c ≠ ']'
  | .members _, cs => ∃ c tail, skipBlank cs = c :: tail ∧ c ≠ '}'

theorem starts_of_spells {depth : Nat} {part : Part} {cs : List Char}
    (h : Spells .asRead depth part cs) : Starts part cs := by
  have hitem {before cs rest : List Char} {j : Json} (hbefore : Blanks before)
      (hvalue : Starts (.value j) cs) :
      ∃ c tail, skipBlank (before ++ cs ++ rest) = c :: tail ∧ c ≠ ']' := by
    obtain ⟨c, tail, rfl, hblank, hc⟩ := hvalue
    rw [List.append_assoc, skipBlank_append hbefore, List.cons_append, skipBlank_cons hblank]
    exact ⟨c, _, rfl, hc⟩
  have hmember {before name rest : List Char} {key : String} (hbefore : Blanks before)
      (hname : StringSpelling key name) :
      ∃ c tail, skipBlank (before ++ name ++ rest) = c :: tail ∧ c ≠ '}' := by
    obtain ⟨-⟩ := hname
    rw [List.append_assoc, skipBlank_append hbefore, List.cons_append, skipBlank_cons (by decide)]
    exact ⟨'"', _, rfl, by decide⟩
  induction h with
  | nullWord | trueWord | falseWord | emptyArray | array | emptyObject | object =>
    exact ⟨_, _, rfl, by decide, by decide⟩
  | number hliteral =>
    obtain ⟨c, hc, hkind⟩ := number?_head hliteral
    obtain ⟨tail, rfl⟩ := List.head?_eq_some_iff.mp hc
    refine ⟨c, tail, rfl, isBlank_number hkind, ?_⟩
    rintro rfl
    simp [Char.isDigit] at hkind
  | string hstring =>
    obtain ⟨-⟩ := hstring
    exact ⟨_, _, rfl, by decide, by decide⟩
  | lastItem hbefore _ _ ih => exact hitem hbefore ih
  | item hbefore _ _ _ ih _ =>
    rw [Starts, List.append_assoc _ _ (',' :: _)]
    exact hitem hbefore ih
  | lastMember hbefore hname =>
    rw [Starts, List.append_assoc _ _ (':' :: _)]
    exact hmember hbefore hname
  | member hbefore hname =>
    rw [Starts, List.append_assoc _ _ (':' :: _)]
    exact hmember hbefore hname

end Reader

/-- The reader yields a part from each of its texts. -/
theorem Spells.reads {depth : Nat} {part : Part} {cs : List Char}
    (h : Spells .asRead depth part cs) : Reader.Reads depth part cs := by
  induction h with
  | nullWord | trueWord | falseWord =>
    intro fuel rest hfuel _
    obtain ⟨fuel, rfl⟩ : ∃ k, fuel = k + 1 := ⟨fuel - 1, by simp at hfuel; omega⟩
    rfl
  | number hliteral =>
    intro fuel rest hfuel hrest
    obtain ⟨c, hc, hkind⟩ := Reader.number?_head hliteral
    obtain ⟨tail, rfl⟩ := List.head?_eq_some_iff.mp hc
    obtain ⟨fuel, rfl⟩ : ∃ k, fuel = k + 1 := ⟨fuel - 1, by simp at hfuel; omega⟩
    have hread := Reader.number?_append hliteral hrest
    rw [List.cons_append] at hread ⊢
    rw [Reader.value_number hkind, hread]
  | string hstring =>
    intro fuel rest hfuel _
    obtain ⟨hchars⟩ := hstring
    obtain ⟨fuel, rfl⟩ : ∃ k, fuel = k + 1 := ⟨fuel - 1, by simp at hfuel; omega⟩
    have hread := Reader.string?_spelling hchars [] rest
    simp only [List.reverse_nil, List.nil_append] at hread
    simp [Reader.value, skipBlank_cons (c := '"') (by decide), hread]
  | emptyArray hblanks =>
    intro fuel rest hfuel _
    obtain ⟨fuel, rfl⟩ : ∃ k, fuel = k + 1 := ⟨fuel - 1, by simp at hfuel; omega⟩
    simp [Reader.value, skipBlank_cons (c := '[') (by decide), skipBlank_append hblanks,
      skipBlank_cons (c := ']') (by decide)]
  | array hitems ih =>
    intro fuel rest hfuel _
    obtain ⟨fuel, rfl⟩ : ∃ k, fuel = k + 1 := ⟨fuel - 1, by simp at hfuel; omega⟩
    obtain ⟨c, tail, hstart, hc⟩ := Reader.starts_of_spells hitems
    simp only [List.length_cons, List.length_append, List.length_nil] at hfuel
    rw [List.cons_append, List.append_assoc, List.singleton_append,
      Reader.value_array (Reader.skipBlank_append_of_cons hstart) hc]
    exact ih fuel [] rest (by omega)
  | emptyObject hblanks =>
    intro fuel rest hfuel _
    obtain ⟨fuel, rfl⟩ : ∃ k, fuel = k + 1 := ⟨fuel - 1, by simp at hfuel; omega⟩
    simp [Reader.value, skipBlank_cons (c := '{') (by decide), skipBlank_append hblanks,
      skipBlank_cons (c := '}') (by decide)]
  | object horder hmembers ih =>
    obtain rfl := horder
    intro fuel rest hfuel _
    obtain ⟨fuel, rfl⟩ : ∃ k, fuel = k + 1 := ⟨fuel - 1, by simp at hfuel; omega⟩
    obtain ⟨c, tail, hstart, hc⟩ := Reader.starts_of_spells hmembers
    simp only [List.length_cons, List.length_append, List.length_nil] at hfuel
    rw [List.cons_append, List.append_assoc, List.singleton_append,
      Reader.value_object (Reader.skipBlank_append_of_cons hstart) hc]
    exact ih fuel [] rest (by omega)
  | lastItem hbefore hvalue hafter ih =>
    intro fuel read rest hfuel
    obtain ⟨fuel, rfl⟩ : ∃ k, fuel = k + 1 := ⟨fuel - 1, by omega⟩
    simp only [List.length_append] at hfuel
    rw [List.append_assoc, List.append_assoc, Reader.items,
      Reader.value_spaced hbefore ih hafter (by omega) (by decide)]
    simp [skipBlank_append hafter, skipBlank_cons (c := ']') (by decide)]
  | item hbefore hvalue hafter hitems ih ihItems =>
    intro fuel read rest hfuel
    obtain ⟨fuel, rfl⟩ : ∃ k, fuel = k + 1 := ⟨fuel - 1, by omega⟩
    simp only [List.length_append, List.length_cons] at hfuel
    rw [List.append_assoc, List.append_assoc, List.append_assoc, List.cons_append, Reader.items,
      Reader.value_spaced hbefore ih hafter (by omega) (by decide)]
    simp [skipBlank_append hafter, skipBlank_cons (c := ',') (by decide),
      ihItems fuel _ _ (by omega)]
  | lastMember hbefore hname hcolon hspace hvalue hafter ih =>
    intro fuel read rest hfuel
    obtain ⟨fuel, rfl⟩ : ∃ k, fuel = k + 1 := ⟨fuel - 1, by omega⟩
    simp only [List.length_append, List.length_cons] at hfuel
    simp only [List.append_assoc, List.cons_append]
    rw [Reader.members_name hbefore hname hcolon,
      Reader.value_spaced hspace ih hafter (by omega) (by decide)]
    simp [skipBlank_append hafter, skipBlank_cons (c := '}') (by decide)]
  | member hbefore hname hcolon hspace hvalue hafter hmembers ih ihMembers =>
    intro fuel read rest hfuel
    obtain ⟨fuel, rfl⟩ : ∃ k, fuel = k + 1 := ⟨fuel - 1, by omega⟩
    simp only [List.length_append, List.length_cons] at hfuel
    simp only [List.append_assoc, List.cons_append]
    rw [Reader.members_name hbefore hname hcolon,
      Reader.value_spaced hspace ih hafter (by omega) (by decide)]
    simp [skipBlank_append hafter, skipBlank_cons (c := ',') (by decide),
      ihMembers fuel _ _ (by omega)]

/-- A whole text is read as the tree it spells, with any blanks around it. -/
theorem Document.ofChars_spelling {j : Json} {before cs after : List Char} (hbefore : Blanks before)
    (h : Spells .asRead maxDepth (.value j) cs) (hafter : Blanks after) :
    Document.ofChars (before ++ cs ++ after) = ⟨j, true⟩ := by
  have hend : EndsNumber after := by
    simpa using endsNumber_append hafter endsNumber_nil
  have hread := h.reads (2 * (before ++ cs ++ after).length + 2) after
    (by simp only [List.length_append]; omega) hend
  have hblank : skipBlank after = [] := List.dropWhile_eq_nil_iff.mpr hafter
  rw [Document.ofChars, ← Reader.value_skipBlank, List.append_assoc, skipBlank_append hbefore,
    Reader.value_skipBlank, ← List.append_assoc, hread]
  simp [hblank]

theorem rdropWhile_append {cs blanks : List Char} (h : Blanks blanks) :
    (cs ++ blanks).rdropWhile isBlank = cs.rdropWhile isBlank := by
  have hreverse : ∀ c ∈ blanks.reverse, isBlank c = true := fun c hc => h c (List.mem_reverse.mp hc)
  simp only [List.rdropWhile, List.reverse_append, List.dropWhile_append_of_pos hreverse]

theorem rdropWhile_eq_self {cs : List Char} (h : ∀ c ∈ cs.getLast?, isBlank c = false) :
    cs.rdropWhile isBlank = cs := by
  refine List.rdropWhile_eq_self_iff.mpr fun hne => ?_
  simpa using h (cs.getLast hne) (List.getLast?_eq_some_getLast hne)

/-- A value by itself does not end in a blank. -/
theorem Spells.lastChar {depth : Nat} {j : Json} {cs : List Char}
    (h : Spells .asRead depth (.value j) cs) : ∀ c ∈ cs.getLast?, isBlank c = false := by
  have hlast {c : Char} {cs : List Char} (x : Char) (hx : isBlank x = false) :
      ∀ c' ∈ (c :: (cs ++ [x])).getLast?, isBlank c' = false := by
    intro c' hc'
    rw [← List.cons_append, List.getLast?_append] at hc'
    obtain rfl : x = c' := by simpa using hc'
    exact hx
  cases h with
  | nullWord | trueWord | falseWord =>
    intro c hc
    obtain rfl := Option.some.inj hc
    rfl
  | number hliteral => exact fun c hc => Reader.number?_noBlank hliteral c (List.mem_of_getLast? hc)
  | string hstring =>
    obtain ⟨-⟩ := hstring
    exact hlast '"' (by decide)
  | emptyArray | array => exact hlast ']' (by decide)
  | emptyObject | object => exact hlast '}' (by decide)

/-- Blanks at the end of a text are not part of what is read. -/
theorem Document.ofString_eq (text : String) :
    Document.ofString text = Document.ofChars (text.toList.rdropWhile isBlank) := by
  have hsplit : (text.toSlice.dropEndWhile isBlank).copy ++
      (text.toSlice.takeEndWhile isBlank).copy = text := by
    rw [String.Slice.dropEndWhile_append_takeEndWhile, String.copy_toSlice]
  have hend : (text.toSlice.dropEndWhile isBlank).endsWith isBlank = false :=
    String.Slice.endsWith_dropEndWhile
  have hall : (text.toSlice.takeEndWhile isBlank).revAll isBlank = true :=
    String.Slice.revAll_takeEndWhile
  rw [String.Slice.endsWith_bool_eq_getLast?] at hend
  rw [String.Slice.revAll_bool_eq] at hall
  have hdrop : text.toList.rdropWhile isBlank =
      (text.toSlice.dropEndWhile isBlank).copy.toList := by
    conv_lhs => rw [← hsplit, String.toList_append]
    rw [rdropWhile_append (List.all_eq_true.mp hall)]
    refine rdropWhile_eq_self fun c hc => ?_
    rw [Option.mem_def.mp hc] at hend
    exact hend
  rw [hdrop]
  rfl

/-- A text is read as the tree it spells. -/
theorem Document.ofString_spelling {j : Json} {text : String} {before cs after : List Char}
    (htext : text.toList = before ++ cs ++ after) (hbefore : Blanks before)
    (h : Spells .asRead maxDepth (.value j) cs) (hafter : Blanks after) :
    Document.ofString text = ⟨j, true⟩ := by
  have hkept : (before ++ cs).rdropWhile isBlank = before ++ cs := by
    obtain ⟨c, tail, hcs, -⟩ := Reader.starts_of_spells h
    refine rdropWhile_eq_self fun c hc => ?_
    rw [List.getLast?_append_of_ne_nil _ (by simp [hcs])] at hc
    exact h.lastChar c hc
  have hread := Document.ofChars_spelling hbefore h blanks_nil
  rw [List.append_nil] at hread
  rw [Document.ofString_eq, htext, rdropWhile_append hafter, hkept, hread]

end Json

end TensorParity
