import TensorParity.Proofs.Json.Decode

/-!
What the reader can yield. Every number of a tree that was read is one that some literal spells, so
a typed reader that takes a double from it takes a finite one.
-/
namespace TensorParity

open BinaryFormat

theorem Decimal.nearest_le_infinity (d : Decimal) : d.nearest ≤ binary64.infinity := by
  simp only [nearest]
  split
  · exact Nat.zero_le _
  · split
    · exact Nat.le_refl _
    · split
      · exact Nat.zero_le _
      · exact BinaryFormat.nearest_le_infinity _ _ _

/-- An integer of a word is far from the end of the range. -/
theorem Decimal.nearest_word {n : Nat} (h : n < Shape.wordLimit) :
    (Decimal.mk n 0).nearest < binary64.infinity := by
  simp only [nearest]
  split
  · decide
  · split
    · rename_i hdigits hfar
      have : (Nat.toDigits 10 n).length ≤ 20 :=
        (Nat.length_toDigits_le_iff (by omega) (by omega)).mpr (Nat.lt_trans h (by decide))
      omega
    · split
      · decide
      · have hlimit : Shape.wordLimit = 2 ^ 64 := rfl
        have hencoding : (1074 + 11 + 2) * 2 ^ binary64.fractionBits < binary64.infinity := by
          decide
        generalize 1074 = k at hencoding ⊢
        have hvalue : n * Nat.pow 10 (0 : Int).toNat * Nat.pow 2 k <
            2 ^ (binary64.fractionBits + (k + 11) + 1) * Nat.pow 10 (-(0 : Int)).toNat := by
          have hpower : 2 ^ (binary64.fractionBits + (k + 11) + 1) = Shape.wordLimit * 2 ^ k := by
            rw [hlimit, ← Nat.pow_add]
            congr 1
            simp only [binary64]
            omega
          have hstep := Nat.mul_lt_mul_of_pos_right h (Nat.two_pow_pos k)
          simpa [hpower] using hstep
        exact Nat.lt_of_le_of_lt (BinaryFormat.nearest_le (by decide) hvalue) hencoding

namespace Json

/-- A number read from a literal is one that some printed literal is read as. -/
theorem Reader.number?_readable {cs rest : List Char} {n : JsonNumber}
    (h : number? cs = some (n, rest)) : n.Readable := by
  have hreal {negative : Bool} {d : Decimal} {n : JsonNumber} (h : real? negative d = some n) :
      n.Readable := by
    simp only [real?, Option.ite_none_left_eq_some, Option.some.injEq] at h
    obtain ⟨hfinite, rfl⟩ := h
    exact toFloat_isFinite (Nat.lt_of_le_of_ne d.nearest_le_infinity hfinite)
  have hinteger {negative : Bool} {m : Nat} {n : JsonNumber} (h : integer? negative m = some n) :
      n.Readable := by
    unfold integer? at h
    split at h
    · split at h
      · rename_i hrange
        obtain rfl := Option.some.inj h
        exact hrange
      · exact hreal h
    · split at h
      · rename_i hrange
        obtain rfl := Option.some.inj h
        exact hrange
      · exact hreal h
  have hunsigned {negative : Bool} {cs : List Char} (h : unsigned? negative cs = some (n, rest)) :
      n.Readable := by
    simp only [unsigned?, Option.bind_eq_bind, Option.bind_eq_some_iff, Prod.exists] at h
    obtain ⟨_, _, -, _, _, -, _, _, -, hvalue⟩ := h
    split at hvalue
    · obtain ⟨v, hv, heq⟩ := Option.bind_eq_some_iff.mp hvalue
      obtain ⟨rfl, -⟩ : v = n ∧ _ := by simpa using heq
      exact hinteger hv
    · obtain ⟨v, hv, heq⟩ := Option.bind_eq_some_iff.mp hvalue
      obtain ⟨rfl, -⟩ : v = n ∧ _ := by simpa using heq
      exact hreal hv
  unfold number? at h
  split at h
  · exact hunsigned h
  · exact hunsigned h

/-- Every number of the tree is one that some literal spells. -/
inductive Readable : Json → Prop where
  | null : Readable .null
  | bool (b : Bool) : Readable (.bool b)
  | number {n : JsonNumber} (hreadable : n.Readable) : Readable (.number n)
  | string (s : String) : Readable (.string s)
  | array {js : List Json} (hitems : ∀ j ∈ js, Readable j) : Readable (.array js)
  | object {fields : List (String × Json)} {closed : Bool}
      (hfields : ∀ field ∈ fields, Readable field.2) : Readable (.object fields closed)
  | broken : Readable .broken

namespace Reader

/-- With so much fuel the numbers of whatever is read are readable, if those read before are. -/
structure ReadableWith (fuel : Nat) : Prop where
  value : ∀ depth cs, Readable (value depth fuel cs).1
  items : ∀ depth read cs, (∀ j ∈ read, Readable j) → Readable (items depth fuel read cs).1
  members : ∀ depth read cs, (∀ field ∈ read, Readable field.2) →
    Readable (members depth fuel read cs).1

theorem readable_items_reverse {read : List Json} (hread : ∀ j ∈ read, Readable j) :
    Readable (.array read.reverse) :=
  .array fun j hj => hread j (List.mem_reverse.mp hj)

theorem readable_members_reverse {read : List (String × Json)} {closed : Bool}
    (hread : ∀ field ∈ read, Readable field.2) : Readable (.object read.reverse closed) :=
  .object fun field hfield => hread field (List.mem_reverse.mp hfield)

theorem readableWith_zero : ReadableWith 0 where
  value depth cs := by
    rw [value_zero]
    exact .broken
  items depth read cs hread := by
    rw [items_zero]
    exact readable_items_reverse (List.forall_mem_cons.mpr ⟨.broken, hread⟩)
  members depth read cs hread := by
    rw [members_zero]
    exact readable_members_reverse hread

/-! One step more, for each kind of text. -/

section Step

variable {fuel : Nat} (ih : ReadableWith fuel)
include ih

theorem ReadableWith.value_succ (depth : Nat) (cs : List Char) :
    Readable (Reader.value depth (fuel + 1) cs).1 := by
  rw [Reader.value]
  split
  · split
    · exact .string _
    · exact .broken
  · split
    · exact .broken
    · split
      · exact .array (by simp)
      · exact ih.items _ _ _ (by simp)
  · split
    · exact .broken
    · split
      · exact .object (by simp)
      · exact ih.members _ _ _ (by simp)
  · split
    · exact .null
    · exact .broken
  · split
    · exact .bool _
    · exact .broken
  · split
    · exact .bool _
    · exact .broken
  · split
    · rename_i hnumber
      exact .number (number?_readable hnumber)
    · exact .broken

theorem ReadableWith.items_succ (depth : Nat) {read : List Json} (cs : List Char)
    (hread : ∀ j ∈ read, Readable j) : Readable (Reader.items depth (fuel + 1) read cs).1 := by
  have hvalue := ih.value depth cs
  rw [Reader.items]
  split
  · rename_i v heq
    rw [heq] at hvalue
    exact readable_items_reverse (List.forall_mem_cons.mpr ⟨hvalue, hread⟩)
  · rename_i v rest heq
    rw [heq] at hvalue
    have hmore : ∀ j ∈ v :: read, Readable j := List.forall_mem_cons.mpr ⟨hvalue, hread⟩
    split
    · exact ih.items _ _ _ hmore
    · exact readable_items_reverse hmore
    · exact readable_items_reverse (List.forall_mem_cons.mpr ⟨.broken, hmore⟩)

theorem ReadableWith.members_succ (depth : Nat) {read : List (String × Json)} (cs : List Char)
    (hread : ∀ field ∈ read, Readable field.2) :
    Readable (Reader.members depth (fuel + 1) read cs).1 := by
  rw [Reader.members]
  split
  · split
    · exact readable_members_reverse hread
    · split
      · rename_i key _ _ _ rest _
        have hvalue := ih.value depth rest
        split
        · rename_i v heq
          rw [heq] at hvalue
          exact readable_members_reverse (List.forall_mem_cons.mpr ⟨hvalue, hread⟩)
        · rename_i v rest heq
          rw [heq] at hvalue
          have hmore : ∀ field ∈ (key, v) :: read, Readable field.2 :=
            List.forall_mem_cons.mpr ⟨hvalue, hread⟩
          split
          · exact ih.members _ _ _ hmore
          · exact readable_members_reverse hmore
          · exact readable_members_reverse hmore
      · exact readable_members_reverse (List.forall_mem_cons.mpr ⟨.broken, hread⟩)
  · exact readable_members_reverse hread

end Step

/-- Whatever a text holds, and wherever it breaks off, the numbers read from it are readable. -/
theorem readableWith (fuel : Nat) : ReadableWith fuel := by
  induction fuel with
  | zero => exact readableWith_zero
  | succ fuel ih =>
    exact ⟨ih.value_succ, fun depth _ cs => ih.items_succ depth cs,
      fun depth _ cs => ih.members_succ depth cs⟩

end Reader

theorem Document.readable (text : String) : Readable (Document.ofString text).root := by
  unfold Document.ofString Document.ofChars
  have hread :=
    (Reader.readableWith (2 * (text.dropEndWhile isBlank).toString.toList.length + 2)).value
      maxDepth (text.dropEndWhile isBlank).toString.toList
  split <;> rename_i heq <;> rw [heq] at hread <;> exact hread

/-- A double that is taken from a tree is finite. -/
theorem asFloat_finite {j : Json} {x : Float} (hj : Readable j) (h : asFloat j = .ok x) :
    x.isFinite = true := by
  cases hj with
  | number hreadable =>
    rename_i n
    obtain rfl : JsonNumber.toFloat n = x := by simpa [asFloat, pure, Except.pure] using h
    cases n with
    | unsigned n => exact toFloat_isFinite (Decimal.nearest_word hreadable)
    | negative n =>
      refine toFloat_isFinite (Decimal.nearest_word (Nat.lt_of_le_of_lt hreadable.2 ?_))
      decide
    | real x => exact hreadable
  | _ => simp [asFloat, wrongType, throw, throwThe, MonadExceptOf.throw] at h

/-- Items that were read one by one. -/
theorem asList_mem {α : Type} {read : Json → Decoded α} {j : Json} {result : List α}
    (hj : Readable j) (h : asList read j = .ok result) :
    ∀ a ∈ result, ∃ item, Readable item ∧ read item = .ok a := by
  cases hj with
  | array hitems =>
    intro a ha
    obtain ⟨item, hitem, hread⟩ := mapM_mem h a ha
    exact ⟨item, hitems item hitem, hread⟩
  | _ => simp [asList, wrongType, throw, throwThe, MonadExceptOf.throw] at h

theorem asBelow_val {limit n : Nat} {j : Json} (h : asBounded limit j = .ok n) : n < limit := by
  unfold asBounded at h
  cases hread : asBelow limit j with
  | error e => simp [hread] at h
  | ok m =>
    obtain rfl : m.val = n := by simpa [hread] using h
    exact m.isLt

/-! What a walk over a record leaves in its slots. -/

theorem fill_eq_ok {α : Type} {name : String} {slot slot' : Option α} {read : Json → Decoded α}
    {j : Json} : fill name slot read j = .ok slot' ↔
      slot = none ∧ ∃ a, read j = .ok a ∧ slot' = some a := by
  cases slot with
  | some a => simp [fill, throw, throwThe, MonadExceptOf.throw]
  | none =>
    cases hread : read j with
    | error e => simp [fill, hread]
    | ok a => simp [fill, hread, eq_comm]

/-- A step that fills a slot has read the value into it. -/
theorem fill_step {α σ : Type} {name : String} {slot : Option α} {read : Json → Decoded α}
    {j : Json}
    {put : Option α → σ} {s' : σ} (h : (do return put (← fill name slot read j)) = Except.ok s') :
    ∃ a, read j = .ok a ∧ s' = put (some a) := by
  obtain ⟨slot', hfill, heq⟩ := bind_eq_ok.mp h
  obtain ⟨-, a, hread, rfl⟩ := fill_eq_ok.mp hfill
  exact ⟨a, hread, (Except.ok.inj heq).symm⟩

theorem required_eq_ok {α : Type} {name : String} {slot : Option α} {a : α} :
    required name slot = .ok a ↔ slot = some a := by
  cases slot <;> simp [required, throw, throwThe, MonadExceptOf.throw, pure, Except.pure]

section Walk

variable {σ : Type} {field : σ → String → Json → Decoded σ} {start s : σ} (inv : σ → Prop)

theorem walkFields_invariant {fields : List (String × Json)} {closed : Bool}
    (hfields : ∀ entry ∈ fields, Readable entry.2) (hstart : inv start)
    (hstep : ∀ s name value s', Readable value → inv s → field s name value = .ok s' → inv s')
    (h : walkFields field start fields closed = .ok s) : inv s := by
  obtain ⟨last, hfold, hlast⟩ := bind_eq_ok.mp h
  obtain rfl : last = s := by
    cases closed <;> simp [throw, throwThe, MonadExceptOf.throw, pure, Except.pure] at hlast
    exact hlast
  exact foldlM_invariant inv (fun entry hentry s s' hs hread =>
    hstep s entry.1 entry.2 s' (hfields entry hentry) hs hread) hstart hfold

/-- What every field keeps holds of the slots of a whole record. -/
theorem walkRecord_invariant {declared : List String} {j : Json} (hj : Readable j)
    (hstart : inv start)
    (hstep : ∀ s name value s', Readable value → inv s → field s name value = .ok s' → inv s')
    (h : walkRecord declared field start j = .ok s) : inv s := by
  cases hj with
  | object hfields => exact walkFields_invariant inv hfields hstart hstep h
  | array hitems =>
    rename_i items
    obtain ⟨last, hfold, hlast⟩ := bind_eq_ok.mp h
    obtain rfl : last = s := by
      split at hlast <;> simp [throw, throwThe, MonadExceptOf.throw, pure, Except.pure] at hlast
      exact hlast
    exact foldlM_invariant inv (fun entry hentry s s' hs hread =>
      hstep s entry.1 entry.2 s' (hitems _ (List.of_mem_zip hentry).2) hs hread) hstart hfold
  | _ => simp [walkRecord, wrongType, throw, throwThe, MonadExceptOf.throw] at h

end Walk

end Json

end TensorParity
