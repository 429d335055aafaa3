import TensorParity.Proofs.Except
import TensorParity.Json.Decode

/-!
What the message of a fault names. The words that introduce an unknown field are looked for anywhere
in a message, and a message may show a string or the name of an operator that has these words in it.
Messages that show neither name what the fault is about, or nothing.
-/
namespace TensorParity

namespace Json.Fault

/-- A message reads as if it named an unknown field: the name stands between the first place with
the introducing words and the next backquote. -/
def Cites (message name : String) : Prop :=
  ∃ before after,
    message.toList = before ++ unknownFieldMark ++ (name.toList ++ backquote :: after) ∧
      backquote ∉ name.toList ∧ ∀ earlier later,
        message.toList = earlier ++ unknownFieldMark ++ later → before.length ≤ earlier.length

theorem after?_eq_some_iff {mark cs tail : List Char} (hmark : mark ≠ []) :
    after? mark cs = some tail ↔ ∃ before, cs = before ++ mark ++ tail ∧
      ∀ earlier later, cs = earlier ++ mark ++ later → before.length ≤ earlier.length := by
  induction cs with
  | nil =>
    constructor
    · intro h
      cases h
    · rintro ⟨before, heq, -⟩
      simp [hmark] at heq
  | cons c cs ih =>
    by_cases hprefix : mark <+: c :: cs
    · obtain ⟨rest, hrest⟩ := hprefix
      have hafter : after? mark (c :: cs) = some rest := by
        rw [after?, if_pos (List.isPrefixOf_iff_prefix.mpr ⟨rest, hrest⟩), ← hrest,
          List.drop_left]
      rw [hafter, Option.some.injEq]
      constructor
      · rintro rfl
        exact ⟨[], hrest.symm, by simp⟩
      · rintro ⟨before, heq, hfirst⟩
        have hnil : before = [] := by
          apply List.length_eq_zero_iff.mp
          simpa using hfirst [] rest hrest.symm
        subst hnil
        rw [List.nil_append, ← hrest] at heq
        exact List.append_cancel_left heq
    · have hafter : after? mark (c :: cs) = after? mark cs := by
        rw [after?, if_neg fun h => hprefix (List.isPrefixOf_iff_prefix.mp h)]
      rw [hafter, ih]
      constructor
      · rintro ⟨before, heq, hfirst⟩
        refine ⟨c :: before, by simp [heq], ?_⟩
        intro earlier later hlater
        cases earlier with
        | nil => exact absurd ⟨later, hlater.symm⟩ hprefix
        | cons first earlier =>
          obtain ⟨-, hlater⟩ := List.cons.inj hlater
          exact Nat.succ_le_succ (hfirst earlier later hlater)
      · rintro ⟨before, heq, hfirst⟩
        cases before with
        | nil => exact absurd ⟨tail, heq.symm⟩ hprefix
        | cons first before =>
          obtain ⟨-, heq⟩ := List.cons.inj heq
          refine ⟨before, heq, ?_⟩
          intro earlier later hlater
          exact Nat.le_of_succ_le_succ (hfirst (c :: earlier) later (by simp [hlater]))

theorem takeWhile_plain {cs : List Char} (h : backquote ∉ cs) :
    cs.takeWhile (· != backquote) = cs := by
  apply List.takeWhile_eq_self_iff.mpr
  intro c hc
  have hne : c ≠ backquote := by
    rintro rfl
    exact h hc
  simpa using hne

/-- What stands before the first backquote. -/
theorem takeWhile_backquote {cs : List Char} (h : backquote ∉ cs) (rest : List Char) :
    (cs ++ backquote :: rest).takeWhile (· != backquote) = cs := by
  rw [List.takeWhile_append, takeWhile_plain h, if_pos rfl, List.takeWhile_cons_of_neg (by simp),
    List.append_nil]

theorem backquote_notMem_takeWhile (cs : List Char) :
    backquote ∉ cs.takeWhile (· != backquote) := by
  intro hmem
  simpa using List.mem_takeWhile_imp hmem

/-- What ends before the end of a text ends at a backquote. -/
theorem exists_backquote {cs : List Char}
    (hshort : (cs.takeWhile (· != backquote)).length < cs.length) :
    ∃ after, cs.takeWhile (· != backquote) ++ backquote :: after = cs := by
  have hsplit : cs.takeWhile (· != backquote) ++ cs.dropWhile (· != backquote) = cs :=
    List.takeWhile_append_dropWhile
  cases hrest : cs.dropWhile (· != backquote) with
  | nil =>
    rw [hrest, List.append_nil] at hsplit
    rw [hsplit] at hshort
    omega
  | cons c after =>
    have hc := List.head?_dropWhile_not (· != backquote) cs
    rw [hrest] at hc hsplit
    obtain rfl : c = backquote := by simpa using hc
    exact ⟨after, hsplit⟩

theorem unknownFieldIn?_eq_some_iff {message name : String} :
    unknownFieldIn? message = some name ↔ Cites message name := by
  have hmark : unknownFieldMark ≠ [] := by decide
  unfold unknownFieldIn?
  rw [Option.bind_eq_bind, Option.bind_eq_some_iff]
  constructor
  · rintro ⟨tail, hafter, h⟩
    obtain ⟨before, heq, hfirst⟩ := (after?_eq_some_iff hmark).mp hafter
    dsimp only at h
    split at h
    · rename_i hshort
      obtain rfl := Option.some.inj h
      obtain ⟨after, hsplit⟩ := exists_backquote hshort
      refine ⟨before, after, ?_, ?_, hfirst⟩
      · rw [String.toList_ofList, hsplit]
        exact heq
      · rw [String.toList_ofList]
        exact backquote_notMem_takeWhile tail
    · cases h
  · rintro ⟨before, after, heq, hname, hfirst⟩
    refine ⟨_, (after?_eq_some_iff hmark).mpr ⟨before, heq, hfirst⟩, ?_⟩
    rw [takeWhile_backquote hname after, if_pos (by simp), String.ofList_toList]

/-- A message without a backquote names no field. -/
theorem unknownFieldIn?_eq_none {message : String} (h : backquote ∉ message.toList) :
    unknownFieldIn? message = none := by
  rw [Option.eq_none_iff_forall_ne_some]
  intro name hname
  obtain ⟨before, after, heq, -⟩ := unknownFieldIn?_eq_some_iff.mp hname
  apply h
  rw [heq]
  simp

theorem toList_backquoted (name : String) :
    (backquoted name).toList = backquote :: (name.toList ++ [backquote]) := by
  rw [backquoted, String.toList_ofList, List.cons_append]

/-- An unknown field is named by its key up to the first backquote in it. -/
theorem unknownFieldIn?_unknownField (key : String) :
    unknownFieldIn? (message (.unknownField key)) =
      some (String.ofList (key.toList.takeWhile (· != backquote))) := by
  have hmessage : (message (.unknownField key)).toList =
      unknownFieldMark ++ (key.toList ++ [backquote]) := by
    have htext : message (.unknownField key) = "unknown field " ++ backquoted key := rfl
    rw [htext, String.toList_append, toList_backquoted, ← List.singleton_append,
      ← List.append_assoc]
    rfl
  have hafter : after? unknownFieldMark (message (.unknownField key)).toList =
      some (key.toList ++ [backquote]) :=
    (after?_eq_some_iff (by decide)).mpr ⟨[], by rw [hmessage, List.nil_append], by simp⟩
  have htake : (key.toList ++ [backquote]).takeWhile (· != backquote) =
      key.toList.takeWhile (· != backquote) := by
    rw [List.takeWhile_append]
    split
    · rename_i hall
      rw [List.takeWhile_cons_of_neg (by simp), List.append_nil,
        (List.takeWhile_prefix _).eq_of_length hall]
    · rfl
  have hshort : (key.toList.takeWhile (· != backquote)).length <
      (key.toList ++ [backquote]).length := by
    have hle := (List.takeWhile_prefix (l := key.toList) (· != backquote)).length_le
    rw [List.length_append, List.length_singleton]
    omega
  unfold unknownFieldIn?
  rw [hafter, Option.bind_eq_bind, Option.bind_some]
  dsimp only
  rw [htake, if_pos hshort]

theorem notMem_intercalate {α : Type} {a : α} {sep : List α} {parts : List (List α)}
    (hsep : a ∉ sep) (hparts : ∀ part ∈ parts, a ∉ part) : a ∉ sep.intercalate parts := by
  induction parts with
  | nil => simp
  | cons part parts ih =>
    obtain ⟨hpart, hothers⟩ := List.forall_mem_cons.mp hparts
    cases parts with
    | nil => simpa using hpart
    | cons next parts =>
      rw [List.intercalate_cons_cons, List.mem_append, List.mem_append]
      rintro ((hmem | hmem) | hmem)
      · exact hpart hmem
      · exact hsep hmem
      · exact ih hothers hmem

theorem backquote_notMem_toString (n : Nat) : backquote ∉ (toString n).toList := by
  intro h
  have hdigit : backquote.isDigit = true :=
    Nat.isDigit_of_mem_toDigits (b := 10) (n := n) (by omega) (by omega)
      (by simpa [Nat.repr] using h)
  exact absurd hdigit (by decide)

theorem backquote_notMem_text (shape : Shape) : backquote ∉ shape.text.toList := by
  rw [Shape.text, String.toList_append, String.toList_append, String.toList_intercalate,
    List.mem_append, List.mem_append]
  rintro ((h | h) | h)
  · exact absurd h (by decide)
  · refine notMem_intercalate (by decide) (fun part hpart => ?_) h
    rw [List.map_map] at hpart
    obtain ⟨dim, -, rfl⟩ := List.mem_map.mp hpart
    exact backquote_notMem_toString dim
  · exact absurd h (by decide)

theorem backquote_notMem_message (error : TensorError) : backquote ∉ error.message.toList := by
  have hshape := backquote_notMem_text
  have hnumber := backquote_notMem_toString
  cases error with
  | lengthMismatch shape expected actual =>
    have h : backquote ∉ ("shape " ++ shape.text ++ " expects " ++ toString expected ++
        " elements but data holds " ++ toString actual).toList := by
      simp only [String.toList_append, List.mem_append, not_or]
      exact ⟨⟨⟨⟨⟨by decide, hshape _⟩, by decide⟩, hnumber _⟩, by decide⟩, hnumber _⟩
    exact h
  | countOverflow shape =>
    have h : backquote ∉ ("element count overflows usize for shape " ++ shape.text).toList := by
      simp only [String.toList_append, List.mem_append, not_or]
      exact ⟨by decide, hshape _⟩
    exact h
  | positionOutside position count =>
    have h : backquote ∉ ("flat index " ++ toString position ++ " out of bounds for numel=" ++
        toString count).toList := by
      simp only [String.toList_append, List.mem_append, not_or]
      exact ⟨⟨⟨by decide, hnumber _⟩, by decide⟩, hnumber _⟩
    exact h

/-- A fault whose message names no field. -/
def Silent (fault : Fault) : Prop := unknownFieldIn? fault.message = none

theorem silent_inconsistent (error : TensorError) : Silent (.inconsistent error) :=
  unknownFieldIn?_eq_none (backquote_notMem_message error)

theorem silent_of_mem {fault : Fault}
    (h : fault ∈ [.malformed, .wrongType none, .outOfRange, .wrongLength, .trailing]) :
    Silent fault := by
  revert fault
  unfold Silent
  decide

/-- Words that end at the backquote before a name, but are not the introducing ones, name nothing:
there is no third backquote that could end a name. -/
theorem unknownFieldIn?_of_backquoted {words name : String} (hwords : backquote ∉ words.toList)
    (hother : ¬ "unknown field ".toList <:+ words.toList) (hname : backquote ∉ name.toList) :
    unknownFieldIn? (words ++ backquoted name) = none := by
  have hmessage : (words ++ backquoted name).toList =
      words.toList ++ backquote :: (name.toList ++ [backquote]) := by
    rw [String.toList_append, toList_backquoted]
  rw [Option.eq_none_iff_forall_ne_some]
  intro found hfound
  obtain ⟨before, after, heq, -⟩ := unknownFieldIn?_eq_some_iff.mp hfound
  have hcount : (before ++ unknownFieldMark ++ (found.toList ++ backquote :: after)).count
      backquote = 2 := by
    rw [← heq, hmessage, List.count_append, List.count_cons_self, List.count_append,
      List.count_eq_zero.mpr hwords, List.count_eq_zero.mpr hname, List.count_singleton_self]
  have hmark : unknownFieldMark = "unknown field ".toList ++ [backquote] := rfl
  have hmarked : unknownFieldMark.count backquote = 1 := by decide
  have hbefore : backquote ∉ before := by
    apply List.count_eq_zero.mp
    rw [List.count_append, List.count_append, List.count_append, List.count_cons_self,
      hmarked] at hcount
    omega
  have hprefix : backquote ∉ before ++ "unknown field ".toList := by
    rw [List.mem_append]
    rintro (hmem | hmem)
    · exact hbefore hmem
    · exact absurd hmem (by decide)
  have hsame : before ++ "unknown field ".toList = words.toList := by
    rw [← takeWhile_backquote hwords (name.toList ++ [backquote]), ← hmessage, heq,
      ← takeWhile_backquote hprefix (found.toList ++ backquote :: after)]
    apply congrArg (List.takeWhile (· != backquote))
    rw [hmark, List.append_assoc, List.append_assoc, List.append_assoc, List.singleton_append]
  exact hother ⟨before, hsame⟩

theorem silent_duplicateField {name : String} (h : backquote ∉ name.toList) :
    Silent (.duplicateField name) :=
  unknownFieldIn?_of_backquoted (by decide) (by decide) h

theorem silent_missingField {name : String} (h : backquote ∉ name.toList) :
    Silent (.missingField name) :=
  unknownFieldIn?_of_backquoted (by decide) (by decide) h

end Json.Fault

end TensorParity
