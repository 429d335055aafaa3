import TensorParity.Proofs.Json.Printed

/-!
A bound on printed texts. The room of a tree is read off its strings and numbers without printing
it, and its text takes no more characters than that, on one line or over several.
-/
namespace TensorParity

/-- A character is encoded in at most four bytes. -/
theorem utf8ByteSize_le_length (s : String) : s.utf8ByteSize ≤ 4 * s.length := by
  rw [← s.ofList_toList]
  induction s.toList with
  | nil => simp
  | cons c cs ih =>
    have hsize := Char.utf8Size_le_four c
    rw [String.ofList_cons, String.utf8ByteSize_append, String.length_append,
      String.utf8ByteSize_singleton, String.length_singleton]
    omega

namespace Json

mutual

/-- The characters that a tree takes at most where it is printed at a level. -/
def room (level : Nat) : Json → Nat
  | .null => 4
  | .bool _ => 5
  | .number n => (Printer.number n).length
  | .string s => 6 * s.length + 2
  | .array items => roomItems (level + 1) items + (2 * level + 3)
  | .object fields _ => roomFields (level + 1) fields + (2 * level + 3)
  | .broken => 0

def roomItems (level : Nat) : List Json → Nat
  | [] => 0
  | item :: rest => (2 * level + 2) + room level item + roomItems level rest

def roomFields (level : Nat) : List (String × Json) → Nat
  | [] => 0
  | (key, value) :: rest =>
    (2 * level + 2) + (6 * key.length + 4 + room level value) + roomFields level rest

end

namespace Printer

theorem length_put (out : String) (cs : List Char) :
    (put out cs).length = out.length + cs.length := by
  simp [← String.length_toList]

theorem length_escape_le (c : Char) : (escape c).length ≤ 6 := by
  unfold escape
  repeat' split
  all_goals simp

theorem length_putString_le (out s : String) :
    (putString out s).length ≤ out.length + (6 * s.length + 2) := by
  have hchars (cs : List Char) : (cs.flatMap escape).length ≤ 6 * cs.length := by
    induction cs with
    | nil => simp
    | cons c cs ih =>
      have hescape := length_escape_le c
      rw [List.flatMap_cons, List.length_append, List.length_cons]
      omega
  have hs := hchars s.toList
  simp only [← String.length_toList, toList_putString, List.length_append, List.length_cons,
    List.length_nil]
  omega

variable {depth : Nat} {lead : List Char} {level : Nat}

/-- The comma and the characters before an entry. -/
theorem length_lead_le (hlead : lead.length ≤ 2 * level + 1) (out : String) (first : Bool) :
    (put (if first then out else out.push ',') lead).length ≤ out.length + (2 * level + 2) := by
  rw [length_put]
  cases first
  · rw [if_neg Bool.false_ne_true, String.length_push]
    omega
  · rw [if_pos rfl]
    omega

theorem length_items_le (print : String → Json → String) (hlead : lead.length ≤ 2 * level + 1)
    {js : List Json}
    (hprint : ∀ j ∈ js, ∀ out, (print out j).length ≤ out.length + j.room level) (out : String)
    (first : Bool) :
    (joined lead print out first js).length ≤ out.length + roomItems level js := by
  induction js generalizing out first with
  | nil => simp [joined, roomItems]
  | cons j js ih =>
    have hbefore := length_lead_le hlead out first
    have hj := hprint j (by simp) (put (if first then out else out.push ',') lead)
    have hrest := ih (fun j hj => hprint j (by simp [hj]))
      (print (put (if first then out else out.push ',') lead) j) false
    rw [joined, roomItems]
    omega

theorem length_fields_le (print : String → Json → String) (hlead : lead.length ≤ 2 * level + 1)
    {colon : List Char} (hcolon : colon.length ≤ 2) {fields : List (String × Json)}
    (hprint : ∀ field ∈ fields, ∀ out,
      (print out field.2).length ≤ out.length + field.2.room level) (out : String) (first : Bool) :
    (joined lead (fun out field => print (put (putString out field.1) colon) field.2) out first
        fields).length ≤ out.length + roomFields level fields := by
  induction fields generalizing out first with
  | nil => simp [joined, roomFields]
  | cons field fields ih =>
    obtain ⟨key, j⟩ := field
    have hbefore := length_lead_le hlead out first
    have hkey := length_putString_le (put (if first then out else out.push ',') lead) key
    have hj := hprint (key, j) (by simp)
      (put (putString (put (if first then out else out.push ',') lead) key) colon)
    have hrest := ih (fun field hfield => hprint field (by simp [hfield]))
      (print (put (putString (put (if first then out else out.push ',') lead) key) colon) j) false
    rw [length_put] at hj
    rw [joined, roomFields]
    simp only at hj hrest ⊢
    omega

theorem length_compact_le {j : Json} (h : Printable depth j) (level : Nat) (out : String) :
    (compact out j).length ≤ out.length + j.room level := by
  induction h generalizing level out with
  | null =>
    rw [compact, room, String.length_append]
    exact Nat.add_le_add_left (by decide) _
  | bool b =>
    have hword : (if b then "true" else "false").length ≤ 5 := by cases b <;> decide
    rw [compact, room, String.length_append]
    exact Nat.add_le_add_left hword _
  | number _ => simp [compact, room, length_put]
  | string s => simpa [compact, room] using length_putString_le out s
  | @array depth js hitems ih =>
    have hlead : ([] : List Char).length ≤ 2 * (level + 1) + 1 := Nat.zero_le _
    have hjs := length_items_le compact hlead (fun j hj => ih j hj (level + 1)) (out.push '[') true
    rw [String.length_push] at hjs
    rw [compact, compactItems_eq, String.length_push, room]
    omega
  | @object depth fields hfields ih =>
    have hlead : ([] : List Char).length ≤ 2 * (level + 1) + 1 := Nat.zero_le _
    have hcolon : [':'].length ≤ 2 := by simp
    have hall := length_fields_le compact hlead hcolon
      (fun field hfield => ih field hfield (level + 1)) (out.push '{') true
    rw [String.length_push] at hall
    rw [compact, compactFields_eq, String.length_push, room]
    omega

theorem length_newline (out : String) (level : Nat) :
    (newline out level).length = out.length + (2 * level + 1) := by
  rw [newline, length_put, String.length_push, List.length_replicate]
  omega

theorem length_pretty_le {j : Json} (h : Printable depth j) (level : Nat) (out : String) :
    (pretty level out j).length ≤ out.length + j.room level := by
  have hlead (level : Nat) : ('\n' :: List.replicate (2 * level) ' ').length ≤ 2 * level + 1 := by
    simp
  induction h generalizing level out with
  | null =>
    rw [pretty, room, String.length_append]
    exact Nat.add_le_add_left (by decide) _
  | bool b =>
    have hword : (if b then "true" else "false").length ≤ 5 := by cases b <;> decide
    rw [pretty, room, String.length_append]
    exact Nat.add_le_add_left hword _
  | number _ => simp [pretty, room, length_put]
  | string s => simpa [pretty, room] using length_putString_le out s
  | @array depth js hitems ih =>
    cases js with
    | nil =>
      have hclosed : "[]".length = 2 := by decide
      rw [pretty, room, String.length_append]
      omega
    | cons j js =>
      have hjs := length_items_le (pretty (level + 1)) (hlead (level + 1))
        (fun j hj => ih j hj (level + 1)) (out.push '[') true
      rw [String.length_push] at hjs
      rw [pretty, prettyItems_eq, String.length_push, length_newline, room]
      omega
  | @object depth fields hfields ih =>
    cases fields with
    | nil =>
      rw [pretty, room, String.length_push, String.length_push]
      omega
    | cons field fields =>
      have hcolon : [':', ' '].length ≤ 2 := by simp
      have hall := length_fields_le (pretty (level + 1)) (hlead (level + 1)) hcolon
        (fun field hfield => ih field hfield (level + 1)) (out.push '{') true
      rw [String.length_push] at hall
      rw [pretty, prettyFields_eq, String.length_push, length_newline, room]
      omega

end Printer

variable {depth : Nat} {j : Json}

/-- A tree's text has no more bytes than four for each character it has room for. -/
theorem utf8ByteSize_text_le (h : Printable depth j) : j.text.utf8ByteSize ≤ 4 * j.room 0 :=
  (utf8ByteSize_le_length _).trans
    (Nat.mul_le_mul_left 4 (by simpa [text] using Printer.length_compact_le h 0 ""))

theorem utf8ByteSize_prettyText_le (h : Printable depth j) :
    j.prettyText.utf8ByteSize ≤ 4 * j.room 0 :=
  (utf8ByteSize_le_length _).trans
    (Nat.mul_le_mul_left 4 (by simpa [prettyText] using Printer.length_pretty_le h 0 ""))

end Json

end TensorParity
