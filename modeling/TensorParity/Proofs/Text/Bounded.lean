import Mathlib
import TensorParity.Text.Quoted

/-!
Texts cut to a number of bytes. A search back from the last byte that is allowed finds the end of the
longest beginning of whole characters that fits, after three steps at most, because no character
has more than four bytes.
-/
namespace TensorParity.Text

variable {s : String} {position limit : Nat}

/-- How many times the search goes back. -/
def stepsBack (s : String) : (position : Nat) → Nat
  | 0 => 0
  | position + 1 =>
    if String.Pos.Raw.IsValid s ⟨position + 1⟩ then 0 else stepsBack s position + 1

theorem boundaryFrom_add_stepsBack (s : String) (position : Nat) :
    (boundaryFrom s position).offset.byteIdx + stepsBack s position = position := by
  induction position with
  | zero => rfl
  | succ position ih =>
    rw [boundaryFrom, stepsBack]
    split
    · rfl
    · rw [← Nat.add_assoc, ih]

theorem boundaryFrom_le (s : String) (position : Nat) :
    (boundaryFrom s position).offset.byteIdx ≤ position :=
  Nat.le_of_add_right_le (boundaryFrom_add_stepsBack s position).le

/-- The search stops at the first boundary. -/
theorem le_boundaryFrom {boundary : Nat} (h : String.Pos.Raw.IsValid s ⟨boundary⟩)
    (hposition : boundary ≤ position) :
    boundary ≤ (boundaryFrom s position).offset.byteIdx := by
  induction position with
  | zero => exact hposition.trans (Nat.zero_le _)
  | succ position ih =>
    rw [boundaryFrom]
    split
    · exact hposition
    · rename_i hinside
      apply ih
      apply Nat.le_of_lt_succ
      apply Nat.lt_of_le_of_ne hposition
      rintro rfl
      exact hinside h

theorem exists_eq_upTo_append (s : String) (position : Nat) :
    ∃ rest, s = upTo s position ++ rest := by
  have hsplits := (boundaryFrom s position).splits
  exact ⟨_, hsplits.eq_append⟩

theorem boundaryFrom_eq (s : String) (position : Nat) :
    (boundaryFrom s position).offset.byteIdx = (upTo s position).utf8ByteSize := by
  have hsplits := (boundaryFrom s position).splits
  exact congrArg (·.byteIdx) hsplits.offset_eq_rawEndPos

theorem upTo_isPrefix (s : String) (position : Nat) : (upTo s position).toList <+: s.toList := by
  obtain ⟨rest, hrest⟩ := exists_eq_upTo_append s position
  refine ⟨rest.toList, ?_⟩
  rw [← String.toList_append, ← hrest]

theorem size_upTo_le (s : String) (position : Nat) :
    (upTo s position).utf8ByteSize ≤ position := by
  rw [← boundaryFrom_eq]
  exact boundaryFrom_le s position

/-- A boundary lies wherever whole characters end. -/
theorem isValid_of_isPrefix {part : String} (h : part.toList <+: s.toList) :
    String.Pos.Raw.IsValid s ⟨part.utf8ByteSize⟩ := by
  obtain ⟨rest, hrest⟩ := h
  apply String.Pos.Raw.isValid_iff_exists_append.mpr
  refine ⟨part, .ofList rest, ?_, rfl⟩
  rw [← String.toList_inj, String.toList_append, String.toList_ofList, hrest]

theorem size_le_size_upTo {part : String} (h : part.toList <+: s.toList)
    (hsize : part.utf8ByteSize ≤ position) :
    part.utf8ByteSize ≤ (upTo s position).utf8ByteSize := by
  rw [← boundaryFrom_eq]
  exact le_boundaryFrom (isValid_of_isPrefix h) hsize

/-- No longer beginning of whole characters fits. -/
theorem isPrefix_upTo_of_size_le {part : String} (h : part.toList <+: s.toList)
    (hsize : part.utf8ByteSize ≤ position) : part.toList <+: (upTo s position).toList := by
  rcases List.prefix_or_prefix_of_prefix h (upTo_isPrefix s position) with hpart | ⟨rest, hrest⟩
  · exact hpart
  have hparts : part = upTo s position ++ .ofList rest := by
    rw [← String.toList_inj, String.toList_append, String.toList_ofList, hrest]
  have hle := size_le_size_upTo h hsize
  rw [hparts, String.utf8ByteSize_append] at hle
  have hnone : String.ofList rest = "" := String.utf8ByteSize_eq_zero_iff.mp (by omega)
  rw [hparts, hnone, String.append_empty]

/-- The next character would not fit, and it has at most four bytes. -/
theorem stepsBack_le (h : position < s.utf8ByteSize) : stepsBack s position ≤ 3 := by
  have hsteps := boundaryFrom_add_stepsBack s position
  rw [boundaryFrom_eq] at hsteps
  obtain ⟨rest, hrest⟩ := exists_eq_upTo_append s position
  have hlist := congrArg String.toList hrest
  rw [String.toList_append] at hlist
  cases hnext : rest.toList with
  | nil =>
    obtain rfl : rest = "" := String.toList_eq_nil_iff.mp hnext
    have hsize := size_upTo_le s position
    rw [String.append_empty] at hrest
    rw [← hrest] at hsize
    omega
  | cons c cs =>
    have hlonger : (upTo s position ++ String.singleton c).toList <+: s.toList := by
      refine ⟨cs, ?_⟩
      rw [hlist, hnext, String.toList_append, String.toList_singleton, List.append_assoc,
        List.singleton_append]
    have hsize : (upTo s position ++ String.singleton c).utf8ByteSize =
        (upTo s position).utf8ByteSize + c.utf8Size := by
      rw [String.utf8ByteSize_append, String.utf8ByteSize_singleton]
    have hfour := c.utf8Size_le_four
    have hpos := c.utf8Size_pos
    by_contra hfar
    have hfits : (upTo s position ++ String.singleton c).utf8ByteSize ≤ position := by omega
    have hle := size_le_size_upTo hlonger hfits
    omega

theorem bounded_of_le (h : s.utf8ByteSize ≤ limit) : bounded limit s = s := if_pos h

theorem bounded_of_lt (h : limit < s.utf8ByteSize) : bounded limit s = upTo s limit ++ "..." :=
  if_neg (Nat.not_le.mpr h)

theorem boundedInside_eq (limit : Nat) (s : String) : boundedInside limit s = bounded limit s := by
  rw [boundedInside, bounded, shorten, shorten]
  split
  · rfl
  · rw [Nat.min_eq_left (by omega)]

/-- Both ways to cut a text give the text itself where it fits. Otherwise they give its longest
beginning of whole characters that fits, and an ellipsis; the search for the place to cut goes back
at most three times. -/
theorem bounded_cuts (limit : Nat) (s : String) :
    boundedInside limit s = bounded limit s ∧
      (s.utf8ByteSize ≤ limit → bounded limit s = s) ∧
      (limit < s.utf8ByteSize → ∃ part : String,
        bounded limit s = part ++ "..." ∧
        (part.toList <+: s.toList ∧ part.utf8ByteSize ≤ limit) ∧
        (∀ other : String, other.toList <+: s.toList → other.utf8ByteSize ≤ limit →
          other.toList <+: part.toList) ∧
        (boundaryFrom s limit).offset.byteIdx = part.utf8ByteSize ∧ stepsBack s limit ≤ 3) := by
  refine ⟨boundedInside_eq limit s, bounded_of_le, ?_⟩
  intro hlong
  refine ⟨upTo s limit, bounded_of_lt hlong, ?_, ?_, boundaryFrom_eq s limit, stepsBack_le hlong⟩
  · exact ⟨upTo_isPrefix s limit, size_upTo_le s limit⟩
  · intro other hother hsize
    exact isPrefix_upTo_of_size_le hother hsize

/-- Five bytes are five letters, and two bytes may end inside the second character. -/
theorem bounded_cuts_inside_character :
    ("hello".utf8ByteSize ≤ 5 ∧ bounded 5 "hello" = "hello") ∧
      2 < "héllo wörld".utf8ByteSize ∧ boundedInside 2 "héllo wörld" = "h..." ∧
      ∀ other : String, other.toList <+: "héllo wörld".toList → other.utf8ByteSize ≤ 2 →
        other.toList <+: "h".toList := by
  have hshort : "hello".utf8ByteSize ≤ 5 := by decide
  have hlong : 2 < "héllo wörld".utf8ByteSize := by decide
  have hcut : boundedInside 2 "héllo wörld" = "h" ++ "..." := by decide +kernel
  obtain ⟨-, hwhole, -⟩ := bounded_cuts 5 "hello"
  obtain ⟨hsame, -, hpieces⟩ := bounded_cuts 2 "héllo wörld"
  obtain ⟨part, hpart, -, hlongest, -⟩ := hpieces hlong
  have happend : part ++ "..." = "h" ++ "..." := by rw [← hpart, ← hsame, hcut]
  have hchars := congrArg String.toList happend
  rw [String.toList_append, String.toList_append] at hchars
  obtain rfl : part = "h" := String.toList_inj.mp (List.append_cancel_right hchars)
  exact ⟨⟨hshort, hwhole hshort⟩, hlong, hcut, hlongest⟩

end TensorParity.Text
