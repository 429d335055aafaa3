import Mathlib
import TensorParity.Backend.Process
import TensorParity.Proofs.Digest.Bytes
import TensorParity.Proofs.Json.Decode

/-!
What goes to a converter and what comes from a runner as text. The argument that tells the input
shapes can be read back, so no two lists of shapes share one. Of a runner's output the last line that
is not blank counts, whatever stands before it and however many blank lines follow.
-/
namespace TensorParity

open Json

section Parts

variable {α : Type} {x separator : α} {part : List α} {parts : List (List α)}

theorem mem_intercalate (h : x ∈ [separator].intercalate parts) :
    x = separator ∨ ∃ part ∈ parts, x ∈ part := by
  induction parts with
  | nil => simp [List.intercalate] at h
  | cons part rest ih =>
    cases rest with
    | nil =>
      rw [List.intercalate_singleton] at h
      exact .inr ⟨part, List.mem_singleton.mpr rfl, h⟩
    | cons next rest =>
      rw [List.intercalate_cons_cons, List.append_assoc, List.mem_append, List.singleton_append,
        List.mem_cons] at h
      rcases h with h | rfl | h
      · exact .inr ⟨part, List.mem_cons_self, h⟩
      · exact .inl rfl
      · exact (ih h).imp_right fun ⟨found, hfound, hx⟩ => ⟨found, List.mem_cons_of_mem _ hfound, hx⟩

theorem mem_intercalate_of_mem (h : part ∈ parts) (hx : x ∈ part) :
    x ∈ [separator].intercalate parts := by
  induction parts with
  | nil => simp at h
  | cons first rest ih =>
    cases rest with
    | nil =>
      obtain rfl := List.mem_singleton.mp h
      rwa [List.intercalate_singleton]
    | cons next rest =>
      rw [List.intercalate_cons_cons, List.append_assoc, List.mem_append, List.mem_append]
      rcases List.mem_cons.mp h with rfl | h
      · exact .inl hx
      · exact .inr (.inr (ih h))

end Parts

/-! ## The argument of a converter -/

/-- Input shapes that are read back character by character. -/
structure ShapeReader where
  shapes : List Shape := []
  /-- The dimensions of a shape whose bracket is open. -/
  dims : Shape := []
  /-- The dimension whose digits are being read. -/
  number : Option Nat := none

namespace ShapeReader

def endNumber (r : ShapeReader) : ShapeReader :=
  match r.number with
  | none => r
  | some n => { r with dims := r.dims ++ [n], number := none }

def take (r : ShapeReader) (c : Char) : ShapeReader :=
  if c = '[' then r
  else if c = ',' then r.endNumber
  else if c = ']' then { shapes := r.shapes ++ [r.endNumber.dims] }
  else { r with number := some (10 * r.number.getD 0 + (c.toNat - '0'.toNat)) }

/-- The shapes that an argument tells. -/
def read (argument : String) : List Shape :=
  ((argument.toList.drop "inputshape=".length).foldl take {}).shapes

variable {r : ShapeReader}

theorem take_of_isDigit {c : Char} (h : c.isDigit = true) :
    r.take c = { r with number := some (10 * r.number.getD 0 + (c.toNat - '0'.toNat)) } := by
  have hne {other : Char} (hother : other.isDigit = false) : c ≠ other := by
    rintro rfl
    rw [h] at hother
    cases hother
  rw [take, if_neg (hne rfl), if_neg (hne rfl), if_neg (hne rfl)]

theorem foldl_take_digits {cs : List Char} (h : ∀ c ∈ cs, c.isDigit = true) (n : Nat) :
    cs.foldl take { r with number := some n } =
      { r with number := some (Nat.ofDigitChars 10 cs n) } := by
  induction cs generalizing n with
  | nil => rfl
  | cons c cs ih =>
    rw [List.forall_mem_cons] at h
    rw [List.foldl_cons, take_of_isDigit h.1]
    exact ih h.2 _

/-- The digits of a number are read as that number. -/
theorem foldl_take_toDigits (h : r.number = none) (n : Nat) :
    (Nat.toDigits 10 n).foldl take r = { r with number := some n } := by
  have hdigits : ∀ c ∈ Nat.toDigits 10 n, c.isDigit = true :=
    fun _ hc => Nat.isDigit_of_mem_toDigits (by omega) (by omega) hc
  have hvalue : Nat.ofDigitChars 10 (Nat.toDigits 10 n) 0 = n := Nat.ofDigitChars_ten_toDigits
  obtain ⟨first, rest, hsplit⟩ := List.exists_cons_of_ne_nil (Nat.toDigits_ne_nil (b := 10) (n := n))
  rw [hsplit] at hdigits hvalue ⊢
  rw [List.forall_mem_cons] at hdigits
  rw [List.foldl_cons, take_of_isDigit hdigits.1, h, foldl_take_digits hdigits.2]
  rw [Nat.ofDigitChars_cons] at hvalue
  rw [Option.getD_none, hvalue]

/-- Dimensions with commas between them, up to the closing bracket, are read as one shape. -/
theorem foldl_take_dims (h : r.number = none) (dims : Shape) :
    ([','].intercalate (dims.map (Nat.toDigits 10)) ++ [']']).foldl take r =
      { shapes := r.shapes ++ [r.dims ++ dims] } := by
  induction dims generalizing r with
  | nil => simp [List.intercalate, take, endNumber, h]
  | cons n rest ih =>
    cases rest with
    | nil =>
      rw [List.map_singleton, List.intercalate_singleton, List.foldl_append,
        foldl_take_toDigits h]
      simp [take, endNumber]
    | cons next rest =>
      rw [List.map_cons, List.map_cons, List.intercalate_cons_cons, ← List.map_cons,
        List.append_assoc, List.append_assoc, List.foldl_append, foldl_take_toDigits h,
        List.singleton_append, List.foldl_cons]
      have hcomma : ({ r with number := some n } : ShapeReader).take ',' =
          { r with dims := r.dims ++ [n], number := none } := by
        simp [take, endNumber]
      rw [hcomma, ih rfl]
      simp

/-- A shape in its brackets. -/
def group (s : Shape) : List Char := '[' :: ([','].intercalate (s.map (Nat.toDigits 10)) ++ [']'])

theorem toList_inputShapeArgument (shapes : List Shape) :
    (inputShapeArgument shapes).toList =
      "inputshape=".toList ++ [','].intercalate (shapes.map group) := by
  have hgroup (s : Shape) :
      ("[" ++ ",".intercalate (s.map toString) ++ "]").toList = group s := by
    simp [String.toList_intercalate, group, Function.comp_def]
  rw [inputShapeArgument, String.toList_append, String.toList_intercalate, List.map_map]
  exact congrArg (fun groups => "inputshape=".toList ++ [','].intercalate groups)
    (List.map_congr_left fun s _ => hgroup s)

theorem foldl_take_groups (known : List Shape) (shapes : List Shape) :
    ([','].intercalate (shapes.map group)).foldl take { shapes := known } =
      { shapes := known ++ shapes } := by
  have hgroup (known : List Shape) (s : Shape) :
      (group s).foldl take { shapes := known } = { shapes := known ++ [s] } := by
    rw [group, List.foldl_cons]
    exact foldl_take_dims rfl s
  induction shapes generalizing known with
  | nil => simp [List.intercalate]
  | cons s rest ih =>
    cases rest with
    | nil => rw [List.map_singleton, List.intercalate_singleton, hgroup]
    | cons next rest =>
      rw [List.map_cons, List.map_cons, List.intercalate_cons_cons, ← List.map_cons,
        List.append_assoc, List.foldl_append, hgroup, List.singleton_append, List.foldl_cons]
      have hcomma : ({ shapes := known ++ [s] } : ShapeReader).take ',' =
          { shapes := known ++ [s] } := rfl
      rw [hcomma, ih, List.append_assoc, List.singleton_append]

/-- What an argument tells is read back from it. -/
theorem read_inputShapeArgument (shapes : List Shape) :
    read (inputShapeArgument shapes) = shapes := by
  have hdrop : (inputShapeArgument shapes).toList.drop "inputshape=".length =
      [','].intercalate (shapes.map group) := by
    rw [toList_inputShapeArgument]
    exact List.drop_left
  rw [read, hdrop, foldl_take_groups, List.nil_append]

/-- Shapes are told in digits, commas and brackets. -/
theorem mem_groups {shapes : List Shape} {c : Char}
    (h : c ∈ [','].intercalate (shapes.map group)) : c.isDigit = true ∨ c ∈ [',', '[', ']'] := by
  rcases mem_intercalate h with rfl | ⟨part, hpart, hc⟩
  · simp
  obtain ⟨s, -, rfl⟩ := List.mem_map.mp hpart
  rw [group, List.mem_cons, List.mem_append, List.mem_singleton] at hc
  rcases hc with rfl | hc | rfl
  · simp
  · rcases mem_intercalate hc with rfl | ⟨digits, hdigits, hc⟩
    · simp
    · obtain ⟨n, -, rfl⟩ := List.mem_map.mp hdigits
      exact .inl (Nat.isDigit_of_mem_toDigits (by omega) (by omega) hc)
  · simp

end ShapeReader

/-- A digit is no white space. -/
theorem Text.isBlank_of_isDigit {c : Char} (h : c.isDigit = true) : Text.isBlank c = false := by
  obtain ⟨hlow, hhigh⟩ : 48 ≤ c.toNat ∧ c.toNat ≤ 57 := by
    simpa [Char.isDigit, UInt32.le_iff_toNat_le] using h
  simp only [Text.isBlank, Text.blankRanges, List.any_cons, List.any_nil, Bool.or_false,
    Bool.or_eq_false_iff, Bool.and_eq_false_iff, decide_eq_false_iff_not, Nat.not_le]
  omega

/-- No two lists of shapes have one argument, and a reader gets the shapes back from it. It is a word
of digits, commas and brackets after its name. -/
theorem inputShapeArgument_unambiguous :
    (∀ shapes others, inputShapeArgument shapes = inputShapeArgument others ↔ shapes = others) ∧
      (∀ shapes, ShapeReader.read (inputShapeArgument shapes) = shapes) ∧
      ∀ shapes, ∃ told, inputShapeArgument shapes = "inputshape=" ++ told ∧
        (∀ c ∈ told.toList, c.isDigit = true ∨ c ∈ [',', '[', ']']) ∧
        ∀ c ∈ (inputShapeArgument shapes).toList, Text.isBlank c = false := by
  refine ⟨fun shapes others => ⟨fun h => ?_, congrArg _⟩, ShapeReader.read_inputShapeArgument,
    fun shapes => ?_⟩
  · rw [← ShapeReader.read_inputShapeArgument shapes, h, ShapeReader.read_inputShapeArgument]
  · have htext := ShapeReader.toList_inputShapeArgument shapes
    refine ⟨.ofList ([','].intercalate (shapes.map ShapeReader.group)), ?_, ?_, ?_⟩
    · simp only [← String.toList_inj, htext, String.toList_append, String.toList_ofList]
    · rw [String.toList_ofList]
      exact fun c hc => ShapeReader.mem_groups hc
    · intro c hc
      rw [htext, List.mem_append] at hc
      have hname : ∀ c ∈ "inputshape=".toList, Text.isBlank c = false := by
        simp [Text.isBlank, Text.blankRanges]
      have hmarks : ∀ c ∈ [',', '[', ']'], Text.isBlank c = false := by
        simp [Text.isBlank, Text.blankRanges]
      rcases hc with hc | hc
      · exact hname c hc
      · rcases ShapeReader.mem_groups hc with hdigit | hmark
        · exact Text.isBlank_of_isDigit hdigit
        · exact hmarks c hmark

/-! ## The answer of a runner -/

namespace Text

variable {cs : List Char}

/-- A line without the carriage return before its line feed. -/
def dropReturn (line : List Char) : List Char :=
  if line.getLast? = some '\r' then line.dropLast else line

/-- The lines of a text. Each ends in a line feed, but for the last, which may be empty. -/
def lines (cs : List Char) : List (List Char) :=
  let pieces := cs.splitOn '\n'
  pieces.dropLast.map dropReturn ++ pieces.getLast?.toList

/-- Whether a line is not all white space. -/
def visible (line : List Char) : Bool := !line.all isBlank

theorem endLine_reverse (line : List Char) : endLine line.reverse = dropReturn line := by
  cases line using List.reverseRecOn with
  | nil => rfl
  | append_singleton front c =>
    rw [List.reverse_concat, dropReturn, List.getLast?_concat, List.dropLast_concat]
    by_cases hc : c = '\r'
    · rw [hc]
      simp [endLine]
    · rw [if_neg (by simpa using hc)]
      unfold endLine
      split
      · rename_i heq
        exact absurd (List.cons.inj heq).1 hc
      · simp

theorem splitOn_of_notMem (h : '\n' ∉ cs) : cs.splitOn '\n' = [cs] := by
  rw [List.splitOn_eq_splitOnP]
  exact List.splitOnP_eq_singleton fun c hc => beq_false_of_ne fun heq => h (heq ▸ hc)

theorem lines_append (front rest : List Char) :
    lines (front ++ '\n' :: rest) = (front.splitOn '\n').map dropReturn ++ lines rest := by
  have hpieces : (front ++ '\n' :: rest).splitOn '\n' =
      front.splitOn '\n' ++ rest.splitOn '\n' := by
    simp only [List.splitOn_eq_splitOnP]
    exact List.splitOnP_append_cons (p := (· == '\n')) _ _ (beq_self_eq_true '\n')
  have hne : rest.splitOn '\n' ≠ [] := by
    rw [List.splitOn_eq_splitOnP]
    exact List.splitOnP_ne_nil _ _
  rw [lines, lines, hpieces, List.dropLast_append_of_ne_nil hne,
    List.getLast?_append_of_ne_nil _ hne, List.map_append, List.append_assoc]

theorem lines_of_notMem (h : '\n' ∉ cs) : lines cs = [cs] := by
  rw [lines, splitOn_of_notMem h]
  rfl

theorem lines_cons {line : List Char} (h : '\n' ∉ line) (rest : List Char) :
    lines (line ++ '\n' :: rest) = dropReturn line :: lines rest := by
  rw [lines_append, splitOn_of_notMem h]
  rfl

/-- Lines hold no characters but those of the text. -/
theorem mem_of_mem_lines {line : List Char} {c : Char} (h : line ∈ lines cs) (hc : c ∈ line) :
    c ∈ cs := by
  have hpiece {piece : List Char} (hpiece : piece ∈ cs.splitOn '\n') (hc : c ∈ piece) :
      c ∈ cs := by
    have hwhole : ['\n'].intercalate (cs.splitOn '\n') = cs := List.intercalate_splitOn '\n'
    rw [← hwhole]
    exact mem_intercalate_of_mem hpiece hc
  rw [lines, List.mem_append] at h
  rcases h with h | h
  · obtain ⟨piece, hmem, rfl⟩ := List.mem_map.mp h
    refine hpiece (List.mem_of_mem_dropLast hmem) ?_
    unfold dropReturn at hc
    split at hc
    · exact List.mem_of_mem_dropLast hc
    · exact hc
  · rw [Option.mem_toList] at h
    exact hpiece (List.mem_of_getLast? h) hc

/-- The scan for the last line finds the last visible one of the lines. -/
theorem lastLineFrom_eq (found : Option (List Char)) (line : List Char) (hline : '\n' ∉ line)
    (cs : List Char) :
    lastLineFrom found line.reverse cs =
      ((lines (line ++ cs)).filter visible).getLast?.or found := by
  have hlater (found : Option (List Char)) (line : List Char) :
      laterLine found line = ([line].filter visible).getLast?.or found := by
    unfold laterLine
    cases hblank : line.all isBlank <;> simp [visible, hblank]
  induction cs generalizing found line with
  | nil =>
    rw [lastLineFrom, List.reverse_reverse, List.append_nil, lines_of_notMem hline, hlater]
  | cons c cs ih =>
    rw [lastLineFrom]
    split
    · rename_i hc
      rw [hc, lines_cons hline, endLine_reverse, hlater]
      have hrest := ih (([dropReturn line].filter visible).getLast?.or found) [] List.not_mem_nil
      rw [List.reverse_nil, List.nil_append] at hrest
      have hsplit : dropReturn line :: lines cs = [dropReturn line] ++ lines cs := rfl
      rw [hrest, hsplit, List.filter_append, List.getLast?_append, Option.or_assoc]
    · rename_i hc
      have hline' : '\n' ∉ line ++ [c] := by
        rw [List.mem_append, List.mem_singleton, not_or]
        exact ⟨hline, Ne.symm hc⟩
      rw [← List.reverse_concat, ih found _ hline', List.append_assoc, List.singleton_append]

theorem lastLine?_eq (s : String) :
    lastLine? s = ((lines s.toList).filter visible).getLast?.map String.ofList := by
  have hscan := lastLineFrom_eq none [] List.not_mem_nil s.toList
  rw [List.reverse_nil, List.nil_append, Option.or_none] at hscan
  rw [lastLine?, hscan]

theorem lastLine?_of_noNewline {s : String} (h : '\n' ∉ s.toList)
    (hvisible : s.toList.all isBlank = false) : lastLine? s = some s := by
  rw [lastLine?_eq, lines_of_notMem h]
  simp [visible, hvisible]

/-- A visible line is the last one before lines that are blank, whatever stands before it. -/
theorem lastLine?_of_blank {line : String} (hline : '\n' ∉ line.toList)
    (hreturn : line.toList.getLast? ≠ some '\r') (hvisible : line.toList.all isBlank = false)
    {before after : List Char} (hbefore : before = [] ∨ before.getLast? = some '\n')
    (hafter : after.all isBlank = true) :
    lastLine? (.ofList (before ++ (line.toList ++ '\n' :: after))) = some line := by
  have hblank : (lines after).filter visible = [] := by
    rw [List.filter_eq_nil_iff]
    intro piece hpiece
    have hall : piece.all isBlank = true :=
      List.all_eq_true.mpr fun c hc => List.all_eq_true.mp hafter c (mem_of_mem_lines hpiece hc)
    simp [visible, hall]
  have hlast : ((lines (line.toList ++ '\n' :: after)).filter visible) = [line.toList] := by
    rw [lines_cons hline, dropReturn, if_neg hreturn, List.filter_cons_of_pos (by simp [visible,
      hvisible]), hblank]
  rw [lastLine?_eq, String.toList_ofList]
  rcases hbefore with rfl | hbefore
  · rw [List.nil_append, hlast]
    simp
  · obtain ⟨front, rfl⟩ := List.getLast?_eq_some_iff.mp hbefore
    rw [List.append_assoc, List.singleton_append, lines_append, List.filter_append, hlast,
      List.getLast?_concat]
    simp

end Text

namespace ProcessSettings

/-- What one line of a runner's output is read as. -/
def readLine (line : String) : Except OutputFault OutputTuple :=
  (Json.decode response (Document.ofString line)).mapError (.malformed · line)

theorem readOutput_toUTF8 (text : String) :
    readOutput text.toUTF8 =
      match Text.lastLine? text with
      | none => .error .blank
      | some line => readLine line := by
  simp only [readOutput, fromUTF8?_toUTF8]
  cases Text.lastLine? text <;> rfl

theorem readOutput_of_lastLine {text line : String} (h : Text.lastLine? text = some line) :
    readOutput text.toUTF8 = readLine line := by
  rw [readOutput_toUTF8, h]

theorem readOutput_eq_ok {stdout : ByteArray} {outputs : OutputTuple}
    (h : readOutput stdout = .ok outputs) :
    ∃ text line, stdout = text.toUTF8 ∧ Text.lastLine? text = some line ∧
      readLine line = .ok outputs := by
  cases hspelled : String.fromUTF8? stdout with
  | none =>
    rw [readOutput, hspelled] at h
    cases h
  | some text =>
    obtain rfl := toUTF8_of_fromUTF8? hspelled
    rw [readOutput_toUTF8] at h
    split at h
    · cases h
    · rename_i line hline
      exact ⟨text, line, rfl, hline, h⟩

/-- Only the last line that is not blank counts: neither what stands before it nor blank lines after
it change what is read, or why it is not. Without such a line there is no output, and outputs never
come from another line. -/
theorem readOutput_by_last_line :
    (∀ (noise line : String) (blanks : List String), '\n' ∉ line.toList →
      line.toList.getLast? ≠ some '\r' → line.toList.all Text.isBlank = false →
      (∀ blank ∈ blanks, blank.toList.all Text.isBlank = true) →
      readOutput (noise ++ "\n" ++ line ++ "\n" ++ "\n".intercalate blanks).toUTF8 =
          readOutput line.toUTF8 ∧
        readOutput (line ++ "\n" ++ "\n".intercalate blanks).toUTF8 = readOutput line.toUTF8 ∧
        readOutput line.toUTF8 = readLine line) ∧
    (∀ text : String, (∀ line ∈ Text.lines text.toList, line.all Text.isBlank = true) →
      readOutput text.toUTF8 = .error .blank) ∧
    ∀ (stdout : ByteArray) (outputs : OutputTuple), readOutput stdout = .ok outputs →
      ∃ text line, stdout = String.toUTF8 text ∧
        ((Text.lines text.toList).filter Text.visible).getLast? = some line ∧
        readLine (.ofList line) = .ok outputs := by
  refine ⟨fun noise line blanks hline hreturn hvisible hblanks => ?_, fun text hblank => ?_,
    fun stdout outputs h => ?_⟩
  · have hafter : ("\n".intercalate blanks).toList.all Text.isBlank = true := by
      rw [List.all_eq_true, String.toList_intercalate]
      intro c hc
      rcases mem_intercalate hc with rfl | ⟨part, hpart, hc⟩
      · rfl
      · obtain ⟨blank, hmem, rfl⟩ := List.mem_map.mp hpart
        exact List.all_eq_true.mp (hblanks blank hmem) c hc
    have halone := Text.lastLine?_of_noNewline hline hvisible
    have hlast (before : List Char) (hbefore : before = [] ∨ before.getLast? = some '\n')
        {text : String}
        (htext : text.toList = before ++ (line.toList ++ '\n' :: ("\n".intercalate blanks).toList)) :
        readOutput text.toUTF8 = readOutput line.toUTF8 := by
      have hfound := Text.lastLine?_of_blank hline hreturn hvisible hbefore hafter
      rw [← htext, String.ofList_toList] at hfound
      rw [readOutput_of_lastLine hfound, readOutput_of_lastLine halone]
    refine ⟨?_, ?_, readOutput_of_lastLine halone⟩
    · exact hlast (noise.toList ++ ['\n']) (.inr List.getLast?_concat) (by simp)
    · exact hlast [] (.inl rfl) (by simp)
  · have hnone : (Text.lines text.toList).filter Text.visible = [] := by
      rw [List.filter_eq_nil_iff]
      intro line hline
      simp [Text.visible, hblank line hline]
    rw [readOutput_toUTF8, Text.lastLine?_eq, hnone]
    rfl
  · obtain ⟨text, line, htext, hlast, hread⟩ := readOutput_eq_ok h
    rw [Text.lastLine?_eq, Option.map_eq_some_iff] at hlast
    obtain ⟨cs, hcs, rfl⟩ := hlast
    exact ⟨text, cs, htext, hcs, hread⟩

/-- An answer without outputs. -/
def soundLine : Json := .record [("outputs", .array [])]

/-- A broken line is not saved by a sound one before it. -/
theorem readOutput_broken_line :
    readLine soundLine.text = .ok [] ∧
      readOutput (soundLine.text ++ "\n" ++ "\x7b" ++ "\n" ++
        "\n".intercalate ["", " \t"]).toUTF8 = .error (.malformed .malformed "\x7b") ∧
      readOutput "\n \n".toUTF8 = .error .blank := by
  obtain ⟨hlast, hblank, -⟩ := readOutput_by_last_line
  have hprintable : Printable 2 soundLine := .object (List.forall_mem_singleton.mpr (.array nofun))
  have hsound : readLine soundLine.text = .ok [] := by
    rw [readLine, Document.ofString_text (printable_mono hprintable (by decide))]
    rfl
  have hbroken : readLine "\x7b" = .error (.malformed .malformed "\x7b") := by
    have hchars : "\x7b".toList.rdropWhile isBlank = ['{'] := by decide
    have hdocument : Document.ofChars ['{'] = ⟨.object [] false, true⟩ := rfl
    rw [readLine, Document.ofString_eq, hchars, hdocument]
    rfl
  have hbrace : "\x7b".toList.all Text.isBlank = false := by simp [Text.isBlank, Text.blankRanges]
  have hblanks : ∀ blank ∈ ["", " \t"], blank.toList.all Text.isBlank = true := by
    simp [Text.isBlank, Text.blankRanges]
  have hlines : Text.lines "\n \n".toList = [[], [' '], []] := by decide
  obtain ⟨hafter, -, hread⟩ := hlast soundLine.text "\x7b" ["", " \t"] (by simp) (by simp) hbrace
    hblanks
  refine ⟨hsound, ?_, hblank "\n \n" ?_⟩
  · rw [hafter, hread, hbroken]
  · rw [hlines]
    simp [Text.isBlank, Text.blankRanges]

end ProcessSettings

end TensorParity
