import TensorParity.Json.Decode
import TensorParity.Json.Printer
import TensorParity.Proofs.Decimal.ReadBack
import TensorParity.Proofs.Json.Number
import TensorParity.Proofs.Rounding.Bits

/-!
Literals of doubles. A literal of the format has a sign, digits without an idle zero in front,
digits after a point and a power of ten; what it writes is a decimal. Every literal whose decimal
lies in the rounding interval of a double is read as a number that has the double's value. What is
printed for a double is such a literal, so a printed number is read as itself, sign and class
included.
-/
namespace TensorParity

namespace Json

/-- Digits alone, and at least one. -/
structure Digits (cs : List Char) : Prop where
  ne_nil : cs ≠ []
  digit : ∀ c ∈ cs, c.isDigit = true

/-- The digits before a point: a zero stands in front of no other. -/
structure WholeDigits (cs : List Char) : Prop extends Digits cs where
  zero : cs.head? = some '0' → cs = ['0']

/-- The digits after a point, with the point; or neither. -/
inductive FractionText : List Char → List Char → Prop where
  | none : FractionText [] []
  | point {digits : List Char} (hdigits : Digits digits) : FractionText digits ('.' :: digits)

/-- A power of ten behind its letter; or neither. -/
inductive ExponentText : Int → List Char → Prop where
  | none : ExponentText 0 []
  | plain {letter : Char} {digits : List Char} (hletter : letter = 'e' ∨ letter = 'E')
      (hdigits : Digits digits) : ExponentText (Nat.ofDigitChars 10 digits 0) (letter :: digits)
  | plus {letter : Char} {digits : List Char} (hletter : letter = 'e' ∨ letter = 'E')
      (hdigits : Digits digits) :
      ExponentText (Nat.ofDigitChars 10 digits 0) (letter :: '+' :: digits)
  | minus {letter : Char} {digits : List Char} (hletter : letter = 'e' ∨ letter = 'E')
      (hdigits : Digits digits) :
      ExponentText (-(Nat.ofDigitChars 10 digits 0 : Int)) (letter :: '-' :: digits)

/-- A literal, with its sign and the decimal that it writes. -/
inductive Literal : Bool → Decimal → List Char → Prop where
  | unsigned {whole fraction fractionText exponentText : List Char} {e : Int}
      (hwhole : WholeDigits whole) (hfraction : FractionText fraction fractionText)
      (hexponent : ExponentText e exponentText) :
      Literal false ⟨Nat.ofDigitChars 10 (whole ++ fraction) 0, e - fraction.length⟩
        (whole ++ (fractionText ++ exponentText))
  | minus {d : Decimal} {cs : List Char} (h : Literal false d cs) : Literal true d ('-' :: cs)

theorem WholeDigits.noPoint {cs : List Char} (h : WholeDigits cs) : '.' ∉ cs ∧ 'e' ∉ cs :=
  ⟨fun hmem => absurd (h.digit _ hmem) (by decide), fun hmem => absurd (h.digit _ hmem) (by decide)⟩

namespace Reader

theorem digitsValue_eq (digits : List Char) :
    digitsValue digits = Nat.ofDigitChars 10 digits 0 := rfl

theorem real?_eq {d : Decimal} {bits : Nat} (negative : Bool)
    (hfinite : bits < BinaryFormat.binary64.infinity) (h : d.ReadsAs bits) :
    real? negative d = some (.real (SignedBits.toFloat ⟨negative, bits⟩)) := by
  simp only [real?, Decimal.nearest_eq hfinite h]
  rw [if_neg (Nat.ne_of_lt hfinite)]

theorem span_of_digits {digits : List Char} (h : Digits digits) :
    digits.span Char.isDigit = (digits, []) ∧ digits.isEmpty = false := by
  have hspan := span_digits h.digit noDigit_nil
  rw [List.append_nil] at hspan
  exact ⟨hspan, by simpa using h.ne_nil⟩

/-- The exponent of a literal is read to its end. -/
theorem exponent?_text {e : Int} {cs : List Char} (h : ExponentText e cs) :
    ∃ e', exponent? cs = some (e', []) ∧ e'.getD 0 = e ∧ (e' = none → cs = []) := by
  cases h with
  | none => exact ⟨none, rfl, rfl, fun _ => rfl⟩
  | @plain letter digits hletter hdigits =>
    obtain ⟨hspan, hsome⟩ := span_of_digits hdigits
    refine ⟨some (digitsValue digits), ?_, rfl, fun h => absurd h (Option.some_ne_none _)⟩
    rw [exponent?, if_pos hletter]
    · simp only [hspan, hsome]
      rfl
    -- a digit is no sign
    · rintro rest rfl
      exact absurd (hdigits.digit '-' (by simp)) (by decide)
    · rintro rest rfl
      exact absurd (hdigits.digit '+' (by simp)) (by decide)
  | plus hletter hdigits =>
    obtain ⟨hspan, hsome⟩ := span_of_digits hdigits
    refine ⟨some _, ?_, rfl, fun h => absurd h (Option.some_ne_none _)⟩
    simp only [exponent?, if_pos hletter, hspan, hsome]
    rfl
  | minus hletter hdigits =>
    obtain ⟨hspan, hsome⟩ := span_of_digits hdigits
    refine ⟨some _, ?_, rfl, fun h => absurd h (Option.some_ne_none _)⟩
    simp only [exponent?, if_pos hletter, hspan, hsome]
    rfl

theorem exponentText_head {e : Int} {cs : List Char} (h : ExponentText e cs) :
    NoDigit cs ∧ cs.head? ≠ some '.' := by
  have hletter {letter : Char} {rest : List Char} (hletter : letter = 'e' ∨ letter = 'E') :
      NoDigit (letter :: rest) ∧ (letter :: rest).head? ≠ some '.' := by
    rcases hletter with rfl | rfl <;> simp [NoDigit]
  cases h with
  | none => simp [NoDigit]
  | plain h | plus h | minus h => exact hletter h

/-- The fraction of a literal is read up to its exponent. -/
theorem fraction?_text {digits cs rest : List Char} (h : FractionText digits cs)
    (hrest : NoDigit rest) (hpoint : rest.head? ≠ some '.') :
    fraction? (cs ++ rest) = some (digits, rest) := by
  cases h with
  | none =>
    unfold fraction?
    split
    · rename_i heq
      exact absurd (congrArg List.head? heq) hpoint
    · rfl
  | point hdigits =>
    have hspan := span_digits hdigits.digit hrest
    have hsome : digits.isEmpty = false := by simpa using hdigits.ne_nil
    simp only [List.cons_append, fraction?, hspan, hsome]
    rfl

theorem fractionText_head {digits cs rest : List Char} (h : FractionText digits cs)
    (hrest : NoDigit rest) : NoDigit (cs ++ rest) := by
  cases h with
  | none => exact hrest
  | point => simp [NoDigit]

/-- An integer that lies in the interval of a double has its value, whatever class it is read in. -/
theorem integer?_literal {negative : Bool} {n bits : Nat}
    (hfinite : bits < BinaryFormat.binary64.infinity) (hreads : Decimal.ReadsAs ⟨n, 0⟩ bits) :
    ∃ number, integer? negative n = some number ∧
      JsonNumber.toFloat number = SignedBits.toFloat ⟨negative, bits⟩ := by
  have hnearest := Decimal.nearest_eq hfinite hreads
  have hreal := real?_eq negative hfinite hreads
  unfold integer?
  cases negative with
  | false =>
    rw [if_neg (by decide)]
    split
    · exact ⟨.unsigned n, rfl, by rw [JsonNumber.toFloat, hnearest]⟩
    · exact ⟨_, hreal, rfl⟩
  | true =>
    rw [if_pos rfl]
    split
    · exact ⟨.negative n, rfl, by rw [JsonNumber.toFloat, hnearest]⟩
    · exact ⟨_, hreal, rfl⟩

/-- A literal in the interval of a double is read as a number of its value. One with a point or an
exponent is no integer. -/
theorem unsigned?_literal {negative : Bool} {d : Decimal} {cs : List Char} {bits : Nat}
    (h : Literal false d cs) (hfinite : bits < BinaryFormat.binary64.infinity)
    (hreads : d.ReadsAs bits) :
    ∃ number, unsigned? negative cs = some (number, []) ∧
      JsonNumber.toFloat number = SignedBits.toFloat ⟨negative, bits⟩ ∧
      ('.' ∈ cs ∨ 'e' ∈ cs → number = .real (SignedBits.toFloat ⟨negative, bits⟩)) := by
  cases h with
  | @unsigned whole fraction fractionText exponentText e hwhole hfraction hexponent =>
    obtain ⟨hends, hpoint⟩ := exponentText_head hexponent
    obtain ⟨e', hexponent', rfl, hnone⟩ := exponent?_text hexponent
    have hwhole' := whole?_digits hwhole.digit hwhole.ne_nil hwhole.zero
      (fractionText_head hfraction hends)
    have hfraction' := fraction?_text hfraction hends hpoint
    simp only [unsigned?, hwhole', hfraction', hexponent', Option.bind_eq_bind, Option.bind_some]
    split
    · obtain rfl := hnone rfl
      obtain rfl : fractionText = [] := by
        cases hfraction with
        | none => rfl
        | point hdigits => exact absurd rfl hdigits.ne_nil
      have hinteger : Decimal.ReadsAs ⟨digitsValue whole, 0⟩ bits := by
        simpa [digitsValue_eq] using hreads
      obtain ⟨number, hnumber, hvalue⟩ := integer?_literal hfinite hinteger
      refine ⟨number, by rw [hnumber]; rfl, hvalue, fun hmark => ?_⟩
      simp only [List.append_nil] at hmark
      exact absurd hmark (not_or.mpr hwhole.noPoint)
    · have hreal := real?_eq negative hfinite hreads
      rw [digitsValue_eq, hreal]
      exact ⟨_, rfl, rfl, fun _ => rfl⟩

end Reader

theorem Literal.number? {negative : Bool} {d : Decimal} {cs : List Char} {bits : Nat}
    (h : Literal negative d cs) (hfinite : bits < BinaryFormat.binary64.infinity)
    (hreads : d.ReadsAs bits) :
    ∃ number, Reader.number? cs = some (number, []) ∧
      JsonNumber.toFloat number = SignedBits.toFloat ⟨negative, bits⟩ ∧
      ('.' ∈ cs ∨ 'e' ∈ cs → number = .real (SignedBits.toFloat ⟨negative, bits⟩)) := by
  cases h with
  | unsigned hwhole hfraction hexponent =>
    obtain ⟨number, hread, hnumber⟩ :=
      Reader.unsigned?_literal (.unsigned hwhole hfraction hexponent) hfinite hreads
    exact ⟨number, Reader.number?_unsigned hread, hnumber⟩
  | minus h =>
    obtain ⟨number, hread, hvalue, hreal⟩ := Reader.unsigned?_literal h hfinite hreads
    exact ⟨number, hread, hvalue, fun hmark => hreal (by simpa using hmark)⟩

/-! What is printed for a number. -/

section Printed

variable {d : Decimal} {bits n : Nat}

theorem isDigit_digitChars : ∀ c ∈ Decimal.digitChars n, c.isDigit = true :=
  fun _ hc => Nat.isDigit_of_mem_toDigits (by omega) (by omega) hc

/-- Only zero has a leading zero. -/
theorem head_digitChars (hn : n ≠ 0) : (Decimal.digitChars n).head? ≠ some '0' := by
  unfold Decimal.digitChars
  induction n using Nat.strongRecOn with
  | ind n ih =>
    rw [Nat.toDigits_eq_if (by omega)]
    split
    · rename_i hsmall
      interval_cases n <;> simp_all
    · have htail := ih (n / 10) (by omega) (by omega)
      obtain ⟨c, cs, hcs⟩ := List.exists_cons_of_ne_nil
        (Nat.toDigits_ne_nil (n := n / 10) (b := 10))
      rw [hcs] at htail ⊢
      simpa using htail

theorem digitChars_ne_nil (n : Nat) : Decimal.digitChars n ≠ [] := Nat.toDigits_ne_nil

theorem digits_digitChars (n : Nat) : Digits (Decimal.digitChars n) :=
  ⟨digitChars_ne_nil n, isDigit_digitChars⟩

theorem isDigit_zeros (k : Nat) : ∀ c ∈ List.replicate k '0', c.isDigit = true := by
  intro c hc
  rw [List.eq_of_mem_replicate hc]
  rfl

theorem digitChars_zeros (n k : Nat) :
    Nat.ofDigitChars 10 (Decimal.digitChars n ++ List.replicate k '0') 0 = n * 10 ^ k := by
  rw [Nat.ofDigitChars_append, Nat.ofDigitChars_replicate_zero, Nat.mul_comm,
    Decimal.digitChars, Nat.ofDigitChars_ten_toDigits]

theorem zeros_digitChars (n k : Nat) :
    Nat.ofDigitChars 10 (List.replicate k '0' ++ Decimal.digitChars n) 0 = n := by
  rw [Nat.ofDigitChars_append, Nat.ofDigitChars_replicate_zero, Nat.mul_zero,
    Decimal.digitChars, Nat.ofDigitChars_ten_toDigits]

/-- The first digits of a number, and zeros behind the digits of any but zero, are a whole part. -/
theorem wholeDigits_take (n : Nat) {k : Nat} (hk : 0 < k) :
    WholeDigits ((Decimal.digitChars n).take k) := by
  refine ⟨⟨?_, fun c hc => isDigit_digitChars c (List.mem_of_mem_take hc)⟩, fun hhead => ?_⟩
  · simp [digitChars_ne_nil, Nat.ne_of_gt hk]
  · rw [List.head?_take, if_neg (by omega)] at hhead
    by_cases hn : n = 0
    · obtain ⟨k, rfl⟩ : ∃ k', k = k' + 1 := ⟨k - 1, by omega⟩
      simp [hn, Decimal.digitChars]
    · exact absurd hhead (head_digitChars hn)

theorem wholeDigits_zeros {k : Nat} (hzero : n = 0 → k = 0) :
    WholeDigits (Decimal.digitChars n ++ List.replicate k '0') := by
  refine ⟨⟨by simp [digitChars_ne_nil],
    List.forall_mem_append.mpr ⟨isDigit_digitChars, isDigit_zeros k⟩⟩, fun hhead => ?_⟩
  by_cases hn : n = 0
  · simp [hzero hn, hn, Decimal.digitChars]
  · obtain ⟨c, cs, hcs⟩ := List.exists_cons_of_ne_nil (digitChars_ne_nil n)
    have := head_digitChars hn
    simp_all

/-- Digits with a point after the first `k` of them. -/
theorem literal_split (n : Nat) {k : Nat} (hk : 0 < k) {fractionText exponentText : List Char}
    {e : Int} (hfraction : FractionText ((Decimal.digitChars n).drop k) fractionText)
    (hexponent : ExponentText e exponentText) :
    Literal false ⟨n, e - ((Decimal.digitChars n).length - k : Nat)⟩
      ((Decimal.digitChars n).take k ++ (fractionText ++ exponentText)) := by
  have hliteral := Literal.unsigned (wholeDigits_take n hk) hfraction hexponent
  rwa [List.take_append_drop, List.length_drop, Decimal.digitChars,
    Nat.ofDigitChars_ten_toDigits] at hliteral

/-- Positional digits with a fraction are a literal of their decimal's interval. -/
theorem literal_positional (h : d.ReadsAs bits) (hzero : d.digits = 0 → d.exponent = 0) :
    '.' ∈ d.positional ['.', '0'] ∧
      ∃ d', Literal false d' (d.positional ['.', '0']) ∧ d'.ReadsAs bits := by
  obtain ⟨n, e⟩ := d
  simp only at hzero
  simp only [Decimal.positional]
  split
  · rename_i hwhole
    have hpoint : FractionText ['0'] ['.', '0'] :=
      .point ⟨by simp, List.forall_mem_singleton.mpr rfl⟩
    have hvalue : Decimal.ReadsAs ⟨Nat.ofDigitChars 10
        (Decimal.digitChars n ++ List.replicate e.toNat '0' ++ ['0']) 0,
        0 - (['0'].length : Nat)⟩ bits := by
      rw [List.append_assoc, ← List.replicate_succ', digitChars_zeros, Decimal.readsAs_shift,
        show 0 - ((['0'].length : Nat) : Int) + (e.toNat + 1 : Nat) = e by simp; omega]
      exact h
    have hliteral := Literal.unsigned (wholeDigits_zeros (n := n) (k := e.toNat) fun hn => by
      rw [hzero hn]; rfl) hpoint .none
    rw [List.append_nil] at hliteral
    exact ⟨by simp, _, hliteral, hvalue⟩
  · rename_i hbelow
    split
    · rename_i hpoint
      generalize hk : (((Decimal.digitChars n).length : Int) + e).toNat = k
      have hplaces : (0 : Int) - ((Decimal.digitChars n).length - k : Nat) = e := by omega
      have hfraction : (Decimal.digitChars n).drop k ≠ [] := by
        simp only [ne_eq, List.drop_eq_nil_iff]
        omega
      have hliteral := literal_split n (k := k) (by omega)
        (.point ⟨hfraction, fun c hc => isDigit_digitChars c (List.mem_of_mem_drop hc)⟩) .none
      rw [List.append_nil] at hliteral
      exact ⟨by simp, _, hliteral, hplaces.symm ▸ h⟩
    · rename_i hpoint
      generalize hk : (-(((Decimal.digitChars n).length : Int) + e)).toNat = k
      have hvalue : Decimal.ReadsAs ⟨Nat.ofDigitChars 10
          (['0'] ++ (List.replicate k '0' ++ Decimal.digitChars n)) 0,
          0 - ((List.replicate k '0' ++ Decimal.digitChars n).length : Nat)⟩ bits := by
        have hzeros : ['0'] ++ (List.replicate k '0' ++ Decimal.digitChars n) =
            List.replicate (k + 1) '0' ++ Decimal.digitChars n := rfl
        rw [hzeros, zeros_digitChars, List.length_append, List.length_replicate,
          show 0 - ((k + (Decimal.digitChars n).length : Nat) : Int) = e by omega]
        exact h
      have hliteral := Literal.unsigned
        ⟨⟨List.cons_ne_nil _ _, List.forall_mem_singleton.mpr rfl⟩, fun _ => rfl⟩
        (.point ⟨by simp [digitChars_ne_nil],
          List.forall_mem_append.mpr ⟨isDigit_zeros k, isDigit_digitChars (n := n)⟩⟩) .none
      rw [List.append_nil] at hliteral
      exact ⟨by simp, _, hliteral, hvalue⟩

/-- Digits with an exponent are a literal of their decimal. -/
theorem literal_scientific (d : Decimal) : 'e' ∈ d.scientific ∧ Literal false d d.scientific := by
  obtain ⟨n, e⟩ := d
  generalize hlead : ((Decimal.digitChars n).length : Int) + e - 1 = lead
  have hlength : 0 < (Decimal.digitChars n).length := Nat.length_toDigits_pos
  have hplaces : lead - ((Decimal.digitChars n).length - 1 : Nat) = e := by omega
  have hexponent : ExponentText lead ('e' :: (if lead < 0 then '-' else '+') ::
      Decimal.digitChars lead.natAbs) := by
    have hvalue : Nat.ofDigitChars 10 (Decimal.digitChars lead.natAbs) 0 = lead.natAbs :=
      zeros_digitChars lead.natAbs 0
    split
    · have hminus := ExponentText.minus (.inl rfl) (digits_digitChars lead.natAbs)
      rwa [hvalue, show -(lead.natAbs : Int) = lead by omega] at hminus
    · have hplus := ExponentText.plus (.inl rfl) (digits_digitChars lead.natAbs)
      rwa [hvalue, show (lead.natAbs : Int) = lead by omega] at hplus
  have hfraction : FractionText ((Decimal.digitChars n).drop 1)
      (if (Decimal.digitChars n).length = 1 then [] else '.' :: (Decimal.digitChars n).drop 1) := by
    split
    · rename_i hone
      rw [List.drop_eq_nil_of_le (Nat.le_of_eq hone)]
      exact .none
    · refine .point ⟨?_, fun c hc => isDigit_digitChars c (List.mem_of_mem_drop hc)⟩
      rw [ne_eq, List.drop_eq_nil_iff]
      omega
  have hliteral := literal_split n Nat.one_pos hfraction hexponent
  rw [hplaces, ← List.append_assoc] at hliteral
  simp only [Decimal.scientific, hlead]
  exact ⟨by simp, hliteral⟩

/-- What is printed for a double is a literal of it that has a point or an exponent. -/
theorem literal_printed {x : Float} (h : x.isFinite = true) :
    ('.' ∈ Printer.number (.real x) ∨ 'e' ∈ Printer.number (.real x)) ∧
      ∃ d, Literal (SignedBits.ofFloat x).negative d (Printer.number (.real x)) ∧
        d.ReadsAs (SignedBits.ofFloat x).bits := by
  have hfinite := (SignedBits.isFinite_iff x).mp h
  have hreads := Notation.readsAs_magnitude .even (SignedBits.ofFloat x).bits
  have hsigned (negative : Bool) {text : List Char} (hmark : '.' ∈ text ∨ 'e' ∈ text)
      (hliteral : ∃ d, Literal false d text ∧ d.ReadsAs (SignedBits.ofFloat x).bits) :
      ('.' ∈ (if negative then '-' :: text else text) ∨
          'e' ∈ (if negative then '-' :: text else text)) ∧
        ∃ d, Literal negative d (if negative then '-' :: text else text) ∧
          d.ReadsAs (SignedBits.ofFloat x).bits := by
    obtain ⟨d, hliteral, hd⟩ := hliteral
    cases negative with
    | false => exact ⟨hmark, d, hliteral, hd⟩
    | true => exact ⟨by simpa using hmark, d, .minus hliteral, hd⟩
  rw [Printer.number, Notation.data?, if_pos hfinite, Option.getD_some]
  refine hsigned _ ?_ ?_
  · split
    · exact .inl (literal_positional hreads Notation.exponent_magnitude).1
    · exact .inr (literal_scientific _).1
  · split
    · exact (literal_positional hreads Notation.exponent_magnitude).2
    · exact ⟨_, (literal_scientific _).2, hreads⟩

/-- What a printed integer is read back as. -/
theorem unsigned?_integer (negative : Bool) (n : Nat) :
    Reader.unsigned? negative (Decimal.digitChars n) =
      (Reader.integer? negative n).map (·, []) := by
  have hdigits := wholeDigits_zeros (n := n) (k := 0) fun _ => rfl
  simp only [List.replicate_zero, List.append_nil] at hdigits
  have hwhole := Reader.whole?_digits hdigits.digit hdigits.ne_nil hdigits.zero noDigit_nil
  rw [List.append_nil] at hwhole
  have hvalue : Reader.digitsValue (Decimal.digitChars n) = n := zeros_digitChars n 0
  simp only [Reader.unsigned?, hwhole, Reader.fraction?, Reader.exponent?, hvalue,
    Option.bind_eq_bind, Option.bind_some]
  cases Reader.integer? negative n <;> rfl

end Printed

/-- The literal printed for a number is read as that number, bit for bit. -/
theorem number?_printed {n : JsonNumber} (h : n.Readable) :
    Reader.number? (Printer.number n) = some (n, []) := by
  cases n with
  | unsigned n =>
    refine Reader.number?_unsigned ?_
    have hword : n < Shape.wordLimit := h
    rw [Printer.number, unsigned?_integer, Reader.integer?, if_neg (by simp), if_pos hword]
    rfl
  | negative n =>
    have hword : 0 < n ∧ n ≤ Nat.pow 2 63 := h
    rw [Printer.number, Reader.number?_negative, unsigned?_integer, Reader.integer?,
      if_pos rfl, if_pos hword]
    rfl
  | real x =>
    obtain ⟨hmark, d, hliteral, hreads⟩ := literal_printed h
    obtain ⟨number, hread, -, hreal⟩ :=
      hliteral.number? ((SignedBits.isFinite_iff x).mp h) hreads
    rw [hread, hreal hmark]
    exact congrArg (fun x => some (JsonNumber.real x, [])) (SignedBits.toFloat_ofFloat x)

end Json

end TensorParity
