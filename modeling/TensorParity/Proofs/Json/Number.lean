import Mathlib
import TensorParity.Json.Reader

/-!
The reader of number literals. What follows a literal does not change how it is read unless it
could continue it.
-/
namespace TensorParity

/-- A number that some literal is read as. -/
def JsonNumber.Readable : JsonNumber → Prop
  | .unsigned n => n < Shape.wordLimit
  | .negative n => 0 < n ∧ n ≤ Nat.pow 2 63
  | .real x => x.isFinite = true

namespace Json

/-- What follows a number literal and is no part of it. -/
def EndsNumber (rest : List Char) : Prop :=
  ∀ c ∈ rest.head?, c.isDigit = false ∧ c ≠ '.' ∧ c ≠ 'e' ∧ c ≠ 'E'

/-- The text begins with no digit. -/
def NoDigit (rest : List Char) : Prop := ∀ c ∈ rest.head?, c.isDigit = false

theorem EndsNumber.noDigit {rest : List Char} (h : EndsNumber rest) : NoDigit rest :=
  fun c hc => (h c hc).1

theorem endsNumber_nil : EndsNumber [] := by simp [EndsNumber]

theorem noDigit_nil : NoDigit [] := by simp [NoDigit]

theorem span_digits {digits rest : List Char} (hdigits : ∀ c ∈ digits, c.isDigit = true)
    (hrest : NoDigit rest) : (digits ++ rest).span Char.isDigit = (digits, rest) := by
  have hhead : rest.takeWhile Char.isDigit = [] ∧ rest.dropWhile Char.isDigit = rest := by
    cases rest with
    | nil => simp
    | cons c cs =>
      have := hrest c rfl
      simp [this]
  rw [List.span_eq_takeWhile_dropWhile, List.takeWhile_append_of_pos hdigits,
    List.dropWhile_append_of_pos hdigits, hhead.1, hhead.2, List.append_nil]

/-- A run of digits read from a text is read from a longer text as well. -/
theorem span_append {cs digits after rest : List Char}
    (h : cs.span Char.isDigit = (digits, after)) (hrest : after = [] → NoDigit rest) :
    (cs ++ rest).span Char.isDigit = (digits, after ++ rest) := by
  rw [List.span_eq_takeWhile_dropWhile, Prod.mk.injEq] at h
  obtain ⟨rfl, rfl⟩ := h
  have hsplit : cs.takeWhile Char.isDigit ++ cs.dropWhile Char.isDigit = cs :=
    List.takeWhile_append_dropWhile
  have hafter : NoDigit (cs.dropWhile Char.isDigit ++ rest) := by
    cases hdrop : cs.dropWhile Char.isDigit with
    | nil => simpa using hrest hdrop
    | cons c after =>
      have := List.head?_dropWhile_not Char.isDigit cs
      rw [hdrop] at this
      simpa [NoDigit] using this
  have hdigits : ∀ c ∈ cs.takeWhile Char.isDigit, c.isDigit = true :=
    fun c hc => List.all_eq_true.mp List.all_takeWhile c hc
  conv_lhs => rw [← hsplit, List.append_assoc]
  exact span_digits hdigits hafter

namespace Reader

variable {cs rest digits after : List Char}

/-- What a step of the reader yields that needs a digit where it stands. -/
private theorem span_some {α : Type} {f : List Char → List Char → α} {a : α} :
    (match cs.span Char.isDigit with
      | (digits, rest) => if digits.isEmpty then none else some (f digits rest)) = some a ↔
    ∃ digits rest, cs.span Char.isDigit = (digits, rest) ∧ digits ≠ [] ∧ f digits rest = a := by
  generalize cs.span Char.isDigit = found
  obtain ⟨digits, rest⟩ := found
  cases digits with
  | nil => simp
  | cons c digits => simp

theorem whole?_append (h : whole? cs = some (digits, after)) (hrest : after = [] → NoDigit rest) :
    whole? (cs ++ rest) = some (digits, after ++ rest) := by
  unfold whole? at h
  split at h
  · rename_i c cs
    split at h
    · simp at h
    · rename_i hc
      obtain ⟨rfl, rfl⟩ : ['0'] = digits ∧ c :: cs = after := by simpa using h
      simp [whole?, hc]
  · rename_i hzero
    obtain ⟨_, _, hspan, hne, heq⟩ := span_some.mp h
    obtain ⟨rfl, rfl⟩ := Prod.mk.inj heq
    unfold whole?
    split
    · rename_i c more heq
      -- Only a single zero can have become a zero before another character.
      match cs, hzero, heq with
      | [], _, _ => simp_all
      | [x], _, heq =>
        obtain ⟨rfl, rfl⟩ : x = '0' ∧ rest = c :: more := by simpa using heq
        have hsingle : ['0'].span Char.isDigit = (['0'], []) := rfl
        obtain ⟨rfl, rfl⟩ := Prod.mk.inj (hsingle.symm.trans hspan)
        have hc : c.isDigit = false := hrest rfl c rfl
        simp [hc]
      | x :: y :: cs, hzero, heq =>
        obtain ⟨rfl, -⟩ : x = '0' ∧ y :: (cs ++ rest) = c :: more := by simpa using heq
        exact absurd rfl (hzero y cs)
    · exact span_some.mpr ⟨_, _, span_append hspan hrest, hne, rfl⟩

theorem fraction?_append (h : fraction? cs = some (digits, after))
    (hrest : after = [] → EndsNumber rest) :
    fraction? (cs ++ rest) = some (digits, after ++ rest) := by
  unfold fraction? at h
  split at h
  · obtain ⟨_, _, hspan, hne, heq⟩ := span_some.mp h
    obtain ⟨rfl, rfl⟩ := Prod.mk.inj heq
    exact span_some.mpr ⟨_, _, span_append hspan fun h => (hrest h).noDigit, hne, rfl⟩
  · rename_i hpoint
    obtain ⟨rfl, rfl⟩ : [] = digits ∧ cs = after := by simpa using h
    unfold fraction?
    split
    · rename_i more heq
      match cs, hpoint, heq with
      | [], _, heq => exact absurd rfl (hrest rfl '.' (by simp [show rest = _ from heq])).2.1
      | x :: cs, hpoint, heq =>
        obtain ⟨rfl, -⟩ := List.cons.inj heq
        exact absurd rfl (hpoint cs)
    · rfl

/-- The sign of an exponent, and what follows it. -/
private def sign : List Char → Bool × List Char
  | '-' :: rest => (true, rest)
  | '+' :: rest => (false, rest)
  | cs => (false, cs)

private def signedExponent (negative : Bool) (digits rest : List Char) : Option Int × List Char :=
  (some (if negative then -(digitsValue digits : Int) else digitsValue digits), rest)

private theorem exponent?_cons (c : Char) (cs : List Char) :
    exponent? (c :: cs) =
      if c = 'e' ∨ c = 'E' then
        match (sign cs).2.span Char.isDigit with
        | (digits, rest) =>
          if digits.isEmpty then none else some (signedExponent (sign cs).1 digits rest)
      else some (none, c :: cs) := by
  have hsign : (match cs with
      | '-' :: rest => (true, rest)
      | '+' :: rest => (false, rest)
      | _ => (false, cs)) = sign cs := by
    unfold sign
    split <;> rfl
  rw [← hsign]
  rfl

private theorem sign_append (x : Char) (cs rest : List Char) :
    sign (x :: cs ++ rest) = ((sign (x :: cs)).1, (sign (x :: cs)).2 ++ rest) := by
  unfold sign
  split
  · simp_all
  · simp_all
  · rename_i hminus hplus
    split
    · simp_all
    · simp_all
    · rfl

theorem exponent?_append {e : Option Int} (h : exponent? cs = some (e, after))
    (hrest : after = [] → EndsNumber rest) :
    exponent? (cs ++ rest) = some (e, after ++ rest) := by
  match cs, h with
  | [], h =>
    obtain ⟨rfl, rfl⟩ : none = e ∧ [] = after := by simpa [exponent?] using h
    cases rest with
    | nil => rfl
    | cons c rest =>
      have hc := hrest rfl c rfl
      simp [exponent?, hc]
  | c :: cs, h =>
    rw [List.cons_append, exponent?_cons]
    rw [exponent?_cons] at h
    split at h
    · rename_i hc
      rw [if_pos hc]
      match cs, h with
      | x :: cs, h =>
        rw [sign_append]
        obtain ⟨_, _, hspan, hne, heq⟩ := span_some.mp h
        obtain ⟨rfl, rfl⟩ := Prod.mk.inj heq
        exact span_some.mpr ⟨_, _, span_append hspan fun h => (hrest h).noDigit, hne, rfl⟩
    · rename_i hc
      obtain ⟨rfl, rfl⟩ : none = e ∧ c :: cs = after := by simpa using h
      rw [if_neg hc]
      rfl

theorem unsigned?_append {negative : Bool} {n : JsonNumber}
    (h : unsigned? negative cs = some (n, [])) (hrest : EndsNumber rest) :
    unsigned? negative (cs ++ rest) = some (n, rest) := by
  simp only [unsigned?, Option.bind_eq_bind, Option.bind_eq_some_iff, Prod.exists] at h ⊢
  obtain ⟨whole, afterWhole, hwhole, fraction, afterFraction, hfraction, exponent, after, hexponent,
    hvalue⟩ := h
  obtain rfl : after = [] := by split at hvalue <;> simp_all [Option.bind_eq_some_iff]
  refine ⟨whole, _, whole?_append hwhole fun _ => hrest.noDigit, fraction, _,
    fraction?_append hfraction fun _ => hrest, exponent, _,
    exponent?_append hexponent fun _ => hrest, ?_⟩
  split at hvalue <;> simp_all [Option.bind_eq_some_iff]

/-- A literal is read the same way before anything that cannot continue it. -/
theorem number?_append {n : JsonNumber} (h : number? cs = some (n, [])) (hrest : EndsNumber rest) :
    number? (cs ++ rest) = some (n, rest) := by
  unfold number? at h
  split at h
  · exact unsigned?_append h hrest
  · rename_i hsign
    have hlonger := unsigned?_append h hrest
    unfold number?
    split
    · rename_i more heq
      match cs, hsign, heq with
      | [], _, heq => simp [unsigned?, whole?] at h
      | x :: cs, hsign, heq =>
        obtain ⟨rfl, -⟩ := List.cons.inj heq
        exact absurd rfl (hsign cs)
    · exact hlonger

theorem number?_head {cs rest : List Char} {n : JsonNumber} (h : number? cs = some (n, rest)) :
    ∃ c ∈ cs.head?, c = '-' ∨ c.isDigit = true := by
  cases cs with
  | nil => simp [number?, unsigned?, whole?] at h
  | cons c cs =>
    refine ⟨c, rfl, ?_⟩
    by_contra hc
    obtain ⟨hsign, hdigit⟩ := not_or.mp hc
    have hzero : c ≠ '0' := by
      rintro rfl
      exact hdigit rfl
    rw [number?] at h
    · simp [unsigned?, whole?, hzero, hdigit] at h
    · rintro _ heq
      exact hsign (List.cons.inj heq).1

/-- No number begins with a blank. -/
theorem isBlank_number {c : Char} (h : c = '-' ∨ c.isDigit = true) : isBlank c = false := by
  by_contra hblank
  simp only [Bool.not_eq_false, isBlank, Bool.or_eq_true, decide_eq_true_eq] at hblank
  rcases hblank with ((rfl | rfl) | rfl) | rfl <;> simp [Char.isDigit] at h

/-- What a step of the number reader takes off a text holds no blank. -/
private def Takes (cs rest : List Char) : Prop :=
  ∃ taken, cs = taken ++ rest ∧ ∀ c ∈ taken, isBlank c = false

private theorem takes_refl (cs : List Char) : Takes cs cs := ⟨[], rfl, by simp⟩

private theorem Takes.trans {cs rest last : List Char} (h : Takes cs rest) (h' : Takes rest last) :
    Takes cs last := by
  obtain ⟨taken, rfl, hblank⟩ := h
  obtain ⟨taken', rfl, hblank'⟩ := h'
  exact ⟨taken ++ taken', (List.append_assoc _ _ _).symm,
    List.forall_mem_append.mpr ⟨hblank, hblank'⟩⟩

private theorem Takes.cons {c : Char} {cs rest : List Char} (hc : isBlank c = false)
    (h : Takes cs rest) : Takes (c :: cs) rest :=
  Takes.trans ⟨[c], rfl, by simpa using hc⟩ h

private theorem takes_digits (cs : List Char) : Takes cs (cs.dropWhile Char.isDigit) :=
  ⟨cs.takeWhile Char.isDigit, List.takeWhile_append_dropWhile.symm, fun c hc =>
    isBlank_number (Or.inr (List.all_eq_true.mp List.all_takeWhile c hc))⟩

private theorem takes_whole {cs digits rest : List Char} (h : whole? cs = some (digits, rest)) :
    Takes cs rest := by
  unfold whole? at h
  split at h
  · split at h
    · simp at h
    · obtain ⟨-, rfl⟩ : ['0'] = digits ∧ _ = rest := by simpa using h
      exact (takes_refl _).cons (by decide)
  · simp only [List.span_eq_takeWhile_dropWhile] at h
    split at h
    · simp at h
    · obtain ⟨-, rfl⟩ : _ = digits ∧ _ = rest := by simpa using h
      exact takes_digits cs

private theorem takes_fraction {cs digits rest : List Char}
    (h : fraction? cs = some (digits, rest)) :
    Takes cs rest := by
  unfold fraction? at h
  split at h
  · simp only [List.span_eq_takeWhile_dropWhile] at h
    split at h
    · simp at h
    · obtain ⟨-, rfl⟩ : _ = digits ∧ _ = rest := by simpa using h
      exact (takes_digits _).cons (by decide)
  · obtain ⟨-, rfl⟩ : [] = digits ∧ cs = rest := by simpa using h
    exact takes_refl cs

private theorem takes_exponent {cs rest : List Char} {e : Option Int}
    (h : exponent? cs = some (e, rest)) : Takes cs rest := by
  unfold exponent? at h
  split at h
  · split at h
    · rename_i c cs hc
      have hletter : isBlank c = false := by rcases hc with rfl | rfl <;> decide
      refine Takes.cons hletter ?_
      simp only [List.span_eq_takeWhile_dropWhile] at h
      split at h <;> simp only [Option.ite_none_left_eq_some, Option.some.injEq, Prod.mk.injEq] at h
      · rw [← h.2.2]
        exact (takes_digits _).cons (by decide)
      · rw [← h.2.2]
        exact (takes_digits _).cons (by decide)
      · rw [← h.2.2]
        exact takes_digits _
    · obtain ⟨-, rfl⟩ : none = e ∧ _ = rest := by simpa using h
      exact takes_refl _
  · obtain ⟨-, rfl⟩ : none = e ∧ [] = rest := by simpa using h
    exact takes_refl _

/-- No literal holds a blank. -/
theorem number?_noBlank {cs : List Char} {n : JsonNumber} (h : number? cs = some (n, [])) :
    ∀ c ∈ cs, isBlank c = false := by
  have hunsigned {negative : Bool} {cs : List Char} (h : unsigned? negative cs = some (n, [])) :
      Takes cs [] := by
    simp only [unsigned?, Option.bind_eq_bind, Option.bind_eq_some_iff, Prod.exists] at h
    obtain ⟨_, _, hwhole, _, _, hfraction, _, after, hexponent, hvalue⟩ := h
    obtain rfl : after = [] := by split at hvalue <;> simp_all [Option.bind_eq_some_iff]
    exact ((takes_whole hwhole).trans (takes_fraction hfraction)).trans (takes_exponent hexponent)
  have htakes : Takes cs [] := by
    unfold number? at h
    split at h
    · exact (hunsigned h).cons (by decide)
    · exact hunsigned h
  obtain ⟨taken, rfl, hblank⟩ := htakes
  simpa using hblank

/-- Digits are the whole part of a number unless they start with an idle zero. -/
theorem whole?_digits (hdigits : ∀ c ∈ digits, c.isDigit = true) (hne : digits ≠ [])
    (hzero : digits.head? = some '0' → digits = ['0']) (hrest : NoDigit rest) :
    whole? (digits ++ rest) = some (digits, rest) := by
  have hspan := span_digits hdigits hrest
  by_cases hhead : digits.head? = some '0'
  · rw [hzero hhead]
    cases rest with
    | nil => rfl
    | cons c rest => simp [whole?, hrest c rfl]
  · obtain ⟨x, digits, rfl⟩ := List.exists_cons_of_ne_nil hne
    unfold whole?
    split
    · rename_i heq
      exact absurd (by simpa using (List.cons.inj heq).1) hhead
    · exact span_some.mpr ⟨_, _, hspan, hne, rfl⟩

theorem number?_negative (cs : List Char) : number? ('-' :: cs) = unsigned? true cs := rfl

/-- A literal without a sign. -/
theorem number?_unsigned {n : JsonNumber} (h : unsigned? false cs = some (n, [])) :
    number? cs = some (n, []) := by
  unfold number?
  split
  · rename_i cs
    simp [unsigned?, whole?, List.span_eq_takeWhile_dropWhile] at h
  · exact h

end Reader

end Json

end TensorParity
