import TensorParity.Proofs.Generator.Draws

/-!
Streams apart. The scramble of a state into a word loses nothing, and an odd increment visits every
state, so two derived streams differ in their seeds and at every place, and one stream repeats a word
only when it comes round after `2 ^ 64` of them. What was drawn from a generator does not reach the
streams derived from it.
-/
namespace TensorParity

namespace Generator

/-- The word at a place of the stream. -/
def word (g : Generator) (place : Nat) : UInt64 := (g.advance place).next.1

section Words

/-- A word that a shift leaves as it is has no bit set. -/
theorem eq_zero_of_shiftRight {z shift : UInt64} (hshift : 0 < shift.toNat % 64)
    (h : z >>> shift = z) : z = 0 := by
  have hdiv : z.toNat / 2 ^ (shift.toNat % 64) = z.toNat := by
    rw [← Nat.shiftRight_eq_div_pow, ← UInt64.toNat_shiftRight, h]
  by_contra hz
  have hpos : 0 < z.toNat := Nat.pos_of_ne_zero fun hzero => hz (UInt64.toNat_inj.mp hzero)
  have hless := Nat.div_lt_self hpos (Nat.one_lt_two_pow hshift.ne')
  omega

/-- Bits taken in from further up can be taken out again, from the top down. -/
theorem xorShift_injective (shift : UInt64) (hshift : 0 < shift.toNat % 64) :
    Function.Injective fun x : UInt64 => x ^^^ (x >>> shift) := by
  intro x y h
  have hdifference : (x ^^^ y) >>> shift = x ^^^ y := by
    have hsides : ((x >>> shift) ^^^ (y >>> shift)) ^^^ (x ^^^ y) =
        (x ^^^ (x >>> shift)) ^^^ (y ^^^ (y >>> shift)) := by
      ac_rfl
    rw [UInt64.shiftRight_xor, ← UInt64.xor_eq_zero_iff, hsides, UInt64.xor_eq_zero_iff]
    exact h
  exact UInt64.xor_eq_zero_iff.mp (eq_zero_of_shiftRight hshift hdifference)

theorem mul_injective_of_odd (c : UInt64) (hodd : c.toNat % 2 = 1) :
    Function.Injective fun x : UInt64 => x * c := by
  intro x y h
  have hproduct : x.toNat * c.toNat ≡ y.toNat * c.toNat [MOD 2 ^ 64] := by
    have hword := congrArg UInt64.toNat h
    rwa [UInt64.toNat_mul, UInt64.toNat_mul] at hword
  have hcoprime : Nat.gcd (2 ^ 64) c.toNat = 1 :=
    Nat.Coprime.pow_left 64 ((Nat.coprime_two_left).mpr (Nat.odd_iff.mpr hodd))
  have hsame := Nat.ModEq.cancel_right_of_coprime hcoprime hproduct
  exact UInt64.toNat_inj.mp (hsame.eq_of_lt_of_lt x.toNat_lt y.toNat_lt)

/-- Different states give different words. -/
theorem mix_injective : Function.Injective mix := by
  -- three shifts with two odd factors between them
  have hfirst := (mul_injective_of_odd 0xBF58476D1CE4E5B9 (by decide)).comp
    (xorShift_injective 30 (by decide))
  have hsecond := (mul_injective_of_odd 0x94D049BB133111EB (by decide)).comp
    (xorShift_injective 27 (by decide))
  exact (xorShift_injective 31 (by decide)).comp (hsecond.comp hfirst)

end Words

section Places

variable {g g' : Generator}

theorem next_eq (g : Generator) :
    g.next = (mix (g.state + gamma), ⟨g.seed, g.state + gamma⟩) := rfl

theorem advance_eq (g : Generator) (count : Nat) :
    g.advance count = ⟨g.seed, g.state + UInt64.ofNat count * gamma⟩ := by
  induction count with
  | zero =>
    have hzero : UInt64.ofNat 0 = 0 := rfl
    rw [advance_zero, hzero, UInt64.zero_mul, UInt64.add_zero]
  | succ count ih =>
    have hone : UInt64.ofNat 1 = 1 := rfl
    rw [advance_succ, next_eq, ih, UInt64.ofNat_add, hone, UInt64.add_mul, UInt64.one_mul,
      UInt64.add_assoc]

theorem seed_advance (g : Generator) (count : Nat) : (g.advance count).seed = g.seed := by
  simp only [advance_eq]

/-- Words come from states a step apart. -/
theorem word_eq (g : Generator) (place : Nat) :
    g.word place = mix (g.state + UInt64.ofNat (place + 1) * gamma) := by
  have hstate : (g.advance (place + 1)).state = (g.advance place).state + gamma := by
    simp only [advance_succ, next_eq]
  have hword : g.word place = mix ((g.advance place).state + gamma) := rfl
  rw [hword, ← hstate]
  simp only [advance_eq]

theorem step_injective : Function.Injective fun x : UInt64 => x * gamma :=
  mul_injective_of_odd gamma (by decide)

/-- Two generators give the same word at a place only from the same state. -/
theorem word_eq_word_iff (place : Nat) : g.word place = g'.word place ↔ g.state = g'.state := by
  rw [word_eq, word_eq, mix_injective.eq_iff, UInt64.add_left_inj]

/-- A stream comes round after as many words as there are states. -/
theorem word_eq_iff (g : Generator) (i j : Nat) : g.word i = g.word j ↔ i ≡ j [MOD 2 ^ 64] := by
  rw [word_eq, word_eq, mix_injective.eq_iff, UInt64.add_right_inj, step_injective.eq_iff,
    ← UInt64.toNat_inj, UInt64.toNat_ofNat', UInt64.toNat_ofNat']
  exact ⟨Nat.ModEq.add_right_cancel' 1, Nat.ModEq.add_right 1⟩

end Places

section Derived

variable {g g' : Generator} {stream stream' : UInt64}

theorem seed_derive_eq_iff :
    (g.derive stream).seed = (g'.derive stream').seed ↔
      g.seed ^^^ ((stream + 1) * gamma) = g'.seed ^^^ ((stream' + 1) * gamma) :=
  mix_injective.eq_iff

theorem seed_derive_stream_iff :
    (g.derive stream).seed = (g.derive stream').seed ↔ stream = stream' := by
  rw [seed_derive_eq_iff, UInt64.xor_right_inj, step_injective.eq_iff, UInt64.add_left_inj]

theorem seed_derive_root_iff :
    (g.derive stream).seed = (g'.derive stream).seed ↔ g.seed = g'.seed := by
  rw [seed_derive_eq_iff, UInt64.xor_left_inj]

/-- A derived stream starts at its seed. -/
theorem state_derive : (g.derive stream).state = (g.derive stream).seed := rfl

end Derived

/-- What is asked of a generator. -/
inductive Draw where
  | word
  | unit
  | uniform (low high : Float)
  | tensor (shape : Shape) (low high : Float)
  | unitTensor (shape : Shape)

/-- The generator after a draw, be it refused or not. -/
def Draw.after (g : Generator) : Draw → Generator
  | word => g.next.2
  | unit => g.unit.2
  | uniform low high => (g.uniform low high).2
  | tensor shape low high => ((uniformTensor shape low high).run.run g).2
  | unitTensor shape => ((Generator.unitTensor shape).run.run g).2

/-- The number of words that a draw takes. -/
def Draw.count : Draw → Nat
  | word => 1
  | unit => 1
  | uniform _ _ => 1
  | tensor shape _ _ => shape.numel?.getD 0
  | unitTensor shape => shape.numel?.getD 0

/-- The generator after draws of any kind. -/
def after (g : Generator) (draws : List Draw) : Generator := draws.foldl Draw.after g

theorem Draw.after_eq (g : Generator) (draw : Draw) : draw.after g = g.advance draw.count := by
  have htensor (shape : Shape) (low high : Float) :
      ((uniformTensor shape low high).run.run g).2 = g.advance (shape.numel?.getD 0) :=
    (uniformTensor_eq_iff.mp rfl).eq.1
  cases draw with
  | word => rfl
  | unit => rfl
  | uniform low high => rfl
  | tensor shape low high => exact htensor shape low high
  | unitTensor shape => exact htensor shape 0.0 1.0

/-- Draws go on along the stream and nowhere else. -/
theorem after_eq (g : Generator) (draws : List Draw) :
    g.after draws = g.advance (draws.map Draw.count).sum := by
  induction draws generalizing g with
  | nil => rfl
  | cons draw draws ih =>
    have hstep : g.after (draw :: draws) = (draw.after g).after draws := rfl
    rw [hstep, ih, Draw.after_eq, ← advance_add, List.map_cons, List.sum_cons]

theorem derive_after (g : Generator) (draws : List Draw) (stream : UInt64) :
    (g.after draws).derive stream = g.derive stream := by
  rw [derive, derive, after_eq, seed_advance]

/-- Streams derived from one seed under different indices have different seeds and differ at every
place, streams derived under one index from different seeds have different seeds, a stream repeats a
word only after `2 ^ 64` of them, and draws from a generator leave the streams derived from it as they
are. -/
theorem streams_apart (g g' : Generator) (draws : List Draw) (stream stream' : UInt64)
    (place i j : Nat) :
    ((g.derive stream).seed = (g.derive stream').seed ↔ stream = stream') ∧
      ((g.derive stream).word place = (g.derive stream').word place ↔ stream = stream') ∧
      ((g.derive stream).seed = (g'.derive stream).seed ↔ g.seed = g'.seed) ∧
      (g.word i = g.word j ↔ i ≡ j [MOD 2 ^ 64]) ∧
      (g.after draws).derive stream = g.derive stream := by
  refine ⟨seed_derive_stream_iff, ?_, seed_derive_root_iff, word_eq_iff g i j,
    derive_after g draws stream⟩
  rw [word_eq_word_iff, state_derive, state_derive, seed_derive_stream_iff]

end Generator

end TensorParity
