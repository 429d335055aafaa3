import TensorParity.Rounding.Format

/-!
The shortest decimal that reads back as a given double. The candidates of each length are the two
neighbours of the value on that decimal grid; the first length with a candidate inside the interval
that rounds to the value wins, and of two candidates the nearer. Which way an exact tie goes is up
to the format that is written. A decimal is read as the double nearest to it; one whose leading digit
lies far outside the range is settled before any power of ten is formed.
-/
namespace TensorParity

/-- The non-negative decimal `digits * 10 ^ exponent`. -/
structure Decimal where
  digits : Nat
  exponent : Int
  deriving DecidableEq, Repr

namespace Decimal

/-- Where a value half-way between two decimals goes. -/
inductive Tie where
  | up
  | even
  deriving DecidableEq

/-- Drops trailing zero digits, at most `fuel` of them. -/
def strip : (fuel : Nat) → Decimal → Decimal
  | 0, d => d
  | fuel + 1, d =>
    if d.digits ≠ 0 ∧ d.digits % 10 = 0 then strip fuel ⟨d.digits / 10, d.exponent + 1⟩ else d

/-- Where a finite double and the interval that rounds to it lie on a decimal grid. -/
structure Interval where
  /-- The least and the greatest grid point inside the interval. -/
  least : Nat
  greatest : Nat
  /-- Twice the value is `twice / denominator`. -/
  twice : Nat
  denominator : Nat

/-- Whether the value goes to the upper of two neighbours on the grid with steps of `step`. -/
def Interval.roundsUp (i : Interval) (tie : Tie) (step below : Nat) : Bool :=
  let middle := (2 * below + step) * i.denominator
  middle < i.twice || (middle = i.twice && (tie = .up || below / step % 2 = 1))

/-- The candidate of one length: grid points are multiples of `step`. -/
def Interval.candidate (i : Interval) (tie : Tie) (step : Nat) : Option Nat :=
  let below := i.twice / (2 * i.denominator) / step * step
  let above := below + step
  if i.least ≤ below then
    if above ≤ i.greatest ∧ i.roundsUp tie step below then some above else some below
  else if above ≤ i.greatest then some above
  else none

/-- The first candidate among the grids with steps `10 ^ drop`, …, `10`, `1`. -/
def Interval.search (i : Interval) (tie : Tie) : (drop : Nat) → Option Nat
  | 0 => i.candidate tie 1
  | drop + 1 =>
    match i.candidate tie (Nat.pow 10 (drop + 1)) with
    | some z => some z
    | none => i.search tie drop

/-- The interval of a positive finite encoding on the grid of step `10 ^ (-place)`. Its ends belong
to it when the significand is even. -/
def interval (bits : Nat) (place : Int) : Interval :=
  let f := BinaryFormat.binary64
  let m := f.significand bits
  let scale := f.scale bits
  let quarter := Nat.pow 2 (scale - 1074) * Nat.pow 10 place.toNat
  let denominator := 4 * Nat.pow 2 (1074 - scale) * Nat.pow 10 (-place).toNat
  let gap := if m = Nat.pow 2 52 ∧ 1 < bits / Nat.pow 2 52 then 1 else 2
  let low := (4 * m - gap) * quarter
  let high := (4 * m + 2) * quarter
  let closed := m % 2 = 0
  { least := if closed ∧ low % denominator = 0 then low / denominator else low / denominator + 1
    greatest :=
      if ¬ closed ∧ high % denominator = 0 then high / denominator - 1 else high / denominator
    twice := 8 * m * quarter
    denominator }

/-- Number of decimal places after which a positive finite encoding has seventeen digits, or one
more or less. -/
def places (bits : Nat) : Int :=
  let f := BinaryFormat.binary64
  let exponent := ((f.significand bits).log2 + f.scale bits : Int) - 1074
  16 - Int.fdiv (exponent * 30103) 100000

/-- The exact decimal of a positive finite encoding. -/
def exact (bits : Nat) : Decimal :=
  ⟨BinaryFormat.binary64.units bits * Nat.pow 5 1074, -1074⟩

/-- The value of an encoding whose last bit counts at most one, if that is an integer. No other
decimal with as few digits lies close enough to read back as it. -/
def integral? (bits : Nat) : Option Nat :=
  let f := BinaryFormat.binary64
  let below := f.unitExponent - f.scale bits
  if 52 < below ∨ f.unitExponent < f.scale bits then none
  else
    let unit := Nat.pow 2 below
    if f.significand bits % unit = 0 then some (f.significand bits / unit) else none

/-- The shortest decimal that reads back as a positive finite encoding; of several the nearest. -/
def shortest (tie : Tie) (bits : Nat) : Decimal :=
  match integral? bits with
  | some n => strip 20 ⟨n, 0⟩
  | none =>
    let place := places bits
    match (interval bits place).search tie 17 with
    | some z => strip 20 ⟨z, -place⟩
    | none => exact bits

/-- The nearest encoding of a double; infinity if the decimal is out of range. -/
def nearest (d : Decimal) : Nat :=
  let length : Int := (Nat.toDigits 10 d.digits).length
  if d.digits = 0 then 0
  else if 400 < length + d.exponent then BinaryFormat.binary64.infinity
  else if length + d.exponent < -400 then 0
  else
    BinaryFormat.binary64.nearest
      (d.digits * Nat.pow 10 d.exponent.toNat * Nat.pow 2 1074) (Nat.pow 10 (-d.exponent).toNat)

end Decimal

end TensorParity
