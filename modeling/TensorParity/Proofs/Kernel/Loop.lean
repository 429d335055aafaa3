import Mathlib
import TensorParity.Kernel.Scalar

/-!
Counted loops whose steps all have a result, and the positions of nested ones. A loop that adds the
terms of each step adds the terms of all steps in order; a loop that pushes yields a table.
-/
namespace TensorParity

variable {α β : Type}

theorem foldRange?_from {f : Nat → β → Option β} (value : Nat → β) {start count : Nat}
    (hstep : ∀ i, start ≤ i → i < start + count → f i (value i) = some (value (i + 1))) :
    foldRange? f start count (value start) = some (value (start + count)) := by
  induction count generalizing start with
  | zero => rfl
  | succ count ih =>
    rw [foldRange?, hstep start le_rfl (by omega)]
    have hrest : foldRange? f (start + 1) count (value (start + 1)) =
        some (value (start + 1 + count)) :=
      ih fun i hfirst hlast => hstep i (by omega) (by omega)
    rwa [Nat.add_right_comm] at hrest

/-- A loop runs through the values that its steps lead to. -/
theorem foldRange?_eq_some {f : Nat → β → Option β} (value : Nat → β) {count : Nat} {b : β}
    (hstart : value 0 = b) (hstep : ∀ i < count, f i (value i) = some (value (i + 1))) :
    foldRange? f 0 count b = some (value count) := by
  have hrun : foldRange? f 0 count (value 0) = some (value (0 + count)) :=
    foldRange?_from value fun i _ hi => hstep i (by omega)
  rwa [Nat.zero_add, hstart] at hrun

/-- Loops that accumulate: one step's terms after the other's. -/
theorem foldRange?_foldl {op : β → α → β} {f : Nat → β → Option β} {terms : Nat → List α}
    {count : Nat} (hstep : ∀ i < count, ∀ b, f i b = some ((terms i).foldl op b)) (b : β) :
    foldRange? f 0 count b = some (((List.range count).flatMap terms).foldl op b) :=
  foldRange?_eq_some (fun i => ((List.range i).flatMap terms).foldl op b) rfl fun i hi => by
    rw [hstep i hi, List.range_succ, List.flatMap_append, List.foldl_append,
      List.flatMap_singleton]

/-- Loops that push append a table to what is there. -/
theorem foldRange?_push {f : Nat → Array α → Option (Array α)} {g : Nat → α} {count : Nat}
    (hstep : ∀ i < count, ∀ acc, f i acc = some (acc.push (g i))) (start : Array α) :
    foldRange? f 0 count start = some (start ++ (Array.range count).map g) :=
  foldRange?_eq_some (fun i => start ++ (Array.range i).map g) (by simp) fun i hi => by
    rw [hstep i hi, Array.range_succ]
    simp

theorem tabulate?_eq_some {f : Nat → Option α} {g : Nat → α} {count : Nat}
    (h : ∀ i < count, f i = some (g i)) : tabulate? f count = some ((Array.range count).map g) := by
  rw [tabulate?, foldRange?_push (g := g), Array.empty_append]
  intro i hi acc
  rw [h i hi]

/-- A loop with a step that has no result has none. -/
theorem foldRange?_eq_none {f : Nat → β → Option β} {i : Nat} (hi : ∀ b, f i b = none)
    {start count : Nat} (hstart : start ≤ i) (hend : i < start + count) (b : β) :
    foldRange? f start count b = none := by
  induction count generalizing start b with
  | zero => omega
  | succ count ih =>
    rw [foldRange?]
    cases hfirst : f start b with
    | none => rfl
    | some next =>
      have hlater : start ≠ i := by
        rintro rfl
        rw [hi b] at hfirst
        cases hfirst
      exact ih (by omega) (by omega) next

theorem tabulate?_eq_none {f : Nat → Option α} {count i : Nat} (hi : i < count)
    (hnone : f i = none) : tabulate? f count = none := by
  apply foldRange?_eq_none (i := i) _ (Nat.zero_le i) (by omega)
  intro acc
  rw [hnone]

/-- Element `j` of row `i` lies inside a table of rows. -/
theorem row_add_lt {i j rows columns : Nat} (hi : i < rows) (hj : j < columns) :
    i * columns + j < rows * columns := by
  have hrow : i * columns + columns ≤ rows * columns := by
    rw [← Nat.succ_mul]
    exact Nat.mul_le_mul_right _ hi
  omega

theorem row_add_div {i j columns : Nat} (hj : j < columns) : (i * columns + j) / columns = i := by
  rw [Nat.mul_comm, Nat.mul_add_div (Nat.zero_lt_of_lt hj), Nat.div_eq_of_lt hj, Nat.add_zero]

theorem row_add_mod {i j columns : Nat} (hj : j < columns) : (i * columns + j) % columns = j :=
  Nat.mul_add_mod_of_lt hj

end TensorParity
