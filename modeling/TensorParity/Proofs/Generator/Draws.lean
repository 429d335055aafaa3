import TensorParity.Generator
import TensorParity.Proofs.Shape

/-!
What drawing does to a generator. Whatever is drawn, the generator goes on by one word for each value
it gave and otherwise stays as it is. So the elements of a tensor stand in the stream one after the
other, and tensors drawn in turn hold together what one tensor of as many elements would hold.
-/
namespace TensorParity

namespace Generator

/-- The generator after this many words. -/
def advance (g : Generator) : (count : Nat) → Generator
  | 0 => g
  | count + 1 => (g.advance count).next.2

/-- The uniform value at a place of the stream. -/
def valueAt (low high : Float) (g : Generator) (place : Nat) : Float :=
  ((g.advance place).uniform low high).1

/-- The uniform values from the start of the stream on. -/
def values (low high : Float) (g : Generator) (count : Nat) : List Float :=
  (List.range count).map (g.valueAt low high)

section Stream

variable (low high : Float) (g : Generator) (first second : Nat)

theorem advance_zero : g.advance 0 = g := rfl

theorem advance_succ (count : Nat) : g.advance (count + 1) = (g.advance count).next.2 := rfl

theorem advance_add : g.advance (first + second) = (g.advance first).advance second := by
  induction second with
  | zero => rfl
  | succ second ih => rw [← Nat.add_assoc, advance_succ, advance_succ, ih]

theorem length_values (count : Nat) : (g.values low high count).length = count := by
  rw [values, List.length_map, List.length_range]

theorem values_add : g.values low high (first + second) =
    g.values low high first ++ (g.advance first).values low high second := by
  have hplace (place : Nat) :
      g.valueAt low high (first + place) = (g.advance first).valueAt low high place := by
    rw [valueAt, advance_add]
    rfl
  simp only [values, List.range_add, List.map_append, List.map_map, Function.comp_def, hplace]

theorem values_succ (count : Nat) : g.values low high (count + 1) =
    (g.uniform low high).1 :: (g.advance 1).values low high count := by
  rw [Nat.add_comm, values_add]
  rfl

theorem draw_zero (drawn : Array Float) : draw low high 0 drawn g = (drawn, g) := rfl

theorem draw_succ (count : Nat) (drawn : Array Float) :
    draw low high (count + 1) drawn g =
      draw low high count (drawn.push (g.uniform low high).1) (g.advance 1) := by
  -- unfolding the step would compare the two states as numbers
  change _ = draw low high count (drawn.push (g.uniform low high).1) (g.uniform low high).2
  delta draw draw._f
  generalize Generator.uniform = step
  rfl

/-- A run of draws takes the next values of the stream, and no word more. -/
theorem draw_eq (count : Nat) (drawn : Array Float) :
    draw low high count drawn g =
      (drawn ++ (g.values low high count).toArray, g.advance count) := by
  induction count generalizing drawn g with
  | zero => simp [draw_zero, values, advance_zero]
  | succ count ih =>
    rw [draw_succ, ih, values_succ, ← advance_add, Nat.add_comm 1 count]
    simp

end Stream

/-- What drawing a tensor does. A shape without an element count is refused and nothing is taken;
else the elements are the next values of the stream, in row-major order. -/
inductive Takes (low high : Float) (g : Generator) (shape : Shape) :
    Except TensorError (Tensor Float) → Generator → Prop where
  | refused (hcount : shape.numel? = none) :
    Takes low high g shape (.error (.countOverflow shape)) g
  | drawn {x : Tensor Float} (hshape : x.shape = shape)
    (hdata : ∀ k < x.numel, x.data[k]? = some (g.valueAt low high k)) :
    Takes low high g shape (.ok x) (g.advance x.numel)

/-- Tensors drawn one after the other between the same bounds. A shape that is refused does not stop
those after it. -/
def uniformTensors (low high : Float) (shapes : List Shape) :
    StateM Generator (List (Except TensorError (Tensor Float))) :=
  shapes.mapM fun shape => (uniformTensor shape low high).run

/-- The elements of an answer; a refusal has none. -/
def elementsOf : Except TensorError (Tensor Float) → List Float
  | .ok x => x.data.toList
  | .error _ => []

/-- The number of elements that shapes call for together; a shape that is refused adds none. -/
def summedCount (shapes : List Shape) : Nat :=
  (shapes.map fun shape => shape.numel?.getD 0).sum

section Tensors

variable {low high : Float} {g g' : Generator} {shape : Shape} {shapes : List Shape}
  {result : Except TensorError (Tensor Float)}
  {results : List (Except TensorError (Tensor Float))}

theorem uniformTensor_of_none (hcount : shape.numel? = none) :
    (uniformTensor shape low high).run.run g = (.error (.countOverflow shape), g) := by
  have hnumel : shape.numel = .error (.countOverflow shape) := by
    rw [Shape.numel, hcount]
  rw [uniformTensor, hnumel]
  rfl

/-- The data of a tensor are the values of the stream, if each element is the one at its place. -/
theorem data_eq_iff {data : Array Float} :
    data = (g.values low high data.size).toArray ↔
      ∀ k < data.size, data[k]? = some (g.valueAt low high k) := by
  constructor
  · intro hdata k hk
    rw [hdata]
    simp [values, hk]
  · intro hdata
    apply Array.ext_getElem?
    intro k
    by_cases hk : k < data.size
    · rw [hdata k hk]
      simp [values, hk]
    · simp [values, hk]

/-- The check of the finished tensor never fails. -/
theorem uniformTensor_of_numel {x : Tensor Float}
    (hdata : x.data = (g.values low high x.numel).toArray) :
    (uniformTensor x.shape low high).run.run g = (.ok x, g.advance x.numel) := by
  have hnumel : x.shape.numel = .ok x.numel := by
    rw [Shape.numel, x.numel_eq]
    rfl
  have hdraw := draw_eq low high g x.numel #[]
  rw [Array.empty_append, ← hdata] at hdraw
  rw [uniformTensor, hnumel, ← Tensor.ofArray_data]
  change (Tensor.ofArray x.shape (draw low high x.numel #[] g).1,
    (draw low high x.numel #[] g).2) = _
  rw [hdraw]

/-- Each shape with an element count has a tensor of the next values. -/
theorem exists_drawn (low high : Float) (g : Generator) {count : Nat}
    (hcount : shape.numel? = some count) : ∃ x : Tensor Float, x.shape = shape ∧ x.numel = count ∧
      x.data = (g.values low high x.numel).toArray := by
  have hsize : (g.values low high count).toArray.size = count := length_values low high g count
  refine ⟨⟨shape, (g.values low high count).toArray, by rw [hcount, hsize]⟩, rfl, hsize, ?_⟩
  exact congrArg (fun count => (g.values low high count).toArray) hsize.symm

/-- One draw of a tensor. -/
theorem uniformTensor_eq_iff :
    (uniformTensor shape low high).run.run g = (result, g') ↔ Takes low high g shape result g' := by
  constructor
  · intro hrun
    cases hcount : shape.numel? with
    | none =>
      rw [uniformTensor_of_none hcount] at hrun
      obtain ⟨rfl, rfl⟩ := Prod.mk.inj hrun
      exact .refused hcount
    | some count =>
      obtain ⟨x, rfl, -, hdata⟩ := exists_drawn low high g hcount
      rw [uniformTensor_of_numel hdata] at hrun
      obtain ⟨rfl, rfl⟩ := Prod.mk.inj hrun
      exact .drawn rfl (data_eq_iff.mp hdata)
  · intro htakes
    cases htakes with
    | refused hcount => exact uniformTensor_of_none hcount
    | drawn hshape hdata =>
      subst hshape
      exact uniformTensor_of_numel (data_eq_iff.mpr hdata)

/-- A draw takes as many values as the shape calls for, and its elements are those. -/
theorem Takes.eq (h : Takes low high g shape result g') :
    g' = g.advance (shape.numel?.getD 0) ∧
      elementsOf result = g.values low high (shape.numel?.getD 0) := by
  cases h with
  | refused hcount =>
    rw [hcount]
    exact ⟨rfl, rfl⟩
  | @drawn x hshape hdata =>
    subst hshape
    rw [x.numel_eq, Option.getD_some, elementsOf]
    exact ⟨rfl, congrArg Array.toList (data_eq_iff.mpr hdata)⟩

theorem uniformTensors_cons {middle last : Generator}
    {later : List (Except TensorError (Tensor Float))}
    (hfirst : (uniformTensor shape low high).run.run g = (result, middle))
    (hlater : (uniformTensors low high shapes).run middle = (later, last)) :
    (uniformTensors low high (shape :: shapes)).run g = (result :: later, last) := by
  have hmapM : (uniformTensors low high (shape :: shapes)).run g =
      (((uniformTensor shape low high).run.run g).1 ::
          ((uniformTensors low high shapes).run ((uniformTensor shape low high).run.run g).2).1,
        ((uniformTensors low high shapes).run ((uniformTensor shape low high).run.run g).2).2) := by
    rw [uniformTensors, List.mapM_cons]
    rfl
  rw [hmapM, hfirst, hlater]

/-- Draws in turn take the values of the stream one after the other. -/
theorem uniformTensors_eq (h : (uniformTensors low high shapes).run g = (results, g')) :
    g' = g.advance (summedCount shapes) ∧
      results.flatMap elementsOf = g.values low high (summedCount shapes) := by
  induction shapes generalizing g results with
  | nil =>
    obtain ⟨rfl, rfl⟩ := Prod.mk.inj h
    exact ⟨rfl, rfl⟩
  | cons shape shapes ih =>
    cases hfirst : (uniformTensor shape low high).run.run g with
    | mk result middle =>
      cases hlater : (uniformTensors low high shapes).run middle with
      | mk later last =>
        rw [uniformTensors_cons hfirst hlater] at h
        obtain ⟨rfl, rfl⟩ := Prod.mk.inj h
        obtain ⟨rfl, hresult⟩ := (uniformTensor_eq_iff.mp hfirst).eq
        obtain ⟨rfl, hresults⟩ := ih hlater
        have hcount : summedCount (shape :: shapes) =
            shape.numel?.getD 0 + summedCount shapes := rfl
        rw [hcount, advance_add, values_add, List.flatMap_cons, hresult, hresults]
        exact ⟨rfl, rfl⟩

/-- A draw of a tensor is refused and takes nothing, or its elements are the next values of the
stream. Draws in turn give together, and leave behind, what one draw of a tensor with as many elements
does, whatever its axes. -/
theorem uniformTensor_in_stream (low high : Float) (g : Generator) :
    (∀ shape result g', (uniformTensor shape low high).run.run g = (result, g') ↔
      Takes low high g shape result g') ∧
    ∀ shapes results g', (uniformTensors low high shapes).run g = (results, g') →
      g' = g.advance (summedCount shapes) ∧
      results.flatMap elementsOf = g.values low high (summedCount shapes) ∧
      ∀ whole : Shape, whole.numel? = some (summedCount shapes) →
        ∃ x : Tensor Float, (uniformTensor whole low high).run.run g = (.ok x, g') ∧
          x.shape = whole ∧ x.data.toList = results.flatMap elementsOf := by
  refine ⟨fun shape result g' => uniformTensor_eq_iff, fun shapes results g' h => ?_⟩
  obtain ⟨rfl, hresults⟩ := uniformTensors_eq h
  refine ⟨rfl, hresults, fun whole hwhole => ?_⟩
  obtain ⟨x, rfl, hcount, hdata⟩ := exists_drawn low high g hwhole
  refine ⟨x, ?_, rfl, ?_⟩
  · rw [← hcount]
    exact uniformTensor_of_numel hdata
  · rw [hresults, ← hcount, hdata]

end Tensors

/-- Shapes of two axes, of sizes without a count, of an empty axis, of no axis and of one. -/
def pieces : List Shape := [[2, 3], [2 ^ 63, 4], [0, 5], [], [4]]

theorem uniformTensor_in_stream_pieces :
    Shape.numel? [11] = some (summedCount pieces) ∧
      ∃ results g' x, (uniformTensors 0 1 pieces).run (ofSeed 7) = (results, g') ∧
        results.map (fun result => result.toOption.map (·.shape)) =
          [some [2, 3], none, some [0, 5], some [], some [4]] ∧
        (uniformTensor [11] 0 1).run.run (ofSeed 7) = (.ok x, g') ∧
        x.data.toList = results.flatMap elementsOf := by
  have hcount : Shape.numel? [11] = some (summedCount pieces) := by decide +kernel
  obtain ⟨-, -, hwhole⟩ := (uniformTensor_in_stream 0 1 (ofSeed 7)).2 pieces _ _ rfl
  obtain ⟨x, hx, -, hdata⟩ := hwhole [11] hcount
  exact ⟨hcount, _, _, x, rfl, by decide +kernel, hx, hdata⟩

end Generator

end TensorParity
