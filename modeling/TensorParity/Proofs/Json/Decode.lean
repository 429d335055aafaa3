import TensorParity.Json.Decode
import TensorParity.Proofs.Except
import TensorParity.Proofs.Json.Printed

/-!
Typed readers on the trees that are written. Each scalar and list is read back from its tree, and
the trees themselves are printable.
-/
namespace TensorParity

namespace Json

theorem asList_map {α : Type} {read : Json → Decoded α} {write : α → Json} {items : List α}
    (h : ∀ a ∈ items, read (write a) = .ok a) :
    asList read (.array (items.map write)) = .ok items := by
  rw [asList, List.mapM_map]
  exact (mapM_ok h).trans (by rw [List.map_id'])

theorem asBelow_ofNat {limit n : Nat} (h : n < limit) : asBelow limit (ofNat n) = .ok ⟨n, h⟩ := by
  simp only [asBelow, ofNat, dif_pos h]
  rfl

theorem asBounded_ofNat {limit n : Nat} (h : n < limit) : asBounded limit (ofNat n) = .ok n := by
  rw [asBounded, asBelow_ofNat h]
  rfl

theorem asShape_ofShape {s : Shape} (h : ∀ d ∈ s, d < Shape.wordLimit) :
    asShape (ofShape s) = .ok s :=
  asList_map fun d hd => asBounded_ofNat (h d hd)

theorem asFloat_ofFloat {x : Float} (h : x.isFinite = true) : asFloat (ofFloat x) = .ok x := by
  rw [ofFloat, if_pos h]
  rfl

theorem asPair_ofNat {limit m n : Nat} (hm : m < limit) (hn : n < limit) :
    asPair (asBelow limit) (.array [ofNat m, ofNat n]) = .ok (⟨m, hm⟩, ⟨n, hn⟩) := by
  rw [asPair, asBelow_ofNat hm, asBelow_ofNat hn]
  rfl

/-! The trees that are written can be printed. -/

theorem printable_mono {depth depth' : Nat} {j : Json} (h : Printable depth j)
    (hdepth : depth ≤ depth') : Printable depth' j := by
  induction h generalizing depth' with
  | null => exact .null
  | bool b => exact .bool b
  | number hreadable => exact .number hreadable
  | string s => exact .string s
  | array hitems ih =>
    obtain ⟨k, rfl⟩ : ∃ k, depth' = k + 1 := ⟨depth' - 1, by omega⟩
    exact .array fun j hj => ih j hj (by omega)
  | object hfields ih =>
    obtain ⟨k, rfl⟩ : ∃ k, depth' = k + 1 := ⟨depth' - 1, by omega⟩
    exact .object fun field hfield => ih field hfield (by omega)

theorem printable_ofNat {depth n : Nat} (h : n < Shape.wordLimit) : Printable depth (ofNat n) :=
  .number h

theorem printable_ofFloat {depth : Nat} (x : Float) : Printable depth (ofFloat x) := by
  unfold ofFloat
  split
  · rename_i hfinite
    exact .number hfinite
  · exact .null

theorem printable_map {α : Type} {depth : Nat} {write : α → Json} {items : List α}
    (h : ∀ a ∈ items, Printable depth (write a)) :
    Printable (depth + 1) (.array (items.map write)) := by
  refine .array fun j hj => ?_
  obtain ⟨a, ha, rfl⟩ := List.mem_map.mp hj
  exact h a ha

theorem printable_ofShape {depth : Nat} {s : Shape} (h : ∀ d ∈ s, d < Shape.wordLimit) :
    Printable (depth + 1) (ofShape s) :=
  printable_map fun d hd => printable_ofNat (h d hd)

theorem printable_ofOption {depth : Nat} (name : Option String) :
    Printable depth (ofOption .string name) := by
  cases name
  · exact .null
  · exact .string _

end Json

end TensorParity
