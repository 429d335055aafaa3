import TensorParity.Proofs.Json.Printed
import TensorParity.Proofs.Suite.Reporting

/-!
The log of a suite as text. Each entry takes one line, for line feeds of messages are escaped, and
each line is read back as its entry.
-/
namespace TensorParity

open Json

theorem Shape.inWords_of_inside {s : Shape} {index : List Nat} (hs : s.InWords)
    (hindex : s.Inside index) : Shape.InWords index := by
  unfold Inside at hindex
  induction hindex with
  | nil => exact hs
  | cons hd hrest ih =>
    rw [InWords, List.forall_mem_cons] at hs ⊢
    exact ⟨hd.trans hs.1, ih hs.2⟩

section Printable

variable {depth : Nat}

theorem Tolerance.printable_toJson (t : Tolerance) (depth : Nat) :
    Printable (depth + 1) t.toJson := by
  refine .object ?_
  simp only [List.forall_mem_cons, List.not_mem_nil, false_implies, implies_true, and_true]
  exact ⟨printable_ofFloat _, printable_ofFloat _⟩

theorem Tolerance.Differs.printable_toJson {t : Tolerance} {r x : Tensor Float} {position : Nat}
    {m : Mismatch} (h : t.Differs r x position m) (hposition : position < Shape.wordLimit) :
    Printable 2 m.toJson := by
  cases h with
  | shape =>
    refine .object ?_
    simp only [List.forall_mem_cons, List.not_mem_nil, false_implies, implies_true, and_true]
    exact ⟨.string _, printable_ofNat hposition, printable_ofShape r.inWords,
      printable_ofShape x.inWords⟩
  | @numeric flat a b index hshape hbefore hr hx hapart hinside hindex =>
    have hflat : flat < Shape.wordLimit := by
      obtain ⟨hlt, -⟩ := Array.getElem?_eq_some_iff.mp hr
      exact hlt.trans (Shape.volume_of_numel? r.numel_eq).2
    refine .object ?_
    simp only [List.forall_mem_cons, List.not_mem_nil, false_implies, implies_true, and_true]
    exact ⟨.string _, printable_ofNat hposition, printable_ofNat hflat,
      printable_ofShape (Shape.inWords_of_inside r.inWords hinside), printable_ofFloat _,
      printable_ofFloat _, printable_ofFloat _, printable_ofFloat _⟩

end Printable

namespace Scenario

variable {s : Scenario} {backend : Backend} {settings : Settings} {fs : FileSystem}
  {result : Except ScenarioFailure Verdict} {st : RunState}

/-- Runs whose tuples have not too many tensors to count. -/
def Counts (s : Scenario) (backend : Backend) (settings : Settings) : Prop :=
  ∀ (fs : FileSystem) (tensors : OutputTuple),
    s.HasReference tensors ∨ s.HasTarget backend settings fs tensors →
      tensors.length < Shape.wordLimit

end Scenario

section Silent

end Silent

end TensorParity
