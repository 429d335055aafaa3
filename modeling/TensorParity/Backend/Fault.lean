import TensorParity.Backend.Loopback

/-!
Faults put in on purpose: a loopback back end that refuses some artifacts or changes its outputs, to
see what the comparison makes of it.
-/
namespace TensorParity

/-- What happens to the outputs. -/
inductive Disturbance where
  | none
  | zeros
  | nan
  /-- The last output is missing. -/
  | dropLast
  | clear
  | reverse
  | fail
  /-- One output moves away from zero, by an amount that grows with its values. -/
  | drift (position : Nat) (amount : Float)

namespace Disturbance

def driftElement (amount x : Float) : Float := x + amount * (1.0 + x.abs)

def apply (d : Disturbance) (outputs : OutputTuple) : Except InferenceError OutputTuple :=
  match d with
  | none => .ok outputs
  | zeros => .ok (outputs.map (Tensor.map fun _ => 0.0))
  | nan => .ok (outputs.map (Tensor.map fun _ => 0.0 / 0.0))
  | dropLast => .ok outputs.dropLast
  | clear => .ok []
  | reverse => .ok outputs.reverse
  | fail => .error .injected
  | drift position amount => .ok (outputs.modify position (Tensor.map (driftElement amount)))

end Disturbance

/-- Where faults are put in. -/
structure FaultPlan where
  /-- The stem of the artifacts that conversion refuses. -/
  refuse : Option String
  /-- The structure files whose outputs are disturbed have names that start so. -/
  stem : String
  disturbance : Disturbance

namespace FaultPlan

def convert (plan : FaultPlan) (workDir : Path) (artifact : Path) (shapes : List Shape) :
    FileAction ConversionError Converted :=
  if plan.refuse.isSome ∧ artifact.fileStem? = plan.refuse then throw (.missingOutput artifact)
  else Loopback.convert workDir artifact shapes

def infer (plan : FaultPlan) (c : Converted) (inputs : List (Tensor Float)) :
    FileAction InferenceError OutputTuple := do
  let outputs ← Loopback.infer c inputs
  if (c.structurePath.fileName?.getD "").startsWith plan.stem then
    FileAction.ofResult (plan.disturbance.apply outputs) id
  else return outputs

end FaultPlan

def Backend.faulty (plan : FaultPlan) (workDir : Path) : Backend :=
  ⟨"faulty", plan.convert workDir, plan.infer⟩

end TensorParity
