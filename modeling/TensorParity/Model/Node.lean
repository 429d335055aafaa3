import TensorParity.Kernel.Error

/-!
Operator applications. An operand is the name of a value: an input, a constant, or the output of an
earlier node.
-/
namespace TensorParity

/-- A declared input. -/
structure InputDecl where
  name : String
  shape : Shape
  deriving DecidableEq

/-- One operator with the names of its operands. -/
inductive Op where
  | batchNorm (input runningMean runningVar : String) (weight bias : Option String) (eps : Float)
  | conv2d (input weight : String) (bias : Option String) (params : ConvParams)
  | deformConv2d (input offset : String) (mask : Option String) (weight : String)
      (bias : Option String) (params : ConvParams)
  | sigmoid (input : String)
  deriving DecidableEq

namespace Op

def kind : Op → OperatorKind
  | batchNorm .. => .batchNorm
  | conv2d .. => .conv2d
  | deformConv2d .. => .deformConv2d
  | sigmoid .. => .sigmoid

/-- Every value the operator reads; optional operands only where they are given. -/
def operands : Op → List String
  | batchNorm input mean var weight bias _ => [input, mean, var] ++ weight.toList ++ bias.toList
  | conv2d input weight bias _ => [input, weight] ++ bias.toList
  | deformConv2d input offset mask weight bias _ =>
    [input, offset] ++ mask.toList ++ [weight] ++ bias.toList
  | sigmoid input => [input]

end Op

/-- An operator and the name of its result. -/
structure Node where
  output : String
  op : Op
  deriving DecidableEq

end TensorParity
