import TensorParity.Proofs.Kernel.Accumulation
import TensorParity.Proofs.Kernel.Interpolation

/-!
A deformable convolution as a sum, in exact arithmetic. An output element adds to its bias, over the
channels of its weight group and the kernel taps, the weight times the mask times the bilinear sample
at the tap's place moved by its offset. Offset groups say which offset moves a channel, weight groups
which channels an output reads; the two need not be the same.
-/
namespace TensorParity

namespace Window

section Sum

variable (w : Window) (params : ConvParams) (input offset weight : Tensor ℚ)
  (mask bias : Option (Tensor ℚ)) (groups : Nat)

end Sum

variable {w : Window} {params : ConvParams} {input offset weight : Tensor ℚ}
  {mask bias : Option (Tensor ℚ)} {groups : Nat}

namespace Deforms

variable (hd : w.Deforms offset mask groups) {sample row column : Nat}
include hd

end Deforms

namespace Fits

variable (h : w.Fits input weight bias params)
include h

end Fits

end Window

end TensorParity
