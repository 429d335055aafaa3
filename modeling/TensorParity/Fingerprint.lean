import TensorParity.Tensor
import TensorParity.Digest.Fnv

/-!
Fingerprints of tensors and output tuples. A tensor is framed as its rank, its sizes and the bits of
its elements, so the framed words determine it.
-/
namespace TensorParity

namespace Tensor

/-- The words of a tensor: rank, sizes, elements. -/
def words (t : Tensor UInt64) : List UInt64 :=
  t.rank.toUInt64 :: t.shape.map Nat.toUInt64 ++ t.data.toList

/-- The bits of every element. -/
def bits (t : Tensor Float) : Tensor UInt64 := t.map Float.toBits

def fingerprint (t : Tensor Float) : UInt64 :=
  Fnv.words t.bits.words

end Tensor

/-- Position matters: the fingerprints of the parts are digested in order. -/
def OutputTuple.fingerprint (outputs : OutputTuple) : UInt64 :=
  Fnv.words (outputs.map Tensor.fingerprint)

end TensorParity
