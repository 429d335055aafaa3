import TensorParity.Tensor

/-!
The SplitMix64 stream from which parameters and inputs are drawn. A generator remembers its seed, so
that derived streams do not depend on how far it has advanced.
-/
namespace TensorParity

structure Generator where
  seed : UInt64
  state : UInt64
  deriving DecidableEq

namespace Generator

/-- Increment of the state between draws. -/
def gamma : UInt64 := 0x9E3779B97F4A7C15

/-- Scrambles a state into an output word. -/
def mix (value : UInt64) : UInt64 :=
  let a := (value ^^^ (value >>> 30)) * 0xBF58476D1CE4E5B9
  let b := (a ^^^ (a >>> 27)) * 0x94D049BB133111EB
  b ^^^ (b >>> 31)

def ofSeed (seed : UInt64) : Generator := ⟨seed, seed⟩

/-- The generator of an independent stream, from the root seed alone. -/
def derive (g : Generator) (stream : UInt64) : Generator :=
  ofSeed (mix (g.seed ^^^ ((stream + 1) * gamma)))

def next (g : Generator) : UInt64 × Generator :=
  let state := g.state + gamma
  (mix state, { g with state })

/-- Uniform in `[0, 1)`: the top 53 bits of a word over `2 ^ 53`. -/
def unit (g : Generator) : Float × Generator :=
  let (word, g) := g.next
  ((word >>> 11).toFloat * (1.0 / (9007199254740992 : UInt64).toFloat), g)

def uniform (g : Generator) (low high : Float) : Float × Generator :=
  let (u, g) := g.unit
  (low + (high - low) * u, g)

/-- The next `count` draws, appended to `drawn` in order. -/
def draw (low high : Float) : (count : Nat) → Array Float → Generator → Array Float × Generator
  | 0, drawn, g => (drawn, g)
  | count + 1, drawn, g =>
    let (value, g) := g.uniform low high
    draw low high count (drawn.push value) g

/-- Draws a tensor in row-major order. A shape without an element count is refused before any
draw. -/
def uniformTensor (shape : Shape) (low high : Float) :
    ExceptT TensorError (StateM Generator) (Tensor Float) := do
  let count ← shape.numel
  let g ← get
  let (data, g) := draw low high count #[] g
  set g
  Tensor.ofArray shape data

/-- Every element uniform in `[0, 1)`. -/
def unitTensor (shape : Shape) : ExceptT TensorError (StateM Generator) (Tensor Float) :=
  uniformTensor shape 0.0 1.0

end Generator

end TensorParity
