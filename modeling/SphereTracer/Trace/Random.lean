import SphereTracer.Trace.Uniforms

/-!
# Random numbers

A generator whose state is a word.  It advances by hashing its state, and the hash is a permutation
of the words, so that pixels, frames and seeds that differ in one place start in different states.
-/

namespace SphereTracer

structure Pcg where
  state : UInt32
  deriving DecidableEq, Repr, Inhabited

namespace Pcg

/-- One linear congruential step. -/
@[inline] def advance (v : UInt32) : UInt32 := v * 747796405 + 2891336453

/-- A shift by an amount that the top bits decide, a multiplication, and a fixed shift. -/
@[inline] def permute (state : UInt32) : UInt32 :=
  let word := ((state >>> ((state >>> 28) + 4)) ^^^ state) * 277803737
  (word >>> 22) ^^^ word

/-- The hash of a word. -/
def hash (v : UInt32) : UInt32 := permute (advance v)

/-- The generator of a pixel in the frame that the uniforms describe. -/
def forPixel (u : Uniforms) (x y : UInt32) : Pcg :=
  let salt := hash (u.seed ^^^ u.time.bits)
  let frame := hash (u.frame + salt)
  let row := hash (y + frame)
  ⟨hash (x + row)⟩

/-- The generator after one draw. -/
@[inline] def next (rng : Pcg) : Pcg := ⟨hash rng.state⟩

variable {S : Type} [Scalar S]

/-- The number that a state shows: its upper 24 bits, as a fraction. -/
@[inline] def fraction (rng : Pcg) : S := Scalar.ofCount (rng.state >>> 8) / 16777216.0

/-- Draws a number of `[0, 1)`. -/
@[specialize] def draw (rng : Pcg) : S × Pcg := (rng.next.fraction, rng.next)

/-- Draws two numbers, the first lane first. -/
@[specialize] def drawPair (rng : Pcg) : Vec2 S × Pcg :=
  let (a, rng) : S × Pcg := rng.draw
  let (b, rng) : S × Pcg := rng.draw
  (⟨a, b⟩, rng)

end Pcg

end SphereTracer
