import SphereTracer.Interpreter

/-!
# Uniforms

The inputs that a kernel gets anew for every frame.
-/

namespace SphereTracer

structure Uniforms where
  /-- Width and height of the image as numbers. -/
  resolution : Vec2 Word
  mouse : Vec2 Word
  time : Word
  /-- Frames that have been accumulated so far. -/
  frame : UInt32
  /-- Not zero while the pointer is pressed. -/
  clicked : UInt32
  seed : UInt32
  deriving DecidableEq, Repr

namespace Uniforms

/-- The uniforms of an image of the given size; everything else is zero. -/
def ofSize (width height : UInt32) : Uniforms where
  resolution := ⟨.ofFloat (Scalar.ofCount width), .ofFloat (Scalar.ofCount height)⟩
  mouse := ⟨⟨0⟩, ⟨0⟩⟩
  time := ⟨0⟩
  frame := 0
  clicked := 0
  seed := 0

/-- Width and height: the resolution without fractions, moved into the range of a word. -/
def dimensions (u : Uniforms) : UInt32 × UInt32 :=
  (u.resolution.x.toFloat.toUInt32, u.resolution.y.toFloat.toUInt32)

def pixelCount (u : Uniforms) : Nat := u.dimensions.1.toNat * u.dimensions.2.toNat

/-- What terms may read. -/
def environment {S : Type} [Scalar S] (u : Uniforms) : Environment S :=
  ⟨u.mouse.map Scalar.ofWord, Scalar.ofWord u.time⟩

end Uniforms

end SphereTracer
