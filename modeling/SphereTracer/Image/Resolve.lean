import SphereTracer.Image.Accumulator

/-!
# Resolving

From accumulated light to colours on a display: the mean over the samples, a gamma curve, and eight
bits per channel.
-/

namespace SphereTracer

/-- An image of four bytes per pixel, row by row from the top. -/
structure Picture where
  width : UInt32
  height : UInt32
  rgba : List UInt8
  deriving DecidableEq, Repr

/-- A channel as a byte; values outside of `[0, 1]` are moved into it. -/
def quantise (c : Float32) : UInt8 :=
  (Word.ofFloat (Scalar.clamp c 0.0 1.0 * 255.0)).round.toFloat.toUInt8

/-- The mean over a pixel's samples; black without any. -/
@[specialize] def meanLight {S : Type} [Scalar S] (p : Vec4 S) : Vec3 S :=
  if Scalar.lt 0.0 p.w then p.toVec3.shrink p.w else .zero

/-- The colour of a pixel, opaque. -/
def resolvePixel (gamma : Float32) (p : Pixel) : List UInt8 :=
  let mean := meanLight (p.map Word.toFloat)
  let encoded := (mean.max .zero).map fun c => Scalar.pow c (1.0 / gamma)
  [quantise encoded.x, quantise encoded.y, quantise encoded.z, 255]

namespace Accumulator

/-- The colours of all pixels. -/
def resolve (acc : Accumulator) (gamma : Word) : List UInt8 :=
  acc.pixels.flatMap (resolvePixel gamma.toFloat)

/-- The picture that the display shows. -/
def picture (acc : Accumulator) (gamma : Word) : Picture :=
  ⟨acc.width, acc.height, acc.resolve gamma⟩

end Accumulator

end SphereTracer
