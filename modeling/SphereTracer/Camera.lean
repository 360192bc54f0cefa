import SphereTracer.Expr.Term

/-!
# Cameras

A pinhole camera with an optional thin lens.  `Camera (Term κ)` describes a camera, `Camera Handle`
is one whose fields are nodes of an arena.
-/

namespace SphereTracer

structure Camera (α : Type) where
  eye : α
  target : α
  up : α
  /-- The vertical field of view in radians. -/
  fieldOfView : α
  /-- The radius of the lens; zero gives no depth of field. -/
  aperture : α
  /-- The distance in focus, as a multiple of the distance from eye to target. -/
  focalFactor : α
  deriving DecidableEq, Repr, Inhabited

namespace Camera

variable {α β : Type}

def toList (c : Camera α) : List α :=
  [c.eye, c.target, c.up, c.fieldOfView, c.aperture, c.focalFactor]

/-- Acts on the fields in order. -/
def mapM {M : Type → Type} [Monad M] (f : α → M β) (c : Camera α) : M (Camera β) := do
  let eye ← f c.eye
  let target ← f c.target
  let up ← f c.up
  let fieldOfView ← f c.fieldOfView
  let aperture ← f c.aperture
  let focalFactor ← f c.focalFactor
  return ⟨eye, target, up, fieldOfView, aperture, focalFactor⟩

def map (f : α → β) (c : Camera α) : Camera β :=
  ⟨f c.eye, f c.target, f c.up, f c.fieldOfView, f c.aperture, f c.focalFactor⟩

/-- At one unit from the origin, with a field of view of 45 degrees and no lens. -/
def standard : Camera (Term Word) where
  eye := .constant ⟨0.0, 0.0, -1.0⟩
  target := 0.0
  up := .constant (Axis.unit .y)
  fieldOfView := .splat (.ofFloat (Scalar.radians 45.0))
  aperture := 0.0
  focalFactor := 1.0

end Camera

/-- A camera that circles its target and is steered by the pointer. -/
structure Orbit where
  target : Term Word
  radius : Term Word
  /-- Added to the pointer before it is mapped to angles. -/
  offset : Term Word
  /-- Gives what the orbit leaves open. -/
  camera : Camera (Term Word)

namespace Orbit

/-- One unit around the origin. -/
def standard : Orbit where
  target := 0.0
  radius := 1.0
  offset := 0.0
  camera := .standard

/-- Azimuth and polar angle: over the range of the pointer the azimuth sweeps a half turn and the
polar angle a quarter turn. -/
def angles (orbit : Orbit) : Term Word :=
  let base : Term Word := .constant ⟨0.5, 1.0, 0.0⟩
  let range : Term Word :=
    .constant (Vec3.toWords ⟨Scalar.pi, Scalar.pi / 2.0, 0.0⟩)
  let mouse : Term Word := .var .mouse
  .afterAll [mouse, orbit.offset, base] ((mouse + orbit.offset + base) * range)

/-- The unit vector from the target to the eye. -/
def direction (orbit : Orbit) : Term Word :=
  let azimuth := .component orbit.angles .x
  let polar := .component orbit.angles .y
  let sinPolar := .unary .sin polar
  let cosPolar := .unary .cos polar
  let sinAzimuth := .unary .sin azimuth
  let cosAzimuth := .unary .cos azimuth
  let x := sinPolar * cosAzimuth
  let z := sinPolar * sinAzimuth
  .afterAll [azimuth, polar, sinPolar, cosPolar, sinAzimuth, cosAzimuth, x, z]
    (.compose x cosPolar z)

def eye (orbit : Orbit) : Term Word :=
  let direction := orbit.direction
  let reach := .component orbit.radius .x * direction
  .afterAll [direction, reach] (orbit.target + reach)

def toCamera (orbit : Orbit) : Camera (Term Word) :=
  { orbit.camera with eye := orbit.eye, target := orbit.target }

end Orbit

end SphereTracer
