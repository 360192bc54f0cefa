import SphereTracer.Binary32

/-!
# Intrinsics

The operations of expressions that are more than a formula over lanes: the tetrahedral fold, the
rotation about an axis, positional noise and the mandelbulb.
-/

namespace SphereTracer.Intrinsic

variable {S : Type} [Scalar S]

/-- The length beyond which the mandelbulb iteration stops. -/
@[inline] def bailout : S := 2.0

/-- The factor that each round of the fold shrinks space by. -/
@[inline] def foldScale : S := 0.5

/-- The mirror planes of the fold, in the order in which they act. -/
@[specialize] def foldNormals : Vec3 S × Vec3 S × Vec3 S :=
  let s := Scalar.invSqrtTwo
  (⟨s, s, 0.0⟩, ⟨0.0, s, s⟩, ⟨s, 0.0, s⟩)

/-- What is taken off after scaling in every round of the fold, a binary32 constant. -/
@[specialize] def foldOffset : Vec3 S := .splat (Scalar.ofWord (.ofFloat (0.5 * Float32.sqrt 3.0)))

/-- The greatest exponent of an integer power. -/
@[specialize] def maxExponent : Nat := 2147483647

/-- The scale of distances after rounds of the fold. -/
@[specialize] def foldFactor (rounds : UInt32) :
    S := Scalar.powi foldScale (min rounds.toNat maxExponent)

/-- Reflects `p` onto the positive side of the plane through the origin with normal `n`. -/
@[inline] def mirror (p n : Vec3 S) : Vec3 S := p - .scale (2.0 * Scalar.min (p.dot n) 0.0) n

/-- One round: three mirrors, then space is doubled about the offset. -/
@[specialize] def foldRound (p : Vec3 S) : Vec3 S :=
  let (n₁, n₂, n₃) := (foldNormals : Vec3 S × Vec3 S × Vec3 S)
  (mirror (mirror (mirror p n₁) n₂) n₃).shrink foldScale - foldOffset

/-- The point after `n` rounds of the fold. -/
@[specialize] def foldPoint : Nat → Vec3 S → Vec3 S
  | 0, p => p
  | n + 1, p => foldPoint n (foldRound p)

/-- Rodrigues' rotation of `p` by `angle` radians about `axis`. -/
@[specialize] def rotate (p axis : Vec3 S) (angle : S) : Vec3 S :=
  let k := axis.normalize
  let s := Scalar.sin angle
  let c := Scalar.cos angle
  .scale c p + .scale s (k.cross p) + .scale (1.0 - c) (.scale (k.dot p) k)

/-- The gap between one and the next binary32 number. -/
@[inline] def epsilon : S := Scalar.ofWord ⟨0x34000000⟩

/-- A pseudo-random number of `[0, 1)` made from a vector. -/
@[specialize] def noise (seed : Vec3 S) : S :=
  let d := (seed + .splat 1000.0).dot ⟨12.9898, 78.233, 26.724⟩
  let v := Scalar.sin d * 43758.5453
  -- A fraction that is rounded up to one, or is no number, becomes a number just below one.
  Scalar.min (v - Scalar.floor v) (1.0 - epsilon)

/-- The state of the mandelbulb iteration: the point, the running derivative, and the length that
was measured last. -/
structure Orbit (S : Type) where
  z : Vec3 S
  dr : S
  r : S

/-- Rounds of `z ↦ z ^ power + p` in spherical coordinates, until one starts beyond the bailout. -/
@[specialize] def orbit (p : Vec3 S) (power : S) : Nat → Orbit S → Orbit S
  | 0, o => o
  | n + 1, o =>
    let r := o.z.length
    if Scalar.lt bailout r then { o with r := r }
    else
      let safe := Scalar.max r 1e-6
      let theta := Scalar.acos (Scalar.clamp (o.z.z / safe) (-1.0) 1.0) * power
      let phi := Scalar.atan2 o.z.y o.z.x * power
      let dr := Scalar.pow safe (power - 1.0) * power * o.dr + 1.0
      let zr := Scalar.pow safe power
      let turned : Vec3 S :=
        ⟨Scalar.sin theta * Scalar.cos phi, Scalar.sin phi * Scalar.sin theta, Scalar.cos theta⟩
      orbit p power n ⟨.scale zr turned + p, dr, r⟩

/-- The distance estimate of the mandelbulb. -/
@[specialize] def mandelbulb (p : Vec3 S) (power : S) (iterations : UInt32) : S :=
  let o := orbit p power iterations.toNat ⟨p, 1.0, 0.0⟩
  0.5 * Scalar.log (Scalar.max o.r 1e-6) * o.r / o.dr

end SphereTracer.Intrinsic
