import SphereTracer.Vec

/-!
# Directions

Sampling of directions, reflection and refraction.
-/

namespace SphereTracer

variable {S : Type} [Scalar S]

/-- Some vector across `v`. -/
@[specialize] def ortho (v : Vec3 S) : Vec3 S :=
  if Scalar.lt (Scalar.abs v.z) (Scalar.abs v.x) then ⟨-v.y, v.x, 0.0⟩ else ⟨0.0, -v.z, v.y⟩

/-- A direction of the cosine-power lobe around `normal`: at smoothness `0` it is Lambertian, at `1`
it is the normal itself. -/
@[specialize] def sampleHemisphere (normal : Vec3 S) (smoothness : S) (noise : Vec2 S) : Vec3 S :=
  let s := Scalar.clamp smoothness 0.0 1.0
  let o₁ := (ortho normal).normalize
  let o₂ := (normal.cross o₁).normalize
  let phi := noise.x * 2.0 * Scalar.pi
  let cosTheta := Scalar.sqrt (s + (1.0 - s) * noise.y)
  -- Rounding may bring the cosine above one.
  let sinTheta := Scalar.sqrt (Scalar.max (1.0 - cosTheta * cosTheta) 0.0)
  .scale sinTheta (.scale (Scalar.cos phi) o₁ + .scale (Scalar.sin phi) o₂) + .scale cosTheta normal

/-- A uniform direction. -/
@[specialize] def sampleSphere (noise : Vec2 S) : Vec3 S :=
  let phi := noise.x * 2.0 * Scalar.pi
  let z := noise.y * 2.0 - 1.0
  let q := Scalar.sqrt (Scalar.max (1.0 - z * z) 0.0)
  ⟨q * Scalar.cos phi, q * Scalar.sin phi, z⟩

/-- The mirror image of a direction in a surface. -/
@[specialize] def reflect (incident normal : Vec3 S) : Vec3 S :=
  incident - .scale (2.0 * normal.dot incident) normal

/-- A direction bent by a surface whose refraction indices have the ratio `eta`; zero where all
light is reflected. -/
@[specialize] def refract (incident normal : Vec3 S) (eta : S) : Vec3 S :=
  let cos := normal.dot incident
  let k := 1.0 - eta * eta * (1.0 - cos * cos)
  if Scalar.lt k 0.0 then .zero
  else .scale eta incident - .scale (eta * cos + Scalar.sqrt k) normal

end SphereTracer
