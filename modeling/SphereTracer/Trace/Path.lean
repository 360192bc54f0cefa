import SphereTracer.Trace.March
import SphereTracer.Trace.Random
import SphereTracer.Trace.Sampling

/-!
# Paths

The radiance that comes back along one path.  The path is followed forward, segment by segment, with
the light gathered so far and the share of further light that still counts.
-/

namespace SphereTracer

variable {S : Type} [Scalar S]

/-- A path between two segments. -/
structure Path (S : Type) where
  origin : Vec3 S
  direction : Vec3 S
  /-- The light gathered so far. -/
  total : Vec3 S
  /-- The share of further light that counts. -/
  throughput : Vec3 S
  /-- The medium that the path is in. -/
  medium : Surface S
  rng : Pcg

namespace Path

/-- The path before its first segment. -/
@[specialize] def start (air : Surface S) (origin direction : Vec3 S) (rng : Pcg) : Path S :=
  ⟨origin, direction, .zero, .one, air, rng⟩

/-- Draws the free path in a medium.  One whose mean free path is not positive, or at least
`maxDistance`, never scatters, and nothing is drawn. -/
@[specialize] def freePath (medium : Surface S) (rng : Pcg) : S × Pcg :=
  if Scalar.lt 0.0 medium.scatter && Scalar.lt medium.scatter maxDistance then
    let (u, rng) : S × Pcg := rng.draw
    (-(Scalar.log (1.0 - u)) * medium.scatter, rng)
  else (unbounded, rng)

/-- The end of a free path: light comes from the medium, and the path goes on in any direction. -/
@[specialize] def scatter (path : Path S) (length : S) : Path S :=
  let (noise, rng) : Vec2 S × Pcg := path.rng.drawPair
  { path with
    origin := path.origin + .scale length path.direction
    direction := sampleSphere noise
    total := path.total + path.throughput * path.medium.emissivity
    throughput := path.throughput * path.medium.color
    rng }

/-- How far new segments start from the surface that they leave. -/
@[inline] def lift (epsilon : S) (normal : Vec3 S) : Vec3 S := .scale (5.0 * epsilon) normal

/-- The path goes on as the reflection in a surface. -/
@[specialize] def reflected (path : Path S) (epsilon : S) (surface : Surface S)
    (point normal : Vec3 S) : Path S :=
  { path with
    throughput := path.throughput * surface.color
    origin := point + lift epsilon normal
    direction := reflect path.direction normal }

/-- The path goes on through a surface or back from it, as chance decides.  `normal` is the sampled
normal on the side the path comes from, and `backface` says that this side is inside. -/
@[specialize] def leave (path : Path S) (air : Surface S) (epsilon : S) (surface : Surface S)
    (point normal : Vec3 S) (backface : Bool) : Path S :=
  let (u, rng) : S × Pcg := path.rng.draw
  let path := { path with rng }
  if Scalar.lt u surface.transmittance then
    let eta :=
      if backface then surface.refraction / air.refraction
      else path.medium.refraction / surface.refraction
    let refracted := refract path.direction normal eta
    if refracted.eq .zero then path.reflected epsilon surface point normal
    else
      { path with
        origin := point - lift epsilon normal
        direction := refracted.normalize
        -- Behind every entity is the air, also where entities overlap.
        medium := if backface then air else surface }
  else path.reflected epsilon surface point normal

/-- A path that ends with the light it has gathered, or goes on. -/
abbrev Step (S : Type) := Path S ⊕ Path S

/-- The path meets a surface.  `normal` is on the side the path comes from, and `backface` says that
this side is inside. -/
@[specialize] def shade (path : Path S) (air : Surface S) (epsilon : S) (surface : Surface S)
    (point normal : Vec3 S) (backface : Bool) : Step S :=
  let path := { path with total := path.total + path.throughput * surface.emissivity }
  -- A black surface sends nothing on, and no number is drawn for it.
  if surface.color.eq .zero then .inl path
  else
    let (noise, rng) : Vec2 S × Pcg := path.rng.drawPair
    let path := { path with rng }
    .inr (path.leave air epsilon surface point
      (sampleHemisphere normal surface.smoothness noise) backface)

/-- The path meets an entity at a point. -/
@[specialize] def hit (world : World S) (air : Surface S) (epsilon : S) (path : Path S)
    (id : UInt32) (point : Vec3 S) : Step S :=
  let outward := world.normal id point
  if Scalar.lt 0.5 (outward.dot outward) then
    let backface := Scalar.lt 0.0 (path.direction.dot outward)
    let normal := if backface then -outward else outward
    let surface := world.surface id point normal path.direction
    path.shade air epsilon surface point normal backface
  else .inl path

/-- One segment. -/
@[specialize] def segment (world : World S) (options : Options S) (air : Surface S)
    (path : Path S) : Step S :=
  let (length, rng) := freePath path.medium path.rng
  let path := { path with rng }
  match march world.closest options ⟨path.origin, path.direction, length⟩ with
  | .hit closest point => path.hit world air options.epsilon closest.id point
  | .scattered => .inr (path.scatter length)
  | .escaped => .inl { path with total := path.total + path.throughput * air.color }

/-- Follows a path for at most `n` segments. -/
@[specialize] def follow (world : World S) (options : Options S) (air : Surface S) :
    Nat → Path S → Path S
  | 0, path => path
  | n + 1, path =>
    match path.segment world options air with
    | .inl ended => ended
    | .inr next => follow world options air n next

end Path

/-- The radiance along a path from `origin`, and the generator after it. -/
@[specialize] def trace (world : World S) (options : Options S) (air : Surface S)
    (origin direction : Vec3 S)
    (rng : Pcg) : Vec3 S × Pcg :=
  let path := (Path.start air origin direction rng).follow world options air options.bounces.toNat
  (path.total, path.rng)

end SphereTracer
