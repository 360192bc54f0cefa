import SphereTracer.Trace.Path

/-!
# Pixels

Rays through pixels, and what a frame adds to a pixel's history.
-/

namespace SphereTracer

variable {S : Type} [Scalar S]

/-- An orthonormal frame at the eye. -/
structure Basis (S : Type) where
  look : Vec3 S
  up : Vec3 S
  right : Vec3 S

/-- The axes of a camera: `up` is the part of the hint across the line of sight. -/
@[specialize] def Basis.ofFrame (view : Frame S) : Basis S :=
  let look := (view.lookAt - view.eye).normalize
  let up := (view.upHint - .scale (look.dot view.upHint) look).normalize
  ⟨look, up, look.cross up⟩

/-- What the pixels of one frame have in common, except for the scene around the camera. -/
structure Shot (S : Type) where
  options : Options S
  view : Frame S
  basis : Basis S
  resolution : Vec2 S
  uniforms : Uniforms

namespace Shot

/-- The shot of a frame, whose camera and air are given. -/
@[specialize] def ofView (program : Program) (uniforms : Uniforms) (view : Frame S) : Shot S where
  options := program.options.map Scalar.ofWord
  view
  basis := .ofFrame view
  resolution := uniforms.resolution.map Scalar.ofWord
  uniforms

/-- The middle of a pixel, with both coordinates in `[-1, 1]` and the second one upward. -/
@[specialize] def pixelCentre (shot : Shot S) (x y : UInt32) : Vec2 S :=
  let res := shot.resolution
  ⟨(Scalar.ofCount x + 0.5) / res.x * 2.0 - 1.0,
    1.0 - (Scalar.ofCount y + 0.5) / res.y * 2.0⟩

/-- The ray through a pixel, from a random point of the lens through a random point of the pixel:
its origin, its direction, and the generator after it. -/
@[specialize] def cameraRay (shot : Shot S) (x y : UInt32) (rng : Pcg) :
    Vec3 S × Vec3 S × Pcg :=
  let ⟨look, up, right⟩ := shot.basis
  let view := shot.view
  let res := shot.resolution
  let (lens, rng) : Vec2 S × Pcg := rng.drawPair
  let (jitter, rng) : Vec2 S × Pcg := rng.drawPair
  let turn := lens.y * 2.0 * Scalar.pi
  let offset : Vec2 S := .scale (lens.x * view.aperture) ⟨Scalar.cos turn, Scalar.sin turn⟩
  let origin := view.eye + .scale offset.x right + .scale offset.y up
  let centred : Vec2 S := ⟨jitter.x - 0.5, jitter.y - 0.5⟩
  let angle : Vec2 S :=
    .scale view.fieldOfView (.scale 0.5 (shot.pixelCentre x y) + centred / res) *
      ⟨res.x / res.y, 1.0⟩
  let screen : Vec3 S :=
    ⟨Scalar.cos angle.y * Scalar.sin angle.x, Scalar.sin angle.y,
      Scalar.cos angle.y * Scalar.cos angle.x⟩
  let toward := Vec3.scale screen.x right + .scale screen.y up + .scale screen.z look
  let focus := view.eye + .scale (view.focalFactor * (view.lookAt - view.eye).length) toward
  (origin, (focus - origin).normalize, rng)

/-- The sum of a pixel's paths as the light of the pixel.  A sum with a negative lane, or with one
that is not a number, counts as none. -/
@[specialize] def lightOfSum (total : Vec3 S) : Vec3 S := if total.nonneg then total else .zero

/-- A pixel after a frame: its history, faded, and the light and the number of the new paths.  A
pressed pointer fades the history by a half more. -/
@[specialize] def fade (memory : S) (clicked : Bool) (history : Vec4 S) : Vec4 S :=
  .scale memory (if clicked then .scale 0.5 history else history)

/-- What a pixel holds after a frame that adds light to its history. -/
@[specialize] def expose (shot : Shot S) (history : Vec4 S) (light : Vec3 S) : Vec4 S :=
  fade shot.options.memory (shot.uniforms.clicked != 0) history +
    light.extend (Scalar.ofCount shot.options.iterations)

end Shot

/-- A shot of a world. -/
structure Tracer (S : Type) extends Shot S where
  world : World S

namespace Tracer

@[specialize] def new (program : Program) (uniforms : Uniforms) : Tracer S :=
  let it : Interpreter S := .new program uniforms.environment
  ⟨.ofView program uniforms it.frame.1, it.world⟩

@[specialize] def march (tracer : Tracer S) (ray : Ray S) : March S :=
  SphereTracer.march tracer.world.closest tracer.options ray

@[specialize] def trace (tracer : Tracer S) (origin direction : Vec3 S) (rng : Pcg) :
    Vec3 S × Pcg :=
  SphereTracer.trace tracer.world tracer.options tracer.view.air origin direction rng

/-- The sum over `n` paths through a pixel. -/
@[specialize] def sumPaths (tracer : Tracer S) (x y : UInt32) : Nat → Vec3 S → Pcg → Vec3 S
  | 0, total, _ => total
  | n + 1, total, rng =>
    let (origin, direction, rng) := tracer.cameraRay x y rng
    let (light, rng) := tracer.trace origin direction rng
    tracer.sumPaths x y n (total + light) rng

/-- The light that a frame adds to a pixel. -/
@[specialize] def radiance (tracer : Tracer S) (x y : UInt32) : Vec3 S :=
  Shot.lightOfSum <|
    tracer.sumPaths x y tracer.options.iterations.toNat .zero (.forPixel tracer.uniforms x y)

/-- What a pixel holds after a frame. -/
@[specialize] def accumulate (tracer : Tracer S) (x y : UInt32) (history : Vec4 S) : Vec4 S :=
  tracer.expose history (tracer.radiance x y)

end Tracer

end SphereTracer
