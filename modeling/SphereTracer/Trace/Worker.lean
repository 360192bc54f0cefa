import SphereTracer.Trace.Tracer

/-!
# Workers

A tracer asks its world, which answers as if every question were the first.  A worker asks one
interpreter, which answers all questions in the same slots, pixel after pixel.
-/

namespace SphereTracer

variable {S : Type} [Scalar S]

namespace Interpreter

/-- Marches in place, see `SphereTracer.marchFrom`. -/
@[specialize] def marchFrom (epsilon stepFactor : S) (ray : Ray S) :
    Nat → Vec3 S → S → Interpreter S → (March S × S) × Interpreter S
  | 0, _, travelled, it => ((.escaped, travelled), it)
  | n + 1, point, travelled, it =>
    let (nearest, it) := it.closest point
    if Scalar.lt nearest.distance epsilon then ((.hit nearest point, travelled), it)
    else
      let travelled := travelled + nearest.distance * stepFactor
      if Scalar.lt 0.0 ray.scatter && Scalar.le ray.scatter travelled then
        ((.scattered, travelled), it)
      else marchFrom epsilon stepFactor ray n (ray.along travelled) travelled it

@[specialize] def march (options : Options S) (ray : Ray S) (it : Interpreter S) :
    March S × Interpreter S :=
  let (ending, it) := marchFrom options.epsilon options.stepFactor ray options.steps.toNat
    ray.origin 0.0 it
  (ending.1, it)

/-- A path meets an entity, see `Path.hit`. -/
@[specialize] def hit (air : Surface S) (epsilon : S) (path : Path S) (id : UInt32)
    (point : Vec3 S) (it : Interpreter S) : Path.Step S × Interpreter S :=
  let (outward, it) := it.normal id point
  if Scalar.lt 0.5 (outward.dot outward) then
    let backface := Scalar.lt 0.0 (path.direction.dot outward)
    let normal := if backface then -outward else outward
    let (surface, it) := it.material id point normal path.direction
    (path.shade air epsilon surface point normal backface, it)
  else (.inl path, it)

/-- One segment in place, see `Path.segment`. -/
@[specialize] def segment (options : Options S) (air : Surface S) (path : Path S)
    (it : Interpreter S) : Path.Step S × Interpreter S :=
  let (length, rng) := Path.freePath path.medium path.rng
  let path := { path with rng }
  let (ending, it) := march options ⟨path.origin, path.direction, length⟩ it
  match ending with
  | .hit closest point => hit air options.epsilon path closest.id point it
  | .scattered => (.inr (path.scatter length), it)
  | .escaped => (.inl { path with total := path.total + path.throughput * air.color }, it)

/-- Follows a path in place, see `Path.follow`. -/
@[specialize] def follow (options : Options S) (air : Surface S) :
    Nat → Path S → Interpreter S → Path S × Interpreter S
  | 0, path, it => (path, it)
  | n + 1, path, it =>
    let (step, it) := segment options air path it
    match step with
    | .inl ended => (ended, it)
    | .inr next => follow options air n next it

/-- The radiance along a path, found in place. -/
@[specialize] def trace (options : Options S) (air : Surface S) (origin direction : Vec3 S)
    (rng : Pcg) (it : Interpreter S) : (Vec3 S × Pcg) × Interpreter S :=
  let (path, it) := follow options air options.bounces.toNat (.start air origin direction rng) it
  ((path.total, path.rng), it)

end Interpreter

/-- The sum over `n` paths through a pixel, found in place. -/
@[specialize] def Shot.sumPaths (shot : Shot S) (x y : UInt32) :
    Nat → Vec3 S → Pcg → Interpreter S → Vec3 S × Interpreter S
  | 0, total, _, it => (total, it)
  | n + 1, total, rng, it =>
    let (origin, direction, rng) := shot.cameraRay x y rng
    let ((light, rng), it) := it.trace shot.options shot.view.air origin direction rng
    shot.sumPaths x y n (total + light) rng it

/-- A shot with the interpreter that it is taken with. -/
structure Worker (S : Type) extends Shot S where
  interpreter : Interpreter S

namespace Worker

/-- A worker for a frame, whose interpreter has evaluated the camera and the air. -/
@[specialize] def new (program : Program) (uniforms : Uniforms) : Worker S :=
  let (view, it) := (Interpreter.new program uniforms.environment).frame
  ⟨.ofView program uniforms view, it⟩

@[specialize] def radiance (worker : Worker S) (x y : UInt32) : Vec3 S × Worker S :=
  match worker with
  | ⟨shot, it⟩ =>
    let (total, it) :=
      shot.sumPaths x y shot.options.iterations.toNat .zero (.forPixel shot.uniforms x y) it
    (Shot.lightOfSum total, ⟨shot, it⟩)

@[specialize] def accumulate (worker : Worker S) (x y : UInt32) (history : Vec4 S) :
    Vec4 S × Worker S :=
  let (light, worker) := worker.radiance x y
  (worker.expose history light, worker)

end Worker

end SphereTracer
