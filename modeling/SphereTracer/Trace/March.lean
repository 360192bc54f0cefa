import SphereTracer.Interpreter

/-!
# Marching

A ray advances by the distance to the nearest surface until it is close to one, until the free path
in its medium has ended, or until its steps are used up.
-/

namespace SphereTracer

/-- What a path can ask about its surroundings. -/
structure World (S : Type) where
  closest : Vec3 S → Closest S
  normal : UInt32 → Vec3 S → Vec3 S
  /-- The surface of an entity at a point, for a normal and the direction of the incoming ray. -/
  surface : UInt32 → Vec3 S → Vec3 S → Vec3 S → Surface S

/-- The answers of an interpreter, each of them given from its present slots. -/
@[specialize] def Interpreter.world {S : Type} [Scalar S] (it : Interpreter S) : World S where
  closest p := (it.closest p).1
  normal id p := (it.normal id p).1
  surface id p n d := (it.material id p n d).1

/-- The end of a segment. -/
inductive March (S : Type) where
  | hit (closest : Closest S) (point : Vec3 S)
  /-- The free path ended before any surface. -/
  | scattered
  /-- The steps are used up. -/
  | escaped

variable {S : Type} [Scalar S]

/-- The free path in a medium that never scatters. -/
@[specialize] def unbounded : S := 3.0e38

/-- The rays and limits of a march. -/
structure Ray (S : Type) where
  origin : Vec3 S
  direction : Vec3 S
  /-- The free path; it limits the march only if it is positive. -/
  scatter : S

/-- The point at a distance along the ray. -/
@[inline] def Ray.along (ray : Ray S) (travelled : S) : Vec3 S :=
  ray.origin + .scale travelled ray.direction

/-- Marches for at most `n` steps from `point`, which is `travelled` away from the origin.  Gives
the end of the segment and the distance travelled there. -/
@[specialize] def marchFrom (closest : Vec3 S → Closest S) (epsilon stepFactor : S) (ray : Ray S) :
    Nat → Vec3 S → S → March S × S
  | 0, _, travelled => (.escaped, travelled)
  | n + 1, point, travelled =>
    let nearest := closest point
    if Scalar.lt nearest.distance epsilon then (.hit nearest point, travelled)
    else
      let travelled := travelled + nearest.distance * stepFactor
      -- A step may go beyond the end of the free path; `Path.scatter` starts from the end itself.
      if Scalar.lt 0.0 ray.scatter && Scalar.le ray.scatter travelled then (.scattered, travelled)
      else marchFrom closest epsilon stepFactor ray n (ray.along travelled) travelled

/-- Marches along a ray from its origin. -/
@[specialize] def march (closest : Vec3 S → Closest S) (options : Options S) (ray : Ray S) :
    March S :=
  (marchFrom closest options.epsilon options.stepFactor ray options.steps.toNat ray.origin 0.0).1

end SphereTracer
