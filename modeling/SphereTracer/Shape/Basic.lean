import SphereTracer.Expr.Term

/-!
# Shapes

Signed distance functions as trees.  A shape says how far a point is from its surface, with a
negative sign inside; the distance is read from the first lane of its value.
-/

namespace SphereTracer

/-- A distance function whose parameters are terms over constants of type `κ`. -/
inductive Shape (κ : Type) where
  /-- A distance given by a term. -/
  | field (distance : Term κ)
  | sphere (radius : Term κ)
  /-- The half-space `dot p normal + offset ≤ 0`. -/
  | plane (normal offset : Term κ)
  /-- The box with the given half extents. -/
  | cuboid (half : Term κ)
  /-- The infinite cylinder along the y axis. -/
  | cylinder (radius : Term κ)
  /-- The torus in the xz plane. -/
  | torus (major minor : Term κ)
  | mandelbulb (power : Term κ) (iterations : UInt32)
  /-- Rounds of the tetrahedral fold in front of a base. -/
  | sierpinski (rounds : UInt32) (base : Shape κ)
  | translate (offset : Term κ) (a : Shape κ)
  /-- Uniform scale by the first lane of the factor. -/
  | scale (factor : Term κ) (a : Shape κ)
  /-- Scale by a factor per lane; distances shrink by the smallest, so they stay lower bounds. -/
  | stretch (factor : Term κ) (a : Shape κ)
  /-- Infinite repetition; cells are centred on the multiples of the period. -/
  | repeat (period : Term κ) (a : Shape κ)
  /-- Repetition of a shape that may depend on the index of its cell.  The distance to the border of
  the cell, widened by `buffer`, keeps a march from skipping cells.  Within `inner` only this index is
  called `Term.cell`; where repetitions are nested, that of an outer cell has to be written as a term
  of the variables. -/
  | modulate (period buffer : Term κ) (inner : Shape κ)
  /-- Shape `i` where the first lane of the selector is in `[i / n, (i + 1) / n)`. -/
  | choose (selector : Term κ) (n : Nat) (shapes : Fin n → Shape κ)
  | union (a b : Shape κ)
  | intersection (a b : Shape κ)
  /-- `a` without `b`. -/
  | difference (a b : Shape κ)
  /-- The union with a blended region of size `k`. -/
  | smoothUnion (k : Term κ) (a b : Shape κ)
  | smoothIntersection (k : Term κ) (a b : Shape κ)
  | smoothDifference (k : Term κ) (a b : Shape κ)
  /-- The surface moved outward by the first lane of the amount. -/
  | expand (amount : Term κ) (a : Shape κ)
  /-- `a` at the point whose negative coordinates are set to zero. -/
  | clampPositive (a : Shape κ)
  /-- The negative side of the plane through the origin folded onto the positive side. -/
  | mirror (normal : Term κ) (a : Shape κ)
  /-- Rotation by the first lane of the angle, in radians, about the axis, right-handed. -/
  | rotate (axis angle : Term κ) (a : Shape κ)
  /-- The y axis bent around the x axis, so that a row along y becomes a ring. -/
  | wrapX (a : Shape κ)

instance {κ : Type} : Inhabited (Shape κ) := ⟨.field .here⟩

/-- Shapes are shown without their contents. -/
instance {κ : Type} : ToString (Shape κ) := ⟨fun _ => "Shape(..)"⟩

end SphereTracer
