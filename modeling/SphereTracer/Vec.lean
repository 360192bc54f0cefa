import SphereTracer.Scalar

/-!
# Vectors

Two, three and four lanes.  Arithmetic is lane by lane; `dot` adds its products from left to right,
and `normalize` multiplies by the reciprocal of the length without looking for zero.
-/

namespace SphereTracer

structure Vec2 (α : Type) where
  x : α
  y : α
  deriving DecidableEq, Hashable, Repr, Inhabited

structure Vec3 (α : Type) where
  x : α
  y : α
  z : α
  deriving DecidableEq, Hashable, Repr, Inhabited

structure Vec4 (α : Type) where
  x : α
  y : α
  z : α
  w : α
  deriving DecidableEq, Hashable, Repr, Inhabited

namespace Vec2

variable {α β : Type}

@[inline] def map (f : α → β) (v : Vec2 α) : Vec2 β := ⟨f v.x, f v.y⟩

@[inline] def zipWith (f : α → α → β) (v w : Vec2 α) : Vec2 β := ⟨f v.x w.x, f v.y w.y⟩

instance [Add α] : Add (Vec2 α) := ⟨zipWith (· + ·)⟩
instance [Mul α] : Mul (Vec2 α) := ⟨zipWith (· * ·)⟩
instance [Div α] : Div (Vec2 α) := ⟨zipWith (· / ·)⟩

@[inline] def scale [Mul α] (s : α) (v : Vec2 α) : Vec2 α := v.map (s * ·)

/-- `v` as a vector of the plane `z = 0`. -/
@[inline] def extend (v : Vec2 α) (z : α) : Vec3 α := ⟨v.x, v.y, z⟩

end Vec2

namespace Vec3

variable {α β : Type}

@[inline] def splat (a : α) : Vec3 α := ⟨a, a, a⟩

@[inline] def map (f : α → β) (v : Vec3 α) : Vec3 β := ⟨f v.x, f v.y, f v.z⟩

@[inline] def zipWith (f : α → α → β) (v w : Vec3 α) : Vec3 β :=
  ⟨f v.x w.x, f v.y w.y, f v.z w.z⟩

instance [Add α] : Add (Vec3 α) := ⟨zipWith (· + ·)⟩
instance [Sub α] : Sub (Vec3 α) := ⟨zipWith (· - ·)⟩
instance [Mul α] : Mul (Vec3 α) := ⟨zipWith (· * ·)⟩
instance [Div α] : Div (Vec3 α) := ⟨zipWith (· / ·)⟩
instance [Neg α] : Neg (Vec3 α) := ⟨map (- ·)⟩

/-- Every lane of `v`, times `s`. -/
@[inline] def scale [Mul α] (s : α) (v : Vec3 α) : Vec3 α := v.map (s * ·)

/-- Every lane of `v`, divided by `s`. -/
@[inline] def shrink [Div α] (v : Vec3 α) (s : α) : Vec3 α := v.map (· / s)

@[inline] def extend (v : Vec3 α) (w : α) : Vec4 α := ⟨v.x, v.y, v.z, w⟩

section
variable [Scalar α]

@[inline] def zero : Vec3 α := splat 0.0
@[inline] def one : Vec3 α := splat 1.0
@[inline] def unitX : Vec3 α := ⟨1.0, 0.0, 0.0⟩
@[inline] def unitY : Vec3 α := ⟨0.0, 1.0, 0.0⟩
@[inline] def unitZ : Vec3 α := ⟨0.0, 0.0, 1.0⟩

@[inline] def min (v w : Vec3 α) : Vec3 α := zipWith Scalar.min v w
@[inline] def max (v w : Vec3 α) : Vec3 α := zipWith Scalar.max v w
@[inline] def floor (v : Vec3 α) : Vec3 α := v.map Scalar.floor
@[inline] def abs (v : Vec3 α) : Vec3 α := v.map Scalar.abs

/-- The products of the lanes, added from left to right. -/
@[inline] def dot (v w : Vec3 α) : α := v.x * w.x + v.y * w.y + v.z * w.z

@[inline] def cross (v w : Vec3 α) : Vec3 α :=
  ⟨v.y * w.z - w.y * v.z, v.z * w.x - w.z * v.x, v.x * w.y - w.x * v.y⟩

@[inline] def length (v : Vec3 α) : α := Scalar.sqrt (v.dot v)

/-- `v` times the reciprocal of its length. -/
@[inline] def normalize (v : Vec3 α) : Vec3 α := scale (1.0 / v.length) v

/-- Lane by lane equality of numbers: the two zeros are equal, and nothing equals a NaN. -/
@[inline] def eq (v w : Vec3 α) : Bool :=
  Scalar.eq v.x w.x && Scalar.eq v.y w.y && Scalar.eq v.z w.z

/-- Whether every lane is at least zero. -/
@[inline] def nonneg (v : Vec3 α) : Bool :=
  Scalar.le 0.0 v.x && Scalar.le 0.0 v.y && Scalar.le 0.0 v.z

end

end Vec3

namespace Vec4

variable {α β : Type}

@[inline] def map (f : α → β) (v : Vec4 α) : Vec4 β := ⟨f v.x, f v.y, f v.z, f v.w⟩

instance [Add α] : Add (Vec4 α) :=
  ⟨fun v w => ⟨v.x + w.x, v.y + w.y, v.z + w.z, v.w + w.w⟩⟩

@[inline] def scale [Mul α] (s : α) (v : Vec4 α) : Vec4 α := v.map (s * ·)

@[inline] def toVec3 (v : Vec4 α) : Vec3 α := ⟨v.x, v.y, v.z⟩

end Vec4

end SphereTracer
