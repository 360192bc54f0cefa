import Mathlib
import SphereTracer.Trace.Sampling
import SphereTracer.Proofs.Numbers.Lanes

/-!
# Frames of unit vectors

Over the real numbers: what a dot product is of a sum, a cross product is across both of its factors,
and a direction is a unit vector if its parts along three unit vectors, each across the others, are
those of one.
-/

namespace SphereTracer.Vec3

variable {n u v w : Vec3 ℝ} {a b c : ℝ}

/-! ## Products -/

theorem dot_add (u v w : Vec3 ℝ) : u.dot (v + w) = u.dot v + u.dot w := by
  rw [dot_eq, dot_eq, dot_eq]
  show u.x * (v.x + w.x) + u.y * (v.y + w.y) + u.z * (v.z + w.z) = _
  ring

theorem add_dot (u v w : Vec3 ℝ) : (u + v).dot w = u.dot w + v.dot w := by
  rw [dot_comm, dot_add, dot_comm w, dot_comm w]

theorem sub_dot (u v w : Vec3 ℝ) : (u - v).dot w = u.dot w - v.dot w := by
  rw [dot_comm, dot_sub, dot_comm w, dot_comm w]

theorem dot_scale (a : ℝ) (u v : Vec3 ℝ) : u.dot (scale a v) = a * u.dot v := by
  rw [dot_comm, scale_dot, dot_comm]

theorem scale_add (a : ℝ) (u v : Vec3 ℝ) : scale a (u + v) = scale a u + scale a v := by
  apply ext_axis
  intro axis
  simp only [Axis.lane_add, Axis.lane_scale, mul_add]

theorem scale_scale (a b : ℝ) (v : Vec3 ℝ) : scale a (scale b v) = scale (a * b) v := by
  apply ext_axis
  intro axis
  simp only [Axis.lane_scale, mul_assoc]

theorem one_scale (v : Vec3 ℝ) : scale 1 v = v := by
  apply ext_axis
  intro axis
  rw [Axis.lane_scale, one_mul]

theorem neg_dot_neg (u v : Vec3 ℝ) : (-u).dot (-v) = u.dot v := by
  rw [dot_eq, dot_eq]
  show -u.x * -v.x + -u.y * -v.y + -u.z * -v.z = _
  ring

theorem dot_cross_left (u v : Vec3 ℝ) : (u.cross v).dot u = 0 := by
  rw [dot_eq]
  show (u.y * v.z - v.y * u.z) * u.x + (u.z * v.x - v.z * u.x) * u.y +
    (u.x * v.y - v.x * u.y) * u.z = 0
  ring

theorem dot_cross_right (u v : Vec3 ℝ) : (u.cross v).dot v = 0 := by
  rw [dot_eq]
  show (u.y * v.z - v.y * u.z) * v.x + (u.z * v.x - v.z * u.x) * v.y +
    (u.x * v.y - v.x * u.y) * v.z = 0
  ring

/-- Lagrange's identity. -/
theorem dot_cross_self (u v : Vec3 ℝ) :
    (u.cross v).dot (u.cross v) = u.dot u * v.dot v - u.dot v ^ 2 := by
  rw [dot_eq, dot_eq, dot_eq, dot_eq]
  show (u.y * v.z - v.y * u.z) * (u.y * v.z - v.y * u.z) +
    (u.z * v.x - v.z * u.x) * (u.z * v.x - v.z * u.x) +
    (u.x * v.y - v.x * u.y) * (u.x * v.y - v.x * u.y) = _
  ring

/-! ## Unit vectors -/

theorem length_eq_one_iff : v.length = 1 ↔ v.dot v = 1 := by
  rw [← length_sq, pow_eq_one_iff_of_nonneg v.length_nonneg two_ne_zero]

theorem ne_zero_of_dot (h : v.dot v ≠ 0) : v ≠ .zero := by
  rintro rfl
  apply h
  rw [zero_real, dot_eq]
  norm_num

theorem dot_normalize (u v : Vec3 ℝ) : u.normalize.dot v = 1 / u.length * u.dot v := by
  rw [normalize_real, scale_dot]

/-- A unit vector is its own direction. -/
theorem normalize_of_unit (hv : v.length = 1) : v.normalize = v := by
  rw [normalize_real, hv, div_one, one_scale]

/-- The length of a vector does not matter for its direction. -/
theorem normalize_scale (ha : 0 < a) (hv : v ≠ .zero) :
    (scale a v).normalize = v.shrink v.length := by
  have hlength := length_ne_zero hv
  rw [normalize_real, length_scale, abs_of_pos ha]
  apply ext_axis
  intro axis
  rw [Axis.lane_scale, Axis.lane_scale, Axis.lane_shrink]
  field_simp

theorem length_shrink (hv : v ≠ .zero) : (v.shrink v.length).length = 1 := by
  rw [← normalize_scale one_pos hv, one_scale]
  exact length_normalize hv

theorem normalize_zero : (zero : Vec3 ℝ).normalize = .zero := by
  rw [normalize_real]
  apply ext_axis
  intro axis
  rw [Axis.lane_scale, Axis.lane_zero, mul_zero]

theorem length_neg (v : Vec3 ℝ) : (-v).length = v.length :=
  congrArg Real.sqrt (neg_dot_neg v v)

/-- Three unit vectors, each across the others. -/
structure Triad (u v w : Vec3 ℝ) : Prop where
  first : u.dot u = 1
  second : v.dot v = 1
  third : w.dot w = 1
  first_second : u.dot v = 0
  first_third : u.dot w = 0
  second_third : v.dot w = 0

namespace Triad

/-- Pythagoras. -/
theorem dot_self (h : Triad u v w) :
    (scale a u + scale b v + scale c w).dot (scale a u + scale b v + scale c w) =
      a ^ 2 + b ^ 2 + c ^ 2 := by
  simp only [add_dot, dot_add, scale_dot, dot_scale, dot_comm v u, dot_comm w u, dot_comm w v,
    h.first, h.second, h.third, h.first_second, h.first_third, h.second_third]
  ring

theorem dot_third (h : Triad u v w) : (scale a u + scale b v + scale c w).dot w = c := by
  simp only [add_dot, scale_dot, h.third, h.first_third, h.second_third]
  ring

end Triad

end SphereTracer.Vec3
