import SphereTracer.Expr.Op
import SphereTracer.Proofs.Numbers.Real

/-!
# Lanes

Arithmetic of vectors is arithmetic of their lanes, so a law of real numbers is one of vectors, and
vectors are compared lane by lane.
-/

namespace SphereTracer

variable {α : Type} {v w : Vec3 ℝ}

namespace Axis

@[simp] theorem lane_add [Add α] (axis : Axis) (v w : Vec3 α) :
    axis.lane (v + w) = axis.lane v + axis.lane w := by
  cases axis <;> rfl

@[simp] theorem lane_sub [Sub α] (axis : Axis) (v w : Vec3 α) :
    axis.lane (v - w) = axis.lane v - axis.lane w := by
  cases axis <;> rfl

@[simp] theorem lane_div [Div α] (axis : Axis) (v w : Vec3 α) :
    axis.lane (v / w) = axis.lane v / axis.lane w := by
  cases axis <;> rfl

@[simp] theorem lane_splat (axis : Axis) (a : α) : axis.lane (.splat a) = a := by
  cases axis <;> rfl

@[simp] theorem lane_mul [Mul α] (axis : Axis) (v w : Vec3 α) :
    axis.lane (v * w) = axis.lane v * axis.lane w := by
  cases axis <;> rfl

@[simp] theorem lane_scale [Mul α] (axis : Axis) (s : α) (v : Vec3 α) :
    axis.lane (.scale s v) = s * axis.lane v := by
  cases axis <;> rfl

@[simp] theorem lane_shrink [Div α] (axis : Axis) (v : Vec3 α) (s : α) :
    axis.lane (v.shrink s) = axis.lane v / s := by
  cases axis <;> rfl

@[simp] theorem lane_floor (axis : Axis) (v : Vec3 ℝ) : axis.lane v.floor = ⌊axis.lane v⌋ := by
  cases axis <;> rfl

@[simp] theorem lane_zero (axis : Axis) : axis.lane (Vec3.zero : Vec3 ℝ) = 0 := by
  rw [Vec3.zero_real]
  cases axis <;> rfl

@[simp] theorem lane_one (axis : Axis) : axis.lane (Vec3.one : Vec3 ℝ) = 1 := by
  rw [Vec3.one_real]
  cases axis <;> rfl

end Axis

namespace Vec3

theorem ext_axis (h : ∀ axis : Axis, axis.lane v = axis.lane w) : v = w :=
  ext_lanes (h .x) (h .y) (h .z)

/-- No lane is greater. -/
def AtMost (v w : Vec3 ℝ) : Prop := ∀ axis : Axis, axis.lane v ≤ axis.lane w

/-- No lane is negative. -/
abbrev Nonneg (v : Vec3 ℝ) : Prop := zero.AtMost v

theorem AtMost.refl (v : Vec3 ℝ) : v.AtMost v := fun _ => le_rfl

theorem AtMost.trans {u : Vec3 ℝ} (huv : u.AtMost v) (hvw : v.AtMost w) : u.AtMost w :=
  fun axis => (huv axis).trans (hvw axis)

theorem nonneg_iff_lanes : v.Nonneg ↔ ∀ axis : Axis, 0 ≤ axis.lane v :=
  forall_congr' fun axis => by rw [Axis.lane_zero]

theorem nonneg_one : (one : Vec3 ℝ).Nonneg := by
  rw [nonneg_iff_lanes]
  intro axis
  rw [Axis.lane_one]
  exact zero_le_one

theorem nonneg_eq_true (h : v.Nonneg) : v.nonneg = true := by
  rw [nonneg_iff_lanes] at h
  simp only [nonneg, Bool.and_eq_true, real_le_iff, real_zero]
  exact ⟨⟨h .x, h .y⟩, h .z⟩

theorem nonneg_add (hv : v.Nonneg) (hw : w.Nonneg) : (v + w).Nonneg := by
  rw [nonneg_iff_lanes] at *
  intro axis
  rw [Axis.lane_add]
  exact add_nonneg (hv axis) (hw axis)

theorem nonneg_mul (hv : v.Nonneg) (hw : w.Nonneg) : (v * w).Nonneg := by
  rw [nonneg_iff_lanes] at *
  intro axis
  rw [Axis.lane_mul]
  exact mul_nonneg (hv axis) (hw axis)

theorem AtMost.add {v' w' : Vec3 ℝ} (h : v.AtMost w) (h' : v'.AtMost w') :
    (v + v').AtMost (w + w') := by
  intro axis
  rw [Axis.lane_add, Axis.lane_add]
  exact add_le_add (h axis) (h' axis)

/-- A color of at most one darkens light. -/
theorem AtMost.mul_of_one (hv : v.AtMost .one) (hw : w.Nonneg) : (v * w).AtMost w := by
  rw [nonneg_iff_lanes] at hw
  intro axis
  have hlane := hv axis
  rw [Axis.lane_one] at hlane
  rw [Axis.lane_mul]
  exact mul_le_of_le_one_left (hw axis) hlane

end Vec3

end SphereTracer
