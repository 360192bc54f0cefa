import Mathlib
import SphereTracer.Binary32

/-!
# Exact arithmetic

The real numbers as a scalar, for what geometry says about a formula before anything is rounded, and
the vectors of that scalar as points of Euclidean space.
-/

namespace SphereTracer

open Float.Model

/-- The real number that an unpacked one stands for.  Infinities and NaN stand for no number; they
count as zero, and no accepted program holds them as constants. -/
noncomputable def realUnpacked : UnpackedFloat → ℝ
  | .finite .positive m e _ => m * 2 ^ e
  | .finite .negative m e _ => -(m * 2 ^ e)
  | _ => 0

noncomputable def Word.toReal (w : Word) : ℝ := realUnpacked w.toFloat.toModel.unpack

open Classical in
noncomputable instance : Scalar ℝ where
  ofWord := Word.toReal
  ofCount n := n.toNat
  ofLength n := n
  lt a b := decide (a < b)
  le a b := decide (a ≤ b)
  eq a b := decide (a = b)
  min := Min.min
  max := Max.max
  abs := fun a => |a|
  floor a := ⌊a⌋
  sqrt := Real.sqrt
  sin := Real.sin
  cos := Real.cos
  asin := Real.arcsin
  acos := Real.arccos
  exp := Real.exp
  log := Real.log
  pow := fun a b => a ^ b
  atan2 := fun y x => Complex.arg ⟨x, y⟩

theorem real_lt_iff {a b : ℝ} : Scalar.lt a b = true ↔ a < b := by
  show decide (a < b) = true ↔ a < b
  rw [decide_eq_true_iff]

theorem real_le_iff {a b : ℝ} : Scalar.le a b = true ↔ a ≤ b := by
  show decide (a ≤ b) = true ↔ a ≤ b
  rw [decide_eq_true_iff]

/-! ## Numerals -/

theorem real_zero : @OfScientific.ofScientific ℝ Scalar.toOfScientific 0 true 1 = 0 := by
  show OfScientific.ofScientific 0 true 1 = (0 : ℝ)
  norm_num

theorem real_half : @OfScientific.ofScientific ℝ Scalar.toOfScientific 5 true 1 = 1 / 2 := by
  show OfScientific.ofScientific 5 true 1 = (1 / 2 : ℝ)
  norm_num

theorem real_one : @OfScientific.ofScientific ℝ Scalar.toOfScientific 10 true 1 = 1 := by
  show OfScientific.ofScientific 10 true 1 = (1 : ℝ)
  norm_num

theorem real_two : @OfScientific.ofScientific ℝ Scalar.toOfScientific 20 true 1 = 2 := by
  show OfScientific.ofScientific 20 true 1 = (2 : ℝ)
  norm_num

theorem real_ofWord_zero : (Scalar.ofWord (0.0 : Word) : ℝ) =
    @OfScientific.ofScientific ℝ Scalar.toOfScientific 0 true 1 := by
  rw [real_zero]
  rfl

theorem real_ofWord_half : (Scalar.ofWord (0.5 : Word) : ℝ) =
    @OfScientific.ofScientific ℝ Scalar.toOfScientific 5 true 1 := by
  rw [real_half]
  show ((8388608 : ℕ) : ℝ) * 2 ^ (-24 : ℤ) = 1 / 2
  norm_num

theorem real_ofWord_one : (Scalar.ofWord (1.0 : Word) : ℝ) =
    @OfScientific.ofScientific ℝ Scalar.toOfScientific 10 true 1 := by
  rw [real_one]
  show ((8388608 : ℕ) : ℝ) * 2 ^ (-23 : ℤ) = 1
  norm_num

theorem real_ofWord_two : (Scalar.ofWord (2.0 : Word) : ℝ) =
    @OfScientific.ofScientific ℝ Scalar.toOfScientific 20 true 1 := by
  rw [real_two]
  show ((8388608 : ℕ) : ℝ) * 2 ^ (-22 : ℤ) = 2
  norm_num

namespace Vec3

/-! ## Lanes -/

variable (p q v n : Vec3 ℝ) (a : ℝ)

theorem ext_lanes {p q : Vec3 ℝ} (hx : p.x = q.x) (hy : p.y = q.y) (hz : p.z = q.z) : p = q := by
  cases p
  cases q
  subst hx hy hz
  rfl

theorem zero_real : (Vec3.zero : Vec3 ℝ) = ⟨0, 0, 0⟩ := by
  unfold zero splat
  rw [real_zero]

theorem one_real : (Vec3.one : Vec3 ℝ) = ⟨1, 1, 1⟩ := by
  unfold one splat
  rw [real_one]

theorem dot_eq : p.dot q = p.x * q.x + p.y * q.y + p.z * q.z := rfl

theorem dot_comm : p.dot q = q.dot p := by
  rw [dot_eq, dot_eq]
  ring

theorem dot_sub : n.dot (p - q) = n.dot p - n.dot q := by
  rw [dot_eq, dot_eq, dot_eq]
  show n.x * (p.x - q.x) + n.y * (p.y - q.y) + n.z * (p.z - q.z) = _
  ring

theorem scale_dot : (scale a p).dot q = a * p.dot q := by
  rw [dot_eq, dot_eq]
  show a * p.x * q.x + a * p.y * q.y + a * p.z * q.z = _
  ring

/-! ## Euclidean space -/

/-- A vector as a point of Euclidean space. -/
noncomputable def toEuclidean (p : Vec3 ℝ) : EuclideanSpace ℝ (Fin 3) := !₂[p.x, p.y, p.z]

theorem toEuclidean_sub : (p - q).toEuclidean = p.toEuclidean - q.toEuclidean := by
  ext i
  fin_cases i <;> rfl

theorem norm_toEuclidean : ‖p.toEuclidean‖ = p.length := by
  show _ = Real.sqrt (p.x * p.x + p.y * p.y + p.z * p.z)
  simp [EuclideanSpace.norm_eq, Fin.sum_univ_three, toEuclidean, sq]

theorem inner_toEuclidean : inner ℝ p.toEuclidean q.toEuclidean = p.dot q := by
  show _ = p.x * q.x + p.y * q.y + p.z * q.z
  simp [toEuclidean, PiLp.inner_apply, Fin.sum_univ_three, mul_comm]

theorem dot_self_nonneg : 0 ≤ p.dot p := by
  have hx := mul_self_nonneg p.x
  have hy := mul_self_nonneg p.y
  have hz := mul_self_nonneg p.z
  rw [dot_eq]
  linarith

theorem length_nonneg : 0 ≤ p.length := Real.sqrt_nonneg _

theorem length_sq : p.length ^ 2 = p.dot p := Real.sq_sqrt p.dot_self_nonneg

theorem length_le_of_dot_le {p q : Vec3 ℝ} (h : p.dot p ≤ q.dot q) : p.length ≤ q.length :=
  Real.sqrt_le_sqrt h

theorem length_le_of_lanes {p q : Vec3 ℝ} (hx : |p.x| ≤ |q.x|) (hy : |p.y| ≤ |q.y|)
    (hz : |p.z| ≤ |q.z|) : p.length ≤ q.length := by
  apply length_le_of_dot_le
  have hxx := mul_self_le_mul_self (abs_nonneg p.x) hx
  have hyy := mul_self_le_mul_self (abs_nonneg p.y) hy
  have hzz := mul_self_le_mul_self (abs_nonneg p.z) hz
  rw [abs_mul_abs_self, abs_mul_abs_self] at hxx hyy hzz
  rw [dot_eq, dot_eq]
  linarith

theorem length_sub_comm : (p - q).length = (q - p).length := by
  rw [← norm_toEuclidean, ← norm_toEuclidean, toEuclidean_sub, toEuclidean_sub, norm_sub_rev]

theorem length_scale : (scale a p).length = |a| * p.length := by
  have hdot : (scale a p).dot (scale a p) = a ^ 2 * p.dot p := by
    rw [dot_eq, dot_eq]
    show a * p.x * (a * p.x) + a * p.y * (a * p.y) + a * p.z * (a * p.z) = _
    ring
  show Real.sqrt _ = |a| * Real.sqrt _
  rw [hdot, Real.sqrt_mul (sq_nonneg a), Real.sqrt_sq_eq_abs]

theorem length_ne_zero {p : Vec3 ℝ} (hp : p ≠ .zero) : p.length ≠ 0 := by
  intro h
  apply hp
  have hsq : p.x * p.x + p.y * p.y + p.z * p.z = 0 := by
    rw [← dot_eq, ← length_sq, h, sq, mul_zero]
  have hx := mul_self_nonneg p.x
  have hy := mul_self_nonneg p.y
  have hz := mul_self_nonneg p.z
  rw [zero_real]
  apply ext_lanes
  · exact mul_self_eq_zero.1 (by linarith)
  · exact mul_self_eq_zero.1 (by linarith)
  · exact mul_self_eq_zero.1 (by linarith)

theorem normalize_real : p.normalize = scale (1 / p.length) p := by
  unfold normalize
  rw [real_one]

theorem length_normalize {p : Vec3 ℝ} (hp : p ≠ .zero) : p.normalize.length = 1 := by
  have hpos : 0 < p.length := lt_of_le_of_ne p.length_nonneg (length_ne_zero hp).symm
  rw [normalize_real, length_scale, abs_of_pos (one_div_pos.2 hpos), one_div_mul_cancel hpos.ne']

theorem abs_dot_le : |p.dot q| ≤ p.length * q.length := by
  rw [← inner_toEuclidean, ← norm_toEuclidean, ← norm_toEuclidean]
  exact abs_real_inner_le_norm _ _

theorem abs_length_sub_length_le : |p.length - q.length| ≤ (p - q).length := by
  rw [← norm_toEuclidean, ← norm_toEuclidean, ← norm_toEuclidean, toEuclidean_sub]
  exact abs_norm_sub_norm_le _ _

end Vec3

end SphereTracer
