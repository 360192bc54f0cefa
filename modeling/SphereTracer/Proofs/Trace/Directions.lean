import Mathlib
import SphereTracer.Trace.Sampling
import SphereTracer.Proofs.Numbers.Frames

/-!
# Directions are unit vectors

Over the real numbers, and for unit vectors, every way to find a direction gives a unit vector: the
lobe around a normal, the sphere, the mirror image, and the direction bent by a surface unless all
light is reflected.
-/

namespace SphereTracer

open Vec3 (Triad)

variable {normal incident : Vec3 ℝ} {noise : Vec2 ℝ} {smoothness eta : ℝ}

/-! ## A vector across another -/

theorem ortho_real (v : Vec3 ℝ) :
    ortho v = if |v.z| < |v.x| then ⟨-v.y, v.x, 0⟩ else ⟨0, -v.z, v.y⟩ := by
  unfold ortho
  rw [real_zero]
  exact if_congr real_lt_iff rfl rfl

theorem ortho_dot (v : Vec3 ℝ) : (ortho v).dot v = 0 := by
  rw [ortho_real]
  split
  · show -v.y * v.x + v.x * v.y + 0 * v.z = 0
    ring
  · show 0 * v.x + -v.z * v.y + v.y * v.z = 0
    ring

theorem ortho_ne_zero {v : Vec3 ℝ} (hv : v ≠ .zero) : ortho v ≠ .zero := by
  rw [ortho_real, Vec3.zero_real]
  -- The branch keeps the greater of two lanes: if that one is zero, so is the other.
  split
  · next hlt =>
    intro hzero
    have hx : v.x = 0 := congrArg Vec3.y hzero
    rw [hx, abs_zero] at hlt
    exact absurd hlt (not_lt.2 (abs_nonneg v.z))
  · next hle =>
    intro hzero
    have hy : v.y = 0 := congrArg Vec3.z hzero
    have hz : v.z = 0 := neg_eq_zero.1 (congrArg Vec3.y hzero)
    rw [hz, abs_zero, not_lt, abs_nonpos_iff] at hle
    apply hv
    rw [Vec3.zero_real]
    exact Vec3.ext_lanes hle hy hz

/-- The tangents that a lobe is sampled with, and its normal. -/
theorem triad_of_unit (hn : normal.length = 1) :
    Triad (ortho normal).normalize (normal.cross (ortho normal).normalize).normalize normal := by
  have hunit : normal.dot normal = 1 := Vec3.length_eq_one_iff.1 hn
  have hne : normal ≠ .zero := Vec3.ne_zero_of_dot (by rw [hunit]; exact one_ne_zero)
  have hfirst : (ortho normal).normalize.dot (ortho normal).normalize = 1 :=
    Vec3.length_eq_one_iff.1 (Vec3.length_normalize (ortho_ne_zero hne))
  have hacross : (ortho normal).normalize.dot normal = 0 := by
    rw [Vec3.dot_normalize, ortho_dot, mul_zero]
  have hcross : (normal.cross (ortho normal).normalize).length = 1 := by
    rw [Vec3.length_eq_one_iff, Vec3.dot_cross_self, hunit, hfirst, Vec3.dot_comm, hacross]
    norm_num
  rw [Vec3.normalize_of_unit hcross]
  exact ⟨hfirst, Vec3.length_eq_one_iff.1 hcross, hunit,
    by rw [Vec3.dot_comm, Vec3.dot_cross_right], hacross, Vec3.dot_cross_left _ _⟩

/-! ## Samples -/

/-- Both lanes are in `[0, 1)`. -/
structure Vec2.Noise (noise : Vec2 ℝ) : Prop where
  x_nonneg : 0 ≤ noise.x
  x_lt : noise.x < 1
  y_nonneg : 0 ≤ noise.y
  y_lt : noise.y < 1

theorem clamp_real (x : ℝ) : Scalar.clamp x 0.0 1.0 = min (max x 0) 1 := by
  simp only [Scalar.clamp, real_zero, real_one, real_lt_iff]
  rcases lt_or_ge x 0 with hneg | hnonneg
  · rw [if_pos hneg, max_eq_right hneg.le, if_neg (by norm_num), min_eq_left zero_le_one]
  · rw [if_neg (not_lt.2 hnonneg), max_eq_left hnonneg]
    rcases lt_or_ge 1 x with hlarge | hsmall
    · rw [if_pos hlarge, min_eq_right hlarge.le]
    · rw [if_neg (not_lt.2 hsmall), min_eq_left hsmall]

/-- The sine that is found for a cosine. -/
theorem sine_sq {c : ℝ} (hc : c ^ 2 ≤ 1) : Real.sqrt (max (1 - c * c) 0) ^ 2 = 1 - c ^ 2 := by
  rw [Real.sq_sqrt (le_max_right _ _), ← sq, max_eq_left (sub_nonneg.2 hc)]

/-- What a lobe of some smoothness does with noise: the square of the cosine that it is sampled
with. -/
noncomputable def lobe (smoothness y : ℝ) : ℝ :=
  min (max smoothness 0) 1 + (1 - min (max smoothness 0) 1) * y

theorem lobe_nonneg (smoothness : ℝ) {y : ℝ} (hy : 0 ≤ y) : 0 ≤ lobe smoothness y := by
  have hlow : 0 ≤ min (max smoothness 0) 1 := le_min (le_max_right _ _) zero_le_one
  have hhigh : min (max smoothness 0) 1 ≤ 1 := min_le_right _ _
  exact add_nonneg hlow (mul_nonneg (sub_nonneg.2 hhigh) hy)

theorem lobe_le_one (smoothness : ℝ) {y : ℝ} (hy : y < 1) : lobe smoothness y ≤ 1 := by
  have hhigh : min (max smoothness 0) 1 ≤ 1 := min_le_right _ _
  have hpart : (1 - min (max smoothness 0) 1) * y ≤ 1 - min (max smoothness 0) 1 :=
    mul_le_of_le_one_right (sub_nonneg.2 hhigh) hy.le
  unfold lobe
  linarith

theorem lobe_of_smooth {smoothness : ℝ} (hs : 1 ≤ smoothness) (y : ℝ) : lobe smoothness y = 1 := by
  unfold lobe
  rw [min_eq_right (hs.trans (le_max_left _ _)), sub_self, zero_mul, add_zero]

theorem sampleHemisphere_real (normal : Vec3 ℝ) (smoothness : ℝ) (noise : Vec2 ℝ) :
    let cosine := Real.sqrt (lobe smoothness noise.y)
    let sine := Real.sqrt (max (1 - cosine * cosine) 0)
    ∃ phi, sampleHemisphere normal smoothness noise =
      .scale (sine * Real.cos phi) (ortho normal).normalize +
        .scale (sine * Real.sin phi) (normal.cross (ortho normal).normalize).normalize +
        .scale cosine normal := by
  refine ⟨noise.x * 2 * Scalar.pi, ?_⟩
  unfold sampleHemisphere
  dsimp only
  rw [clamp_real, real_zero, real_one, real_two, Vec3.scale_add, Vec3.scale_scale,
    Vec3.scale_scale]
  rfl

theorem sampleHemisphere_spec (hn : normal.length = 1) (smoothness : ℝ) (hnoise : noise.Noise) :
    (sampleHemisphere normal smoothness noise).length = 1 ∧
      0 ≤ (sampleHemisphere normal smoothness noise).dot normal ∧
      (1 ≤ smoothness → sampleHemisphere normal smoothness noise = normal) := by
  have htriad := triad_of_unit hn
  have hlow := lobe_nonneg smoothness hnoise.y_nonneg
  have hhigh := lobe_le_one smoothness hnoise.y_lt
  obtain ⟨phi, hsample⟩ := sampleHemisphere_real normal smoothness noise
  have hcosine := Real.sq_sqrt hlow
  have hsine := sine_sq (hcosine.trans_le hhigh)
  rw [hsample]
  refine ⟨?_, ?_, fun hsmooth => ?_⟩
  · rw [Vec3.length_eq_one_iff, htriad.dot_self, mul_pow, mul_pow, ← mul_add,
      Real.cos_sq_add_sin_sq, hsine]
    ring
  · rw [htriad.dot_third]
    exact Real.sqrt_nonneg _
  · have hone : Real.sqrt (lobe smoothness noise.y) = 1 := by
      rw [lobe_of_smooth hsmooth, Real.sqrt_one]
    have hnone : Real.sqrt (max (1 - 1 * 1) 0) = 0 := by norm_num
    rw [hone, hnone]
    apply Vec3.ext_axis
    intro axis
    simp only [Axis.lane_add, Axis.lane_scale]
    ring

theorem sampleSphere_length (hnoise : noise.Noise) : (sampleSphere noise).length = 1 := by
  obtain ⟨phi, z, hz, hsample⟩ : ∃ phi z : ℝ, z = noise.y * 2 - 1 ∧ sampleSphere noise =
      ⟨Real.sqrt (max (1 - z * z) 0) * Real.cos phi, Real.sqrt (max (1 - z * z) 0) * Real.sin phi,
        z⟩ := by
    refine ⟨noise.x * 2 * Scalar.pi, _, rfl, ?_⟩
    unfold sampleSphere
    rw [real_zero, real_one, real_two]
    rfl
  have hbound : z ^ 2 ≤ 1 := by
    have hy := hnoise.y_nonneg
    have hy' := hnoise.y_lt
    rw [sq_le_one_iff_abs_le_one, abs_le, hz]
    constructor <;> linarith
  have hsine := sine_sq hbound
  rw [hsample, Vec3.length_eq_one_iff, Vec3.dot_eq]
  linear_combination (Real.cos phi ^ 2 + Real.sin phi ^ 2) * hsine +
    (1 - z ^ 2) * Real.cos_sq_add_sin_sq phi

/-! ## Bent directions -/

/-- A direction whose part along a surface is `eta` times that of the incident one, and that has `c`
against the normal.  A mirror keeps the part along the surface. -/
noncomputable def bend (incident normal : Vec3 ℝ) (eta c : ℝ) : Vec3 ℝ :=
  .scale eta incident - .scale (eta * normal.dot incident + c) normal

/-- The square of what a unit vector has against the normal, if its part along the surface is `eta`
times that of the incident one. -/
noncomputable def bentCosSq (incident normal : Vec3 ℝ) (eta : ℝ) : ℝ :=
  1 - eta * eta * (1 - normal.dot incident * normal.dot incident)

theorem bend_dot (hn : normal.length = 1) (incident : Vec3 ℝ) (eta c : ℝ) :
    (bend incident normal eta c).dot normal = -c := by
  unfold bend
  rw [Vec3.sub_dot, Vec3.scale_dot, Vec3.scale_dot, Vec3.length_eq_one_iff.1 hn,
    Vec3.dot_comm incident]
  ring

theorem bend_length (hn : normal.length = 1) (hi : incident.length = 1) {c : ℝ}
    (hc : c ^ 2 = bentCosSq incident normal eta) : (bend incident normal eta c).length = 1 := by
  rw [Vec3.length_eq_one_iff] at hn hi ⊢
  unfold bend
  rw [Vec3.dot_sub, Vec3.sub_dot, Vec3.sub_dot, Vec3.dot_scale, Vec3.dot_scale, Vec3.dot_scale,
    Vec3.dot_scale, Vec3.scale_dot, Vec3.scale_dot, Vec3.scale_dot, Vec3.scale_dot, hn, hi,
    Vec3.dot_comm incident]
  unfold bentCosSq at hc
  linear_combination hc

theorem bend_sub_dot (hn : normal.length = 1) (incident : Vec3 ℝ) (eta c : ℝ) :
    bend incident normal eta c - .scale ((bend incident normal eta c).dot normal) normal =
      .scale eta (incident - .scale (incident.dot normal) normal) := by
  rw [bend_dot hn, Vec3.dot_comm incident]
  unfold bend
  apply Vec3.ext_axis
  intro axis
  simp only [Axis.lane_sub, Axis.lane_scale]
  ring

/-! ## Mirrors -/

theorem reflect_eq_bend (incident normal : Vec3 ℝ) :
    reflect incident normal = bend incident normal 1 (normal.dot incident) := by
  unfold reflect bend
  rw [real_two, Vec3.one_scale, one_mul, ← two_mul]

theorem reflect_length (hn : normal.length = 1) (hi : incident.length = 1) :
    (reflect incident normal).length = 1 := by
  have hcosine : normal.dot incident ^ 2 = bentCosSq incident normal 1 := by
    unfold bentCosSq
    ring
  rw [reflect_eq_bend]
  exact bend_length hn hi hcosine

theorem reflect_reflect (hn : normal.length = 1) (incident : Vec3 ℝ) :
    reflect (reflect incident normal) normal = incident := by
  have hagainst : normal.dot (reflect incident normal) = -normal.dot incident := by
    rw [Vec3.dot_comm, reflect_eq_bend, bend_dot hn]
  rw [reflect_eq_bend (reflect incident normal), bend, hagainst, reflect_eq_bend, bend]
  apply Vec3.ext_axis
  intro axis
  simp only [Axis.lane_sub, Axis.lane_scale]
  ring

/-! ## Refraction -/

theorem refract_eq_bend (incident normal : Vec3 ℝ) (eta : ℝ) : refract incident normal eta =
    if bentCosSq incident normal eta < 0 then .zero
    else bend incident normal eta (Real.sqrt (bentCosSq incident normal eta)) := by
  unfold refract
  rw [real_zero, real_one]
  exact if_congr real_lt_iff rfl rfl

/-- All light is reflected, or the bent direction is a unit vector on the other side, whose part
along the surface is that of the ray before, times the ratio of the indices. -/
theorem refract_spec (hn : normal.length = 1) (hi : incident.length = 1) (eta : ℝ) :
    let bent := refract incident normal eta
    (bent = .zero ↔ 1 < eta ^ 2 * (1 - normal.dot incident ^ 2)) ∧
      (bent ≠ .zero → bent.length = 1 ∧ bent.dot normal ≤ 0 ∧
        bent - .scale (bent.dot normal) normal =
          .scale eta (incident - .scale (incident.dot normal) normal)) := by
  intro bent
  have htotal : bentCosSq incident normal eta < 0 ↔
      1 < eta ^ 2 * (1 - normal.dot incident ^ 2) := by
    unfold bentCosSq
    rw [sub_neg, ← sq, ← sq]
  rcases lt_or_ge (bentCosSq incident normal eta) 0 with hneg | hnonneg
  · have hbent : bent = .zero := (refract_eq_bend ..).trans (if_pos hneg)
    exact ⟨iff_of_true hbent (htotal.1 hneg), fun hne => absurd hbent hne⟩
  · have hbent : bent = bend incident normal eta (Real.sqrt (bentCosSq incident normal eta)) :=
      (refract_eq_bend ..).trans (if_neg (not_lt.2 hnonneg))
    have hlength : bent.length = 1 := hbent ▸ bend_length hn hi (Real.sq_sqrt hnonneg)
    have hne : bent ≠ .zero := by
      apply Vec3.ne_zero_of_dot
      rw [Vec3.length_eq_one_iff.1 hlength]
      exact one_ne_zero
    refine ⟨iff_of_false hne (mt htotal.2 (not_lt.2 hnonneg)), fun _ => ⟨hlength, ?_, ?_⟩⟩
    · rw [hbent, bend_dot hn]
      exact neg_nonpos.2 (Real.sqrt_nonneg _)
    · rw [hbent]
      exact bend_sub_dot hn incident eta _

end SphereTracer
