import Mathlib
import SphereTracer.Shape.Value
import SphereTracer.Proofs.Numbers.Real

/-!
# Distances as lower bounds

Over the real numbers the distance of a shape changes by at most as much as the point moves, so it
never exceeds the distance from the point to the surface.  A march relies on that for every scene.
Each basic distance has the bound, each map of space brings points closer or keeps their distance,
and each combination of two distances keeps the bound.
-/

namespace SphereTracer

/-- A distance that changes by at most as much as the point moves. -/
def Lipschitz (d : Vec3 ℝ → ℝ) : Prop := ∀ p q, |d p - d q| ≤ (p - q).length

/-- A map of space that takes no two points further apart. -/
def Contraction (f : Vec3 ℝ → Vec3 ℝ) : Prop := ∀ p q, (f p - f q).length ≤ (p - q).length

section
variable {d e : Vec3 ℝ → ℝ} {f g : Vec3 ℝ → Vec3 ℝ}

theorem lipschitz_of_sub_le (h : ∀ p q, d p - d q ≤ (p - q).length) : Lipschitz d := by
  intro p q
  have hback := h q p
  rw [Vec3.length_sub_comm] at hback
  rw [abs_le]
  constructor
  · linarith
  · exact h p q

/-- Across a change of sign the distance between the points is at least as large as either value. -/
theorem Lipschitz.abs_le_of_mul_nonpos (hd : Lipschitz d) {p q : Vec3 ℝ} (h : d p * d q ≤ 0) :
    |d p| ≤ (p - q).length := by
  apply le_trans _ (hd p q)
  apply sq_le_sq.1
  nlinarith [sq_nonneg (d q)]

theorem Lipschitz.comp (hd : Lipschitz d) (hf : Contraction f) : Lipschitz fun p => d (f p) := by
  intro p q
  exact (hd (f p) (f q)).trans (hf p q)

theorem Contraction.comp (hf : Contraction f) (hg : Contraction g) :
    Contraction fun p => f (g p) := by
  intro p q
  exact (hf (g p) (g q)).trans (hg p q)

theorem lipschitz_const (c : ℝ) : Lipschitz fun _ => c := by
  intro p q
  show |c - c| ≤ (p - q).length
  rw [sub_self, abs_zero]
  exact (p - q).length_nonneg

theorem Lipschitz.add_const (hd : Lipschitz d) (c : ℝ) : Lipschitz fun p => d p + c := by
  intro p q
  show |d p + c - (d q + c)| ≤ (p - q).length
  rw [add_sub_add_right_eq_sub]
  exact hd p q

theorem Lipschitz.sub_const (hd : Lipschitz d) (c : ℝ) : Lipschitz fun p => d p - c := by
  intro p q
  show |d p - c - (d q - c)| ≤ (p - q).length
  rw [sub_sub_sub_cancel_right]
  exact hd p q

theorem Lipschitz.neg (hd : Lipschitz d) : Lipschitz fun p => -d p := by
  intro p q
  show |-d p - -d q| ≤ (p - q).length
  rw [neg_sub_neg, abs_sub_comm]
  exact hd p q

theorem Lipschitz.abs (hd : Lipschitz d) : Lipschitz fun p => |d p| := by
  intro p q
  exact (abs_abs_sub_abs_le (d p) (d q)).trans (hd p q)

theorem Lipschitz.min (hd : Lipschitz d) (he : Lipschitz e) :
    Lipschitz fun p => min (d p) (e p) := by
  intro p q
  apply (abs_min_sub_min_le_max (d p) (e p) (d q) (e q)).trans
  exact max_le (hd p q) (he p q)

theorem Lipschitz.max (hd : Lipschitz d) (he : Lipschitz e) :
    Lipschitz fun p => max (d p) (e p) := by
  intro p q
  apply (abs_max_sub_max_le_max (d p) (e p) (d q) (e q)).trans
  exact max_le (hd p q) (he p q)

theorem lipschitz_length : Lipschitz Vec3.length := fun p q => p.abs_length_sub_length_le q

theorem lipschitz_dot {n : Vec3 ℝ} (hn : n.length = 1) : Lipschitz fun p => p.dot n := by
  intro p q
  have hle := (p - q).abs_dot_le n
  rw [hn, mul_one, Vec3.dot_comm, Vec3.dot_sub, n.dot_comm, n.dot_comm] at hle
  exact hle

/-! ## Maps of space -/

theorem contraction_translate (v : Vec3 ℝ) : Contraction fun p => p - v := by
  intro p q
  apply le_of_eq
  congr 1
  apply Vec3.ext_lanes
  · exact sub_sub_sub_cancel_right p.x q.x v.x
  · exact sub_sub_sub_cancel_right p.y q.y v.y
  · exact sub_sub_sub_cancel_right p.z q.z v.z

theorem contraction_abs : Contraction fun p => p.abs := by
  intro p q
  apply Vec3.length_le_of_lanes
  · exact abs_abs_sub_abs_le p.x q.x
  · exact abs_abs_sub_abs_le p.y q.y
  · exact abs_abs_sub_abs_le p.z q.z

theorem contraction_clampPositive : Contraction fun p => p.max .zero := by
  have hlane (a b : ℝ) : |Max.max a 0 - Max.max b 0| ≤ |a - b| := abs_max_sub_max_le_abs a b 0
  intro p q
  rw [Vec3.zero_real]
  apply Vec3.length_le_of_lanes
  · exact hlane p.x q.x
  · exact hlane p.y q.y
  · exact hlane p.z q.z

/-- A point seen along the y axis. -/
theorem contraction_planar : Contraction fun p => ⟨p.x, p.z, 0⟩ := by
  intro p q
  apply Vec3.length_le_of_dot_le
  simp only [Vec3.dot_eq]
  show (p.x - q.x) * (p.x - q.x) + (p.z - q.z) * (p.z - q.z) + (0 - 0) * (0 - 0) ≤
    (p.x - q.x) * (p.x - q.x) + (p.y - q.y) * (p.y - q.y) + (p.z - q.z) * (p.z - q.z)
  have hy := mul_self_nonneg (p.y - q.y)
  linarith

/-- A point of the half plane through the y axis that it can be turned into, from a circle of radius
`r` about the axis. -/
theorem contraction_ring (r : ℝ) :
    Contraction fun p => ⟨Vec3.length ⟨p.x, p.z, 0⟩ - r, p.y, 0⟩ := by
  intro p q
  apply Vec3.length_le_of_dot_le
  have hround := Vec3.abs_length_sub_length_le ⟨p.x, p.z, 0⟩ ⟨q.x, q.z, 0⟩
  have hsq := mul_self_le_mul_self (abs_nonneg _) hround
  rw [abs_mul_abs_self, ← sq, ← sq, Vec3.length_sq] at hsq
  simp only [Vec3.dot_eq] at hsq ⊢
  show (Vec3.length ⟨p.x, p.z, 0⟩ - r - (Vec3.length ⟨q.x, q.z, 0⟩ - r)) *
      (Vec3.length ⟨p.x, p.z, 0⟩ - r - (Vec3.length ⟨q.x, q.z, 0⟩ - r)) +
        (p.y - q.y) * (p.y - q.y) + (0 - 0) * (0 - 0) ≤
    (p.x - q.x) * (p.x - q.x) + (p.y - q.y) * (p.y - q.y) + (p.z - q.z) * (p.z - q.z)
  change _ ≤ (p.x - q.x) * (p.x - q.x) + (p.z - q.z) * (p.z - q.z) + (0 - 0) * (0 - 0) at hsq
  rw [sub_sub_sub_cancel_right, ← sq]
  linarith

theorem mirrorPoint_real (n p : Vec3 ℝ) :
    mirrorPoint n p = ⟨p.x - 2 * Min.min 0 (p.dot n) * n.x, p.y - 2 * Min.min 0 (p.dot n) * n.y,
      p.z - 2 * Min.min 0 (p.dot n) * n.z⟩ := by
  unfold mirrorPoint
  rw [Vec3.zero_real, real_two]
  rfl

/-- The fold at a mirror keeps the distance of points on one side, and brings the others closer. -/
theorem contraction_mirror {n : Vec3 ℝ} (hn : n.length = 1) : Contraction (mirrorPoint n) := by
  have hunit : n.x * n.x + n.y * n.y + n.z * n.z = 1 := by
    rw [← Vec3.dot_eq, ← Vec3.length_sq, hn, one_pow]
  have hfold (a b : ℝ) : (Min.min 0 a - Min.min 0 b) ^ 2 ≤
      (Min.min 0 a - Min.min 0 b) * (a - b) := by
    rcases le_total 0 a with ha | ha <;> rcases le_total 0 b with hb | hb
    · rw [min_eq_left ha, min_eq_left hb]
      simp
    · rw [min_eq_left ha, min_eq_right hb]
      nlinarith
    · rw [min_eq_right ha, min_eq_left hb]
      nlinarith
    · rw [min_eq_right ha, min_eq_right hb]
      nlinarith
  intro p q
  apply Vec3.length_le_of_dot_le
  have hpq := hfold (p.dot n) (q.dot n)
  rw [mirrorPoint_real, mirrorPoint_real]
  generalize hα : Min.min 0 (p.dot n) = α at hpq ⊢
  generalize hβ : Min.min 0 (q.dot n) = β at hpq ⊢
  simp only [Vec3.dot_eq] at hpq ⊢
  show (p.x - 2 * α * n.x - (q.x - 2 * β * n.x)) * (p.x - 2 * α * n.x - (q.x - 2 * β * n.x)) +
      (p.y - 2 * α * n.y - (q.y - 2 * β * n.y)) * (p.y - 2 * α * n.y - (q.y - 2 * β * n.y)) +
      (p.z - 2 * α * n.z - (q.z - 2 * β * n.z)) * (p.z - 2 * α * n.z - (q.z - 2 * β * n.z)) ≤
    (p.x - q.x) * (p.x - q.x) + (p.y - q.y) * (p.y - q.y) + (p.z - q.z) * (p.z - q.z)
  calc _ = (p.x - q.x) * (p.x - q.x) + (p.y - q.y) * (p.y - q.y) + (p.z - q.z) * (p.z - q.z) -
        4 * ((α - β) * (p.x * n.x + p.y * n.y + p.z * n.z -
          (q.x * n.x + q.y * n.y + q.z * n.z))) +
        4 * (α - β) ^ 2 * (n.x * n.x + n.y * n.y + n.z * n.z) := by ring
    _ ≤ _ := by
      rw [hunit]
      linarith

/-- Rodrigues' rotation about a unit vector keeps lengths. -/
theorem dot_rotation {k v w : Vec3 ℝ} {c s : ℝ} (hk : k.dot k = 1) (hcs : c ^ 2 + s ^ 2 = 1)
    (hw : w = .scale c v + .scale s (k.cross v) + .scale (1 - c) (.scale (k.dot v) k)) :
    w.dot w = v.dot v := by
  have hx : w.x = c * v.x + s * (k.y * v.z - v.y * k.z) + (1 - c) * (k.dot v * k.x) :=
    congrArg Vec3.x hw
  have hy : w.y = c * v.y + s * (k.z * v.x - v.z * k.x) + (1 - c) * (k.dot v * k.y) :=
    congrArg Vec3.y hw
  have hz : w.z = c * v.z + s * (k.x * v.y - v.x * k.y) + (1 - c) * (k.dot v * k.z) :=
    congrArg Vec3.z hw
  rw [Vec3.dot_eq w, hx, hy, hz]
  simp only [Vec3.dot_eq] at hk ⊢
  linear_combination
    (s ^ 2 * (v.x * v.x + v.y * v.y + v.z * v.z) +
      (1 - c) ^ 2 * (k.x * v.x + k.y * v.y + k.z * v.z) ^ 2) * hk +
    ((v.x * v.x + v.y * v.y + v.z * v.z) - (k.x * v.x + k.y * v.y + k.z * v.z) ^ 2) * hcs

theorem rotate_real (p k : Vec3 ℝ) (angle : ℝ) : Intrinsic.rotate p k angle =
    .scale (Real.cos angle) p + .scale (Real.sin angle) (k.normalize.cross p) +
      .scale (1 - Real.cos angle) (.scale (k.normalize.dot p) k.normalize) := by
  unfold Intrinsic.rotate
  rw [real_one]
  rfl

/-- A rotation about an axis other than zero keeps distances. -/
theorem contraction_rotate {k : Vec3 ℝ} (hk : k ≠ .zero) (angle : ℝ) :
    Contraction fun p => Intrinsic.rotate p k angle := by
  intro p q
  have hunit : k.normalize.dot k.normalize = 1 := by
    rw [← Vec3.length_sq, Vec3.length_normalize hk, one_pow]
  apply Vec3.length_le_of_dot_le
  apply le_of_eq
  apply dot_rotation hunit (Real.cos_sq_add_sin_sq angle)
  show Intrinsic.rotate p k angle - Intrinsic.rotate q k angle = _
  rw [rotate_real, rotate_real]
  generalize k.normalize = n
  generalize Real.cos angle = c
  generalize Real.sin angle = s
  apply Vec3.ext_lanes
  · show c * p.x + s * (n.y * p.z - p.y * n.z) + (1 - c) * (n.dot p * n.x) -
        (c * q.x + s * (n.y * q.z - q.y * n.z) + (1 - c) * (n.dot q * n.x)) =
      c * (p.x - q.x) + s * (n.y * (p.z - q.z) - (p.y - q.y) * n.z) +
        (1 - c) * (n.dot (p - q) * n.x)
    rw [Vec3.dot_sub]
    ring
  · show c * p.y + s * (n.z * p.x - p.z * n.x) + (1 - c) * (n.dot p * n.y) -
        (c * q.y + s * (n.z * q.x - q.z * n.x) + (1 - c) * (n.dot q * n.y)) =
      c * (p.y - q.y) + s * (n.z * (p.x - q.x) - (p.z - q.z) * n.x) +
        (1 - c) * (n.dot (p - q) * n.y)
    rw [Vec3.dot_sub]
    ring
  · show c * p.z + s * (n.x * p.y - p.x * n.y) + (1 - c) * (n.dot p * n.z) -
        (c * q.z + s * (n.x * q.y - q.x * n.y) + (1 - c) * (n.dot q * n.z)) =
      c * (p.z - q.z) + s * (n.x * (p.y - q.y) - (p.x - q.x) * n.y) +
        (1 - c) * (n.dot (p - q) * n.z)
    rw [Vec3.dot_sub]
    ring

theorem Lipschitz.scaled (hd : Lipschitz d) {m : ℝ} (hm : 0 ≤ m)
    (hf : ∀ p q, m * (f p - f q).length ≤ (p - q).length) : Lipschitz fun p => d (f p) * m := by
  intro p q
  show |d (f p) * m - d (f q) * m| ≤ _
  calc |d (f p) * m - d (f q) * m| = m * |d (f p) - d (f q)| := by
        rw [← sub_mul, abs_mul, abs_of_nonneg hm, mul_comm]
    _ ≤ m * (f p - f q).length := mul_le_mul_of_nonneg_left (hd _ _) hm
    _ ≤ _ := hf p q

theorem Lipschitz.stretch (hd : Lipschitz d) {v : Vec3 ℝ} {m : ℝ} (hm : 0 < m) (hx : m ≤ v.x)
    (hy : m ≤ v.y) (hz : m ≤ v.z) : Lipschitz fun p => d (p / v) * m := by
  have hlane {a b r : ℝ} (hr : m ≤ r) : |m * (a / r - b / r)| ≤ |a - b| := by
    have hpos : 0 < r := hm.trans_le hr
    rw [← sub_div, ← mul_div_assoc, abs_div, abs_mul, abs_of_pos hm, abs_of_pos hpos,
      div_le_iff₀ hpos, mul_comm]
    exact mul_le_mul_of_nonneg_left hr (abs_nonneg _)
  apply hd.scaled hm.le
  intro p q
  have hscale := (p / v - q / v).length_scale m
  rw [abs_of_pos hm] at hscale
  rw [← hscale]
  apply Vec3.length_le_of_lanes
  · exact hlane hx
  · exact hlane hy
  · exact hlane hz

/-! ## The box -/

/-- The distance from the negative octant, with a negative sign inside. -/
noncomputable def octantDistance (v : Vec3 ℝ) : ℝ := Min.min v.greatest 0 + (v.max .zero).length

theorem greatest_real (v : Vec3 ℝ) : v.greatest = Max.max v.x (Max.max v.y v.z) := rfl

theorem max_zero_real (v : Vec3 ℝ) :
    v.max .zero = ⟨Max.max v.x 0, Max.max v.y 0, Max.max v.z 0⟩ := by
  rw [Vec3.zero_real]
  rfl

/-- A direction that points out of the negative octant. -/
structure Outward (n : Vec3 ℝ) : Prop where
  x : 0 ≤ n.x
  y : 0 ≤ n.y
  z : 0 ≤ n.z
  unit : n.length = 1

/-- No plane that touches the octant from outside is further away. -/
theorem Outward.dot_le {n : Vec3 ℝ} (hn : Outward n) (v : Vec3 ℝ) : n.dot v ≤ octantDistance v := by
  have hunit : n.x * n.x + n.y * n.y + n.z * n.z = 1 := by
    rw [← Vec3.dot_eq, ← Vec3.length_sq, hn.unit, one_pow]
  have hnx := hn.x
  have hny := hn.y
  have hnz := hn.z
  unfold octantDistance
  rcases le_total v.greatest 0 with hinside | houtside
  · have hx : v.x ≤ v.greatest := le_max_left _ _
    have hy : v.y ≤ v.greatest := (le_max_left _ _).trans (le_max_right v.x _)
    have hz : v.z ≤ v.greatest := (le_max_right _ _).trans (le_max_right v.x _)
    have hsum : 1 ≤ n.x + n.y + n.z := by
      nlinarith [mul_nonneg hnx hny, mul_nonneg hny hnz, mul_nonneg hnx hnz]
    calc n.dot v ≤ n.x * v.greatest + n.y * v.greatest + n.z * v.greatest := by
          rw [Vec3.dot_eq]
          gcongr
      _ = (n.x + n.y + n.z) * v.greatest := by ring
      _ ≤ v.greatest := by nlinarith
      _ ≤ Min.min v.greatest 0 + (v.max .zero).length := by
          rw [min_eq_left hinside]
          linarith [(v.max .zero).length_nonneg]
  · rw [min_eq_right houtside, zero_add]
    calc n.dot v ≤ n.dot (v.max .zero) := by
          rw [max_zero_real, Vec3.dot_eq, Vec3.dot_eq]
          gcongr <;> exact le_max_left _ _
      _ ≤ |n.dot (v.max .zero)| := le_abs_self _
      _ ≤ n.length * (v.max .zero).length := Vec3.abs_dot_le _ _
      _ = _ := by rw [hn.unit, one_mul]

/-- The plane of the face that is nearest from inside. -/
theorem exists_outward_face (v : Vec3 ℝ) : ∃ n, Outward n ∧ n.dot v = v.greatest := by
  rw [greatest_real]
  rcases max_choice v.x (Max.max v.y v.z) with hmax | hmax
  · rw [hmax]
    refine ⟨⟨1, 0, 0⟩, ⟨zero_le_one, le_rfl, le_rfl, ?_⟩, ?_⟩
    · show Real.sqrt (1 * 1 + 0 * 0 + 0 * 0) = 1
      norm_num
    · show 1 * v.x + 0 * v.y + 0 * v.z = v.x
      ring
  rcases max_choice v.y v.z with hmax' | hmax'
  · rw [hmax, hmax']
    refine ⟨⟨0, 1, 0⟩, ⟨le_rfl, zero_le_one, le_rfl, ?_⟩, ?_⟩
    · show Real.sqrt (0 * 0 + 1 * 1 + 0 * 0) = 1
      norm_num
    · show 0 * v.x + 1 * v.y + 0 * v.z = v.y
      ring
  · rw [hmax, hmax']
    refine ⟨⟨0, 0, 1⟩, ⟨le_rfl, le_rfl, zero_le_one, ?_⟩, ?_⟩
    · show Real.sqrt (0 * 0 + 0 * 0 + 1 * 1) = 1
      norm_num
    · show 0 * v.x + 0 * v.y + 1 * v.z = v.z
      ring

/-- The plane across the way from outside to the nearest point of the octant. -/
theorem exists_outward_across {v : Vec3 ℝ} (hv : 0 < v.greatest) :
    ∃ n, Outward n ∧ n.dot v = (v.max .zero).length := by
  rw [greatest_real] at hv
  rw [max_zero_real]
  generalize hw : (⟨Max.max v.x 0, Max.max v.y 0, Max.max v.z 0⟩ : Vec3 ℝ) = w
  have hne : w ≠ .zero := by
    intro heq
    rw [heq, Vec3.zero_real] at hw
    injection hw with hx hy hz
    rw [max_eq_right_iff] at hx hy hz
    exact absurd (max_le hx (max_le hy hz)) (not_le.2 hv)
  have hpos : 0 < w.length := lt_of_le_of_ne w.length_nonneg (Vec3.length_ne_zero hne).symm
  have hover : 0 ≤ 1 / w.length := (one_div_pos.2 hpos).le
  have hlane (a : ℝ) : Max.max a 0 * a = Max.max a 0 * Max.max a 0 := by
    rcases le_total a 0 with ha | ha
    · rw [max_eq_right ha, zero_mul, zero_mul]
    · rw [max_eq_left ha]
  have hdot : w.dot v = w.length ^ 2 := by
    rw [Vec3.length_sq, ← hw, Vec3.dot_eq, Vec3.dot_eq]
    dsimp only
    rw [hlane, hlane, hlane]
  refine ⟨w.normalize, ⟨?_, ?_, ?_, Vec3.length_normalize hne⟩, ?_⟩
  · rw [Vec3.normalize_real, ← hw]
    exact mul_nonneg (hw ▸ hover) (le_max_right _ _)
  · rw [Vec3.normalize_real, ← hw]
    exact mul_nonneg (hw ▸ hover) (le_max_right _ _)
  · rw [Vec3.normalize_real, ← hw]
    exact mul_nonneg (hw ▸ hover) (le_max_right _ _)
  · rw [Vec3.normalize_real, Vec3.scale_dot, hdot, sq, ← mul_assoc, one_div_mul_cancel hpos.ne',
      one_mul]

theorem exists_outward (v : Vec3 ℝ) : ∃ n, Outward n ∧ n.dot v = octantDistance v := by
  unfold octantDistance
  rcases le_or_gt v.greatest 0 with hinside | houtside
  · obtain ⟨n, hn, hdot⟩ := exists_outward_face v
    refine ⟨n, hn, ?_⟩
    rw [greatest_real] at hinside
    have hx : v.x ≤ 0 := (le_max_left _ _).trans hinside
    have hy : v.y ≤ 0 := ((le_max_left _ _).trans (le_max_right v.x _)).trans hinside
    have hz : v.z ≤ 0 := ((le_max_right _ _).trans (le_max_right v.x _)).trans hinside
    have hzero : Vec3.length (⟨0, 0, 0⟩ : Vec3 ℝ) = 0 := by
      show Real.sqrt (0 * 0 + 0 * 0 + 0 * 0) = 0
      norm_num
    rw [hdot, greatest_real, min_eq_left hinside, max_zero_real, max_eq_right hx, max_eq_right hy,
      max_eq_right hz, hzero, add_zero]
  · obtain ⟨n, hn, hdot⟩ := exists_outward_across houtside
    refine ⟨n, hn, ?_⟩
    rw [hdot, min_eq_right houtside.le, zero_add]

/-- The greatest of the planes that touch the octant is Lipschitz, as each of them is. -/
theorem lipschitz_octantDistance : Lipschitz octantDistance := by
  apply lipschitz_of_sub_le
  intro p q
  -- The plane that is furthest from one point is at most as far from the other as the octant.
  obtain ⟨n, hn, hp⟩ := exists_outward p
  have hq := hn.dot_le q
  have hdot := (abs_le.1 (lipschitz_dot hn.unit p q)).2
  rw [Vec3.dot_comm] at hp hq
  linarith

/-! ## Blends -/

/-- The weighted mean of two numbers, less a bump between them. -/
def blended (k a b h : ℝ) : ℝ := b * (1 - h) + a * h - k * h * (1 - h)

/-- The weight at which the blend is least. -/
noncomputable def leastWeight (k a b : ℝ) : ℝ :=
  Min.min (Max.max (0.5 + 0.5 * ((b - a) / k)) 0) 1

theorem leastWeight_eq (k a b : ℝ) :
    leastWeight k a b = Min.min (Max.max (1 / 2 + 1 / 2 * ((b - a) / k)) 0) 1 := by
  rw [leastWeight, real_half]

theorem smoothMin_x (k a b : Vec3 ℝ) :
    (smoothMin k a b).x = blended k.x a.x b.x (leastWeight k.x a.x b.x) := by
  unfold smoothMin
  rw [Vec3.zero_real, Vec3.one_real]
  rfl

theorem smoothMax_x (k a b : Vec3 ℝ) :
    (smoothMax k a b).x = -blended k.x (-a.x) (-b.x) (leastWeight k.x (-a.x) (-b.x)) := by
  have hweight : leastWeight k.x (-a.x) (-b.x) =
      Min.min (Max.max (1 / 2 - 1 / 2 * ((b.x - a.x) / k.x)) 0) 1 := by
    rw [leastWeight_eq]
    congr 2
    ring
  rw [hweight]
  unfold smoothMax blended
  rw [Vec3.zero_real, Vec3.one_real, real_half]
  generalize hh : Min.min (Max.max (1 / 2 - 1 / 2 * ((b.x - a.x) / k.x)) 0) 1 = h
  calc _ = b.x * (1 - h) + a.x * h + k.x * h * (1 - h) := by
        rw [← hh]
        rfl
    _ = _ := by ring

/-- The blend is least at its weight, among all that mix the two numbers. -/
theorem blended_least {k : ℝ} (hk : 0 < k) (a b : ℝ) :
    (0 ≤ leastWeight k a b ∧ leastWeight k a b ≤ 1) ∧
      ∀ h, 0 ≤ h → h ≤ 1 → blended k a b (leastWeight k a b) ≤ blended k a b h := by
  rw [leastWeight_eq]
  generalize ht : 1 / 2 + 1 / 2 * ((b - a) / k) = t
  have htwice : 2 * k * t = k + b - a := by
    rw [← ht]
    field_simp
    ring
  -- Up to a constant, the blend is the square of the distance from `t`.
  have hsquare (h : ℝ) : blended k a b h = k * (h - t) ^ 2 + (b - k * t ^ 2) := by
    unfold blended
    linear_combination h * htwice
  constructor
  · exact ⟨le_min (le_max_right _ _) zero_le_one, min_le_right _ _⟩
  · intro h hzero hone
    rw [hsquare, hsquare]
    gcongr k * ?_ + _
    apply sq_le_sq.2
    rcases le_total t 0 with hlow | hlow
    · rw [max_eq_right hlow, min_eq_left zero_le_one, abs_of_nonneg (by linarith),
        abs_of_nonneg (by linarith)]
      linarith
    · rw [max_eq_left hlow]
      rcases le_total t 1 with hhigh | hhigh
      · rw [min_eq_left hhigh, sub_self, abs_zero]
        exact abs_nonneg _
      · rw [min_eq_right hhigh, abs_of_nonpos (by linarith), abs_of_nonpos (by linarith)]
        linarith

/-- The least of the mixtures of two distances is Lipschitz, as each of them is. -/
theorem Lipschitz.blend {k : ℝ} (hk : 0 < k) (hd : Lipschitz d) (he : Lipschitz e) :
    Lipschitz fun p => blended k (d p) (e p) (leastWeight k (d p) (e p)) := by
  apply lipschitz_of_sub_le
  intro p q
  -- The weight of one point is one of those that the other could take.
  generalize hw : leastWeight k (d q) (e q) = w
  have hweight := (blended_least hk (d q) (e q)).1
  rw [hw] at hweight
  have hp := (blended_least hk (d p) (e p)).2 w hweight.1 hweight.2
  have hdp := (abs_le.1 (hd p q)).2
  have hep := (abs_le.1 (he p q)).2
  calc blended k (d p) (e p) (leastWeight k (d p) (e p)) - blended k (d q) (e q) w
    _ ≤ blended k (d p) (e p) w - blended k (d q) (e q) w := sub_le_sub_right hp _
    _ = (1 - w) * (e p - e q) + w * (d p - d q) := by
      unfold blended
      ring
    _ ≤ (1 - w) * (p - q).length + w * (p - q).length := by
      apply add_le_add
      · exact mul_le_mul_of_nonneg_left hep (sub_nonneg.2 hweight.2)
      · exact mul_le_mul_of_nonneg_left hdp hweight.1
    _ = (p - q).length := by ring

end

end SphereTracer
