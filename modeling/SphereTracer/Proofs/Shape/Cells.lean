import Mathlib
import SphereTracer.Proofs.Numbers.Lanes
import SphereTracer.Proofs.Shape.Computed

/-!
# Cells of repetitions

A repetition shifts a point by half a period, takes the remainder and shifts back; a modulated one
divides, rounds down and subtracts the centre of the cell.  In exact arithmetic both end at the same
point of the same half-open cell.
-/

namespace SphereTracer

variable {period p : Vec3 ℝ} {axis : Axis}

/-! ## Lanes of a cell -/

theorem lane_cellIndex (h : axis.lane period ≠ 0) :
    axis.lane (cellIndex period p) = ⌊axis.lane p / axis.lane period + 1 / 2⌋ := by
  have hshift : (axis.lane p + axis.lane period * (1 / 2)) / axis.lane period =
      axis.lane p / axis.lane period + 1 / 2 := by
    field_simp
  unfold cellIndex
  simp only [Axis.lane_floor, Axis.lane_div, Axis.lane_add, Axis.lane_mul, Axis.lane_splat, real_half,
    hshift]

theorem lane_cellPoint : axis.lane (cellPoint period p) =
    axis.lane p - axis.lane (cellIndex period p) * axis.lane period := by
  rw [cellPoint, Axis.lane_sub, Axis.lane_mul]

/-- Half a period is taken off before the remainder, and once more after it; together they are one
whole cell. -/
theorem lane_repeatPoint (h : axis.lane period ≠ 0) :
    axis.lane (repeatPoint period p) = axis.lane (cellPoint period p) := by
  have hshift : (axis.lane p - axis.lane period * (1 / 2)) / axis.lane period =
      axis.lane p / axis.lane period + 1 / 2 - 1 := by
    field_simp
    ring
  rw [lane_cellPoint, lane_cellIndex h]
  simp only [repeatPoint, Axis.lane_sub, Axis.lane_mul, Axis.lane_floor, Axis.lane_div,
    Axis.lane_splat, real_half, hshift, Int.floor_sub_one]
  push_cast
  ring

theorem repeatPoint_eq_cellPoint (h : ∀ axis : Axis, axis.lane period ≠ 0) :
    repeatPoint period p = cellPoint period p :=
  Vec3.ext_axis fun axis => lane_repeatPoint (h axis)

/-- A cell reaches half a period from its centre, and its upper border is in the next. -/
theorem lane_cellIndex_eq_iff (h : 0 < axis.lane period) (k : ℤ) :
    axis.lane (cellIndex period p) = k ↔
      k * axis.lane period - axis.lane period / 2 ≤ axis.lane p ∧
        axis.lane p < k * axis.lane period + axis.lane period / 2 := by
  rw [lane_cellIndex h.ne', Int.cast_inj, Int.floor_eq_iff]
  have hlow : (k : ℝ) ≤ axis.lane p / axis.lane period + 1 / 2 ↔
      k * axis.lane period - axis.lane period / 2 ≤ axis.lane p := by
    rw [← sub_le_iff_le_add, le_div_iff₀ h]
    constructor <;> intro hle <;> linarith
  have hhigh : axis.lane p / axis.lane period + 1 / 2 < (k : ℝ) + 1 ↔
      axis.lane p < k * axis.lane period + axis.lane period / 2 := by
    rw [← lt_sub_iff_add_lt, div_lt_iff₀ h]
    constructor <;> intro hlt <;> linarith
  rw [hlow, hhigh]

theorem lane_cellPoint_mem (h : 0 < axis.lane period) :
    -(axis.lane period / 2) ≤ axis.lane (cellPoint period p) ∧
      axis.lane (cellPoint period p) < axis.lane period / 2 := by
  have hcell := (lane_cellIndex_eq_iff h _).1 (lane_cellIndex (p := p) h.ne')
  rw [lane_cellPoint, lane_cellIndex h.ne']
  constructor <;> linarith

/-- Whole periods change the cell and not the place in it. -/
theorem cellPoint_add {p' : Vec3 ℝ} (h : ∀ axis : Axis, axis.lane period ≠ 0) (n : Axis → ℤ)
    (hp : ∀ axis, axis.lane p' = axis.lane p + n axis * axis.lane period) :
    cellPoint period p' = cellPoint period p := by
  refine Vec3.ext_axis fun axis => ?_
  have hshift : (axis.lane p + n axis * axis.lane period) / axis.lane period + 1 / 2 =
      axis.lane p / axis.lane period + 1 / 2 + n axis := by
    rw [add_div, mul_div_cancel_right₀ _ (h axis)]
    ring
  rw [lane_cellPoint, lane_cellPoint, lane_cellIndex (h axis), lane_cellIndex (h axis), hp, hshift,
    Int.floor_add_intCast]
  push_cast
  ring

namespace Shape

/-! ## Repetitions -/

variable (bindings : Bindings ℝ) (site : Site (Vec3 ℝ)) (period buffer : Term Word) (a : Shape Word)

theorem computed_repeat : (Shape.repeat period a).computed bindings site =
    a.computed bindings
      (site.moved (repeatPoint (period.computed bindings site) site.point)) := by
  unfold repeatPoint
  rw [← real_ofWord_half]
  rfl

theorem computed_modulate : (modulate period buffer a).computed bindings site =
    Vec3.min
      (.splat (cellRoom (period.computed bindings site) (buffer.computed bindings site) site.point))
      (a.computed bindings ⟨cellPoint (period.computed bindings site) site.point,
        cellIndex (period.computed bindings site) site.point⟩) := by
  unfold cellRoom cellPoint cellIndex
  rw [← real_ofWord_half]
  rfl

/-- A repetition asks its shape where a modulated one asks the shape of the cell: at the point less the
period times the cell.  The cell is an integer in every lane; for a positive period it is centred on
its multiple of the period, and the point asked lies within half a period of zero, the lower border
included.  So moving by whole periods changes nothing that a repetition can see, and a modulated
repetition of a shape that does not look at the cell is the repetition of that shape, limited by the
room in the cell. -/
theorem repetitions_agree :
    (∀ (bindings : Bindings ℝ) (site : Site (Vec3 ℝ)) (period buffer : Term Word) (a : Shape Word),
      let size := period.computed bindings site
      let cell := cellIndex size site.point
      let q := cellPoint size site.point
      let room := (buffer.computed bindings site + size * .splat (1 / 2) - q.abs).least
      (∀ axis : Axis, axis.lane size ≠ 0) →
        (∀ axis : Axis,
          axis.lane cell = ⌊axis.lane site.point / axis.lane size + 1 / 2⌋ ∧
          axis.lane q = axis.lane site.point -
            axis.lane size * ⌊axis.lane site.point / axis.lane size + 1 / 2⌋ ∧
          (0 < axis.lane size →
            -(axis.lane size / 2) ≤ axis.lane q ∧ axis.lane q < axis.lane size / 2 ∧
            ∀ k : ℤ, axis.lane cell = k ↔
              k * axis.lane size - axis.lane size / 2 ≤ axis.lane site.point ∧
                axis.lane site.point < k * axis.lane size + axis.lane size / 2)) ∧
        (Shape.repeat period a).computed bindings site = a.computed bindings (site.moved q) ∧
        (modulate period buffer a).computed bindings site =
          Vec3.min (.splat room) (a.computed bindings ⟨q, cell⟩) ∧
        ((∀ p c c', a.computed bindings ⟨p, c⟩ = a.computed bindings ⟨p, c'⟩) →
          (modulate period buffer a).computed bindings site =
            Vec3.min (.splat room) ((Shape.repeat period a).computed bindings site))) ∧
    (∀ (bindings bindings' : Bindings ℝ) (site site' : Site (Vec3 ℝ)) (period : Term Word)
      (a : Shape Word) (n : Axis → ℤ),
      let size := period.computed bindings site
      (∀ axis : Axis, axis.lane size ≠ 0) → period.computed bindings' site' = size →
      (∀ axis, axis.lane site'.point = axis.lane site.point + n axis * axis.lane size) →
      (∀ p, a.computed bindings' ⟨p, site'.cell⟩ = a.computed bindings ⟨p, site.cell⟩) →
        (Shape.repeat period a).computed bindings' site' =
          (Shape.repeat period a).computed bindings site) ∧
    ∀ (bindings : Bindings ℝ) (shape : Shape Word), shape.Closed →
      shape.Compiles bindings (shape.computed bindings) := by
  refine ⟨?_, ?_, fun bindings shape hclosed => compiles_computed hclosed bindings⟩
  · intro bindings site period buffer a size cell q room hsize
    have hrepeat : (Shape.repeat period a).computed bindings site =
        a.computed bindings (site.moved q) := by
      rw [computed_repeat, repeatPoint_eq_cellPoint hsize]
    have hroom : cellRoom size (buffer.computed bindings site) site.point = room := by
      rw [cellRoom, real_half]
    have hmodulate : (modulate period buffer a).computed bindings site =
        Vec3.min (.splat room) (a.computed bindings ⟨q, cell⟩) := by
      rw [computed_modulate, hroom]
    refine ⟨fun axis => ⟨lane_cellIndex (hsize axis), ?_, fun hpos => ?_⟩, hrepeat, hmodulate,
      fun hignores => ?_⟩
    · rw [lane_cellPoint, lane_cellIndex (hsize axis), mul_comm]
    · exact ⟨(lane_cellPoint_mem hpos).1, (lane_cellPoint_mem hpos).2, lane_cellIndex_eq_iff hpos⟩
    · rw [hmodulate, hrepeat, hignores q cell site.cell]
      rfl
  · intro bindings bindings' site site' period a n size hsize hperiod hpoint hsame
    rw [computed_repeat, computed_repeat, hperiod, repeatPoint_eq_cellPoint hsize,
      repeatPoint_eq_cellPoint hsize, cellPoint_add hsize n hpoint]
    exact hsame _

/-- On the border of two cells, where the upper one is asked, and one period further on. -/
theorem repetitions_agree_balls :
    let bindings : Bindings ℝ := .atPoint .zero
    let site : Site (Vec3 ℝ) := .outer ⟨3, 0, -1⟩
    let site' : Site (Vec3 ℝ) := .outer ⟨5, 0, -1⟩
    let size := (2.0 : Term Word).computed bindings site
    let balls := Shape.repeat 2.0 (sphere 0.5)
    (∀ axis : Axis, axis.lane size ≠ 0) ∧ 0 < size.x ∧ (cellIndex size site.point).x = (2 : ℤ) ∧
      balls.computed bindings site =
        (sphere 0.5).computed bindings (site.moved (cellPoint size site.point)) ∧
      (∃ room, (modulate 2.0 0.25 (sphere 0.5)).computed bindings site =
        Vec3.min (.splat room) (balls.computed bindings site)) ∧
      balls.computed bindings site' = balls.computed bindings site ∧
      balls.Closed ∧ balls.Compiles bindings (balls.computed bindings) := by
  intro bindings site site' size balls
  have htwo : (Scalar.ofWord (2.0 : Word) : ℝ) = 2 := real_ofWord_two.trans real_two
  have hlane (axis : Axis) : axis.lane size = 2 := by
    rw [← htwo]
    cases axis <;> rfl
  have hsize (axis : Axis) : axis.lane size ≠ 0 := by
    rw [hlane]
    norm_num
  have hpos : 0 < Axis.lane .x size := by
    rw [hlane]
    norm_num
  have hclosed : balls.Closed := ⟨trivial, trivial⟩
  obtain ⟨hcells, hperiodic, hcompiles⟩ := repetitions_agree
  obtain ⟨hlanes, hrepeat, -, hmodulate⟩ := hcells bindings site 2.0 0.25 (sphere 0.5) hsize
  have hcell : Axis.lane .x (cellIndex size site.point) = (2 : ℤ) := by
    obtain ⟨-, -, hcentred⟩ := (hlanes .x).2.2 hpos
    rw [hcentred 2, hlane]
    show (2 : ℤ) * 2 - 2 / 2 ≤ (3 : ℝ) ∧ (3 : ℝ) < (2 : ℤ) * 2 + 2 / 2
    norm_num
  have hshift : ∀ axis : Axis, axis.lane site'.point =
      axis.lane site.point + ((match axis with | .x => 1 | _ => 0 : ℤ) : ℝ) * axis.lane size := by
    intro axis
    rw [hlane]
    cases axis
    · show (5 : ℝ) = 3 + (1 : ℤ) * 2
      norm_num
    · show (0 : ℝ) = 0 + (0 : ℤ) * 2
      norm_num
    · show (-1 : ℝ) = -1 + (0 : ℤ) * 2
      norm_num
  exact ⟨hsize, hpos, hcell, hrepeat, ⟨_, hmodulate fun _ _ _ => rfl⟩,
    hperiodic bindings bindings site site' 2.0 (sphere 0.5) _ hsize rfl hshift fun _ => rfl, hclosed,
    hcompiles bindings balls hclosed⟩

end Shape

end SphereTracer
