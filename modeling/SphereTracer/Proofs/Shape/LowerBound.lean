import Mathlib
import SphereTracer.Shape.Library
import SphereTracer.Proofs.Shape.Compiled
import SphereTracer.Proofs.Shape.Lipschitz

/-!
# Shapes whose distances are lower bounds

The shapes and combinators whose distance, over the real numbers, is never more than the distance to
the surface.  Their parameters are constants: unit vectors for the normals of planes and mirrors,
positive factors and blends, and an axis of rotation other than zero.
-/

namespace SphereTracer

variable {κ : Type} {number : κ → ℝ}

/-- The term has one value, whatever the variables, the point and the cell are. -/
def Term.IsConstant (number : κ → ℝ) (t : Term κ) (v : Vec3 ℝ) : Prop :=
  ∀ (bindings : Bindings ℝ) (site : Site (Vec3 ℝ)), t.value number bindings site = v

theorem Term.isConstant_constant (c : Vec3 κ) :
    (Term.constant c).IsConstant number (c.map number) := fun _ _ => rfl

namespace Shape

/-- Shapes of constant parameters, each of them in its range. -/
inductive Proper (number : κ → ℝ) : Shape κ → Prop
  | field {t : Term κ} {v : Vec3 ℝ} (ht : t.IsConstant number v) : Proper number (field t)
  | sphere {radius : Term κ} {r : Vec3 ℝ} (hr : radius.IsConstant number r) :
      Proper number (sphere radius)
  | plane {normal offset : Term κ} {n o : Vec3 ℝ} (hn : normal.IsConstant number n)
      (ho : offset.IsConstant number o) (hunit : n.length = 1) : Proper number (plane normal offset)
  | cuboid {half : Term κ} {h : Vec3 ℝ} (hh : half.IsConstant number h) : Proper number (cuboid half)
  | cylinder {radius : Term κ} {r : Vec3 ℝ} (hr : radius.IsConstant number r) :
      Proper number (cylinder radius)
  | torus {major minor : Term κ} {r s : Vec3 ℝ} (hr : major.IsConstant number r)
      (hs : minor.IsConstant number s) : Proper number (torus major minor)
  | union {a b : Shape κ} (ha : Proper number a) (hb : Proper number b) :
      Proper number (union a b)
  | intersection {a b : Shape κ} (ha : Proper number a) (hb : Proper number b) :
      Proper number (intersection a b)
  | difference {a b : Shape κ} (ha : Proper number a) (hb : Proper number b) :
      Proper number (difference a b)
  | smoothUnion {size : Term κ} {k : Vec3 ℝ} {a b : Shape κ} (hk : size.IsConstant number k)
      (hpos : 0 < k.x) (ha : Proper number a) (hb : Proper number b) :
      Proper number (smoothUnion size a b)
  | smoothIntersection {size : Term κ} {k : Vec3 ℝ} {a b : Shape κ} (hk : size.IsConstant number k)
      (hpos : 0 < k.x) (ha : Proper number a) (hb : Proper number b) :
      Proper number (smoothIntersection size a b)
  | smoothDifference {size : Term κ} {k : Vec3 ℝ} {a b : Shape κ} (hk : size.IsConstant number k)
      (hpos : 0 < k.x) (ha : Proper number a) (hb : Proper number b) :
      Proper number (smoothDifference size a b)
  | translate {offset : Term κ} {o : Vec3 ℝ} {a : Shape κ} (ho : offset.IsConstant number o)
      (ha : Proper number a) : Proper number (translate offset a)
  | scale {factor : Term κ} {f : Vec3 ℝ} {a : Shape κ} (hf : factor.IsConstant number f)
      (hpos : 0 < f.x) (ha : Proper number a) : Proper number (scale factor a)
  | stretch {factor : Term κ} {f : Vec3 ℝ} {a : Shape κ} (hf : factor.IsConstant number f)
      (hx : 0 < f.x) (hy : 0 < f.y) (hz : 0 < f.z) (ha : Proper number a) :
      Proper number (stretch factor a)
  | expand {amount : Term κ} {k : Vec3 ℝ} {a : Shape κ} (hk : amount.IsConstant number k)
      (ha : Proper number a) : Proper number (expand amount a)
  | clampPositive {a : Shape κ} (ha : Proper number a) : Proper number (clampPositive a)
  | mirror {normal : Term κ} {n : Vec3 ℝ} {a : Shape κ} (hn : normal.IsConstant number n)
      (hunit : n.length = 1) (ha : Proper number a) : Proper number (mirror normal a)
  | rotate {axis angle : Term κ} {k t : Vec3 ℝ} {a : Shape κ} (hk : axis.IsConstant number k)
      (ht : angle.IsConstant number t) (hne : k ≠ .zero) (ha : Proper number a) :
      Proper number (rotate axis angle a)

/-- The distance that a shape means at a point, in a cell. -/
noncomputable def realDistance (number : κ → ℝ) (bindings : Bindings ℝ) (cell : Vec3 ℝ)
    (shape : Shape κ) (p : Vec3 ℝ) : ℝ := (shape.value number bindings ⟨p, cell⟩).x

section
variable {a b : Shape κ} {bindings : Bindings ℝ} {cell : Vec3 ℝ}

theorem lipschitz_field {t : Term κ} {v : Vec3 ℝ} (ht : t.IsConstant number v) :
    Lipschitz ((field t).realDistance number bindings cell) := by
  have hvalue : (field t).realDistance number bindings cell = fun _ => v.x := by
    ext p
    show (t.value number bindings ⟨p, cell⟩).x = v.x
    rw [ht]
  rw [hvalue]
  exact lipschitz_const v.x

theorem lipschitz_sphere {radius : Term κ} {r : Vec3 ℝ} (hr : radius.IsConstant number r) :
    Lipschitz ((sphere radius).realDistance number bindings cell) := by
  have hvalue : (sphere radius).realDistance number bindings cell = fun p => p.length - r.x := by
    ext p
    show p.length - (radius.value number bindings ⟨p, cell⟩).x = p.length - r.x
    rw [hr]
  rw [hvalue]
  exact lipschitz_length.sub_const r.x

theorem lipschitz_plane {normal offset : Term κ} {n o : Vec3 ℝ} (hn : normal.IsConstant number n)
    (ho : offset.IsConstant number o) (hunit : n.length = 1) :
    Lipschitz ((plane normal offset).realDistance number bindings cell) := by
  have hvalue : (plane normal offset).realDistance number bindings cell =
      fun p => p.dot n + o.x := by
    ext p
    show p.dot (normal.value number bindings ⟨p, cell⟩) +
      (offset.value number bindings ⟨p, cell⟩).x = p.dot n + o.x
    rw [hn, ho]
  rw [hvalue]
  exact (lipschitz_dot hunit).add_const o.x

theorem lipschitz_cuboid {half : Term κ} {h : Vec3 ℝ} (hh : half.IsConstant number h) :
    Lipschitz ((cuboid half).realDistance number bindings cell) := by
  have hvalue : (cuboid half).realDistance number bindings cell =
      fun p => octantDistance (p.abs - h) := by
    ext p
    unfold realDistance Shape.value octantDistance
    rw [hh, Vec3.zero_real]
    rfl
  rw [hvalue]
  exact lipschitz_octantDistance.comp ((contraction_translate h).comp contraction_abs)

theorem lipschitz_cylinder {radius : Term κ} {r : Vec3 ℝ} (hr : radius.IsConstant number r) :
    Lipschitz ((cylinder radius).realDistance number bindings cell) := by
  have hvalue : (cylinder radius).realDistance number bindings cell =
      fun p => Vec3.length ⟨p.x, p.z, 0⟩ - r.x := by
    ext p
    unfold realDistance Shape.value
    rw [hr, real_zero]
    rfl
  rw [hvalue]
  exact (lipschitz_length.comp contraction_planar).sub_const r.x

theorem lipschitz_torus {major minor : Term κ} {r s : Vec3 ℝ} (hr : major.IsConstant number r)
    (hs : minor.IsConstant number s) :
    Lipschitz ((torus major minor).realDistance number bindings cell) := by
  have hvalue : (torus major minor).realDistance number bindings cell =
      fun p => Vec3.length ⟨Vec3.length ⟨p.x, p.z, 0⟩ - r.x, p.y, 0⟩ - s.x := by
    ext p
    unfold realDistance Shape.value
    rw [hr, hs, real_zero]
    rfl
  rw [hvalue]
  exact (lipschitz_length.comp (contraction_ring r.x)).sub_const s.x

theorem lipschitz_smoothUnion {size : Term κ} {k : Vec3 ℝ} (hk : size.IsConstant number k)
    (hpos : 0 < k.x) (ha : Lipschitz (a.realDistance number bindings cell))
    (hb : Lipschitz (b.realDistance number bindings cell)) :
    Lipschitz ((smoothUnion size a b).realDistance number bindings cell) := by
  have hvalue : (smoothUnion size a b).realDistance number bindings cell = fun p =>
      blended k.x (a.realDistance number bindings cell p) (b.realDistance number bindings cell p)
        (leastWeight k.x (a.realDistance number bindings cell p)
          (b.realDistance number bindings cell p)) := by
    ext p
    show (smoothMin (size.value number bindings ⟨p, cell⟩) (a.value number bindings ⟨p, cell⟩)
      (b.value number bindings ⟨p, cell⟩)).x = _
    rw [smoothMin_x, hk]
    rfl
  rw [hvalue]
  exact ha.blend hpos hb

theorem lipschitz_smoothIntersection {size : Term κ} {k : Vec3 ℝ} (hk : size.IsConstant number k)
    (hpos : 0 < k.x) (ha : Lipschitz (a.realDistance number bindings cell))
    (hb : Lipschitz (b.realDistance number bindings cell)) :
    Lipschitz ((smoothIntersection size a b).realDistance number bindings cell) := by
  have hvalue : (smoothIntersection size a b).realDistance number bindings cell = fun p =>
      -blended k.x (-a.realDistance number bindings cell p) (-b.realDistance number bindings cell p)
        (leastWeight k.x (-a.realDistance number bindings cell p)
          (-b.realDistance number bindings cell p)) := by
    ext p
    show (smoothMax (size.value number bindings ⟨p, cell⟩) (a.value number bindings ⟨p, cell⟩)
      (b.value number bindings ⟨p, cell⟩)).x = _
    rw [smoothMax_x, hk]
    rfl
  rw [hvalue]
  exact (ha.neg.blend hpos hb.neg).neg

theorem lipschitz_smoothDifference {size : Term κ} {k : Vec3 ℝ} (hk : size.IsConstant number k)
    (hpos : 0 < k.x) (ha : Lipschitz (a.realDistance number bindings cell))
    (hb : Lipschitz (b.realDistance number bindings cell)) :
    Lipschitz ((smoothDifference size a b).realDistance number bindings cell) := by
  have hvalue : (smoothDifference size a b).realDistance number bindings cell = fun p =>
      -blended k.x (-a.realDistance number bindings cell p)
        (- -b.realDistance number bindings cell p)
        (leastWeight k.x (-a.realDistance number bindings cell p)
          (- -b.realDistance number bindings cell p)) := by
    ext p
    show (smoothMax (size.value number bindings ⟨p, cell⟩) (a.value number bindings ⟨p, cell⟩)
      (-b.value number bindings ⟨p, cell⟩)).x = _
    rw [smoothMax_x, hk]
    rfl
  rw [hvalue]
  exact (ha.neg.blend hpos hb.neg.neg).neg

theorem lipschitz_translate {offset : Term κ} {o : Vec3 ℝ} (ho : offset.IsConstant number o)
    (ha : Lipschitz (a.realDistance number bindings cell)) :
    Lipschitz ((translate offset a).realDistance number bindings cell) := by
  have hvalue : (translate offset a).realDistance number bindings cell =
      fun p => a.realDistance number bindings cell (p - o) := by
    ext p
    show (a.value number bindings ⟨p - offset.value number bindings ⟨p, cell⟩, cell⟩).x = _
    rw [ho]
    rfl
  rw [hvalue]
  exact ha.comp (contraction_translate o)

theorem lipschitz_scale {factor : Term κ} {f : Vec3 ℝ} (hf : factor.IsConstant number f)
    (hpos : 0 < f.x) (ha : Lipschitz (a.realDistance number bindings cell)) :
    Lipschitz ((scale factor a).realDistance number bindings cell) := by
  have hvalue : (scale factor a).realDistance number bindings cell =
      fun p => a.realDistance number bindings cell (p / .splat f.x) * f.x := by
    ext p
    show (a.value number bindings ⟨p / .splat (factor.value number bindings ⟨p, cell⟩).x, cell⟩).x *
      (factor.value number bindings ⟨p, cell⟩).x = _
    rw [hf]
    rfl
  rw [hvalue]
  exact ha.stretch hpos le_rfl le_rfl le_rfl

theorem lipschitz_stretch {factor : Term κ} {f : Vec3 ℝ} (hf : factor.IsConstant number f)
    (hx : 0 < f.x) (hy : 0 < f.y) (hz : 0 < f.z)
    (ha : Lipschitz (a.realDistance number bindings cell)) :
    Lipschitz ((stretch factor a).realDistance number bindings cell) := by
  have hvalue : (stretch factor a).realDistance number bindings cell =
      fun p => a.realDistance number bindings cell (p / f) * min f.x (min f.y f.z) := by
    ext p
    show (a.value number bindings ⟨p / factor.value number bindings ⟨p, cell⟩, cell⟩).x *
      (factor.value number bindings ⟨p, cell⟩).least = _
    rw [hf]
    rfl
  rw [hvalue]
  apply ha.stretch (lt_min hx (lt_min hy hz))
  · exact min_le_left _ _
  · exact (min_le_right _ _).trans (min_le_left _ _)
  · exact (min_le_right _ _).trans (min_le_right _ _)

theorem lipschitz_expand {amount : Term κ} {k : Vec3 ℝ} (hk : amount.IsConstant number k)
    (ha : Lipschitz (a.realDistance number bindings cell)) :
    Lipschitz ((expand amount a).realDistance number bindings cell) := by
  have hvalue : (expand amount a).realDistance number bindings cell =
      fun p => a.realDistance number bindings cell p - k.x := by
    ext p
    show (a.value number bindings ⟨p, cell⟩).x - (amount.value number bindings ⟨p, cell⟩).x = _
    rw [hk]
    rfl
  rw [hvalue]
  exact ha.sub_const k.x

theorem lipschitz_mirror {normal : Term κ} {n : Vec3 ℝ} (hn : normal.IsConstant number n)
    (hunit : n.length = 1) (ha : Lipschitz (a.realDistance number bindings cell)) :
    Lipschitz ((mirror normal a).realDistance number bindings cell) := by
  have hvalue : (mirror normal a).realDistance number bindings cell =
      fun p => a.realDistance number bindings cell (mirrorPoint n p) := by
    ext p
    show (a.value number bindings
      ⟨mirrorPoint (normal.value number bindings ⟨p, cell⟩) p, cell⟩).x = _
    rw [hn]
    rfl
  rw [hvalue]
  exact ha.comp (contraction_mirror hunit)

theorem lipschitz_rotate {axis angle : Term κ} {k t : Vec3 ℝ} (hk : axis.IsConstant number k)
    (ht : angle.IsConstant number t) (hne : k ≠ .zero)
    (ha : Lipschitz (a.realDistance number bindings cell)) :
    Lipschitz ((rotate axis angle a).realDistance number bindings cell) := by
  have hvalue : (rotate axis angle a).realDistance number bindings cell =
      fun p => a.realDistance number bindings cell (Intrinsic.rotate p k (-t.x)) := by
    ext p
    show (a.value number bindings ⟨Intrinsic.rotate p (axis.value number bindings ⟨p, cell⟩)
      (-(angle.value number bindings ⟨p, cell⟩).x), cell⟩).x = _
    rw [hk, ht]
    rfl
  rw [hvalue]
  exact ha.comp (contraction_rotate hne (-t.x))

end

variable {shape : Shape κ}

theorem Proper.lipschitz (h : shape.Proper number) (bindings : Bindings ℝ) (cell : Vec3 ℝ) :
    Lipschitz (shape.realDistance number bindings cell) := by
  -- By induction on the way in which the shape is proper: solids have the bound of themselves, and
  -- each combinator keeps it.
  induction h with
  | field ht => exact lipschitz_field ht
  | sphere hr => exact lipschitz_sphere hr
  | plane hn ho hunit => exact lipschitz_plane hn ho hunit
  | cuboid hh => exact lipschitz_cuboid hh
  | cylinder hr => exact lipschitz_cylinder hr
  | torus hr hs => exact lipschitz_torus hr hs
  | union _ _ iha ihb => exact iha.min ihb
  | intersection _ _ iha ihb => exact iha.max ihb
  | difference _ _ iha ihb => exact iha.max ihb.neg
  | smoothUnion hk hpos _ _ iha ihb => exact lipschitz_smoothUnion hk hpos iha ihb
  | smoothIntersection hk hpos _ _ iha ihb => exact lipschitz_smoothIntersection hk hpos iha ihb
  | smoothDifference hk hpos _ _ iha ihb => exact lipschitz_smoothDifference hk hpos iha ihb
  | translate ho _ ih => exact lipschitz_translate ho ih
  | scale hf hpos _ ih => exact lipschitz_scale hf hpos ih
  | stretch hf hx hy hz _ ih => exact lipschitz_stretch hf hx hy hz ih
  | expand hk _ ih => exact lipschitz_expand hk ih
  | clampPositive _ ih => exact ih.comp contraction_clampPositive
  | mirror hn hunit _ ih => exact lipschitz_mirror hn hunit ih
  | rotate hk ht hne _ ih => exact lipschitz_rotate hk ht hne ih

/-- Only the point matters to a shape of constant parameters. -/
theorem Proper.value_eq (h : shape.Proper number) (bindings bindings' : Bindings ℝ)
    (p cell cell' : Vec3 ℝ) :
    shape.value number bindings ⟨p, cell⟩ = shape.value number bindings' ⟨p, cell'⟩ := by
  induction h generalizing p with
  | field ht => exact (ht _ _).trans (ht _ _).symm
  | sphere hr => simp only [value, hr _ _]
  | plane hn ho _ => simp only [value, hn _ _, ho _ _]
  | cuboid hh => simp only [value, hh _ _]
  | cylinder hr => simp only [value, hr _ _]
  | torus hr hs => simp only [value, hr _ _, hs _ _]
  | union _ _ iha ihb => simp only [value, iha, ihb]
  | intersection _ _ iha ihb => simp only [value, iha, ihb]
  | difference _ _ iha ihb => simp only [value, iha, ihb]
  | smoothUnion hk _ _ _ iha ihb => simp only [value, hk _ _, iha, ihb]
  | smoothIntersection hk _ _ _ iha ihb => simp only [value, hk _ _, iha, ihb]
  | smoothDifference hk _ _ _ iha ihb => simp only [value, hk _ _, iha, ihb]
  | translate ho _ ih => simp only [value, Site.moved, ho _ _, ih]
  | scale hf _ _ ih => simp only [value, Site.moved, hf _ _, ih]
  | stretch hf _ _ _ _ ih => simp only [value, Site.moved, hf _ _, ih]
  | expand hk _ ih => simp only [value, hk _ _, ih]
  | clampPositive _ ih => simp only [value, Site.moved, ih]
  | mirror hn _ _ ih => simp only [value, Site.moved, hn _ _, ih]
  | rotate hk ht _ _ ih => simp only [value, Site.moved, hk _ _, ht _ _, ih]

/-! ## Compiled distances -/

open Build Transcript

instance : ExactNumerals ℝ where
  zero := real_ofWord_zero
  half := real_ofWord_half
  one := real_ofWord_one
  two := real_ofWord_two

/-- None of these shapes has numerals that are rounded. -/
theorem Proper.exact {shape : Shape Word} (h : shape.Proper Word.toReal) : shape.Exact ℝ := by
  induction h with
  | field | sphere | plane | cuboid | cylinder | torus => trivial
  | union _ _ iha ihb => exact ⟨iha, ihb⟩
  | intersection _ _ iha ihb => exact ⟨iha, ihb⟩
  | difference _ _ iha ihb => exact ⟨iha, ihb⟩
  | smoothUnion _ _ _ _ iha ihb => exact ⟨iha, ihb⟩
  | smoothIntersection _ _ _ _ iha ihb => exact ⟨iha, ihb⟩
  | smoothDifference _ _ _ _ iha ihb => exact ⟨iha, ihb⟩
  | _ => assumption

/-- The distance of a point, through an arena of the shape's own. -/
theorem Proper.distanceAt_eq {shape : Shape Word} (h : shape.Proper Word.toReal)
    (hs : shape.Closed) (hsize : shape.alone.2.size ≤ UInt32.size)
    (hwithin : ¬ Walk.Exceeds shape.alone.2.nodes [shape.alone.1]) (p : Vec3 ℝ) :
    shape.distanceAt p = .ok (shape.realDistance Word.toReal (.atPoint p) p p) := by
  rw [Shape.distanceAt_eq_eval hs hsize hwithin, h.exact.eval_assemble hs]
  rfl

/-- The distance of a shape made of the solids and combinators above, over the real numbers, changes
by at most as much as the point moves.  So it is never more, inside or outside, than the distance to
a point of the surface, or to any point on the other side of it.  The same function answers for the
compiled shape, unless that is too deep to be flattened. -/
theorem distance_lower_bound :
    (∀ {κ : Type} {number : κ → ℝ} {shape : Shape κ}, shape.Proper number →
      ∀ (bindings : Bindings ℝ) (cell : Vec3 ℝ),
        let d p := (shape.value number bindings ⟨p, cell⟩).x
        (∀ p q, |d p - d q| ≤ (p - q).length) ∧
          ∀ p q, d p * d q ≤ 0 → |d p| ≤ (p - q).length) ∧
    ∀ {shape : Shape Word}, shape.Proper Word.toReal → shape.Closed →
      shape.alone.2.size ≤ UInt32.size →
      ¬ Walk.Exceeds shape.alone.2.nodes [shape.alone.1] →
      ∃ d : Vec3 ℝ → ℝ, (∀ p, shape.distanceAt p = .ok (d p)) ∧
        (∀ p q, |d p - d q| ≤ (p - q).length) ∧
          ∀ p q, d p * d q ≤ 0 → |d p| ≤ (p - q).length := by
  constructor
  · intro κ number shape h bindings cell d
    have hd : Lipschitz d := h.lipschitz bindings cell
    exact ⟨hd, fun p q => hd.abs_le_of_mul_nonpos⟩
  · intro shape h hs hsize hwithin
    have hd := h.lipschitz (.atPoint .zero) .zero
    refine ⟨_, fun p => ?_, hd, fun p q => hd.abs_le_of_mul_nonpos⟩
    rw [h.distanceAt_eq hs hsize hwithin]
    unfold realDistance
    rw [h.value_eq]

/-- A ball melted into a turned box, out of which a ring and its mirror image are cut. -/
def melted : Shape Word :=
  .smoothUnion 0.5 (.translate 1.0 (.sphere 1.0))
    (.rotate (.constant ⟨1.0, 2.0, 0.0⟩) 0.5
      (.difference (.stretch (.constant ⟨2.0, 1.0, 0.5⟩) (.cuboid 0.5))
        (.mirror (.constant ⟨0.0, 1.0, 0.0⟩) (.torus 1.0 0.5))))

theorem melted_proper : melted.Proper Word.toReal := by
  have hzero : Word.toReal 0.0 = 0 := real_ofWord_zero.trans real_zero
  have hhalf : Word.toReal 0.5 = 1 / 2 := real_ofWord_half.trans real_half
  have hone : Word.toReal 1.0 = 1 := real_ofWord_one.trans real_one
  have htwo : Word.toReal 2.0 = 2 := real_ofWord_two.trans real_two
  have hconstant := @Term.isConstant_constant Word Word.toReal
  have hball : Proper Word.toReal (.translate 1.0 (.sphere 1.0)) :=
    .translate (hconstant _) (.sphere (hconstant _))
  have hbox : Proper Word.toReal (.stretch (.constant ⟨2.0, 1.0, 0.5⟩) (.cuboid 0.5)) := by
    apply Proper.stretch (hconstant _) _ _ _ (.cuboid (hconstant _))
    · show 0 < Word.toReal 2.0
      rw [htwo]
      norm_num
    · show 0 < Word.toReal 1.0
      rw [hone]
      norm_num
    · show 0 < Word.toReal 0.5
      rw [hhalf]
      norm_num
  have hrings : Proper Word.toReal (.mirror (.constant ⟨0.0, 1.0, 0.0⟩) (.torus 1.0 0.5)) := by
    apply Proper.mirror (hconstant _) _ (.torus (hconstant _) (hconstant _))
    show Real.sqrt (Word.toReal 0.0 * Word.toReal 0.0 + Word.toReal 1.0 * Word.toReal 1.0 +
      Word.toReal 0.0 * Word.toReal 0.0) = 1
    rw [hzero, hone]
    norm_num
  apply Proper.smoothUnion (hconstant _) _ hball
  · apply Proper.rotate (hconstant _) (hconstant _) _ (.difference hbox hrings)
    intro heq
    have hx : Word.toReal 1.0 = Vec3.zero.x := congrArg Vec3.x heq
    rw [hone, Vec3.zero_real] at hx
    exact one_ne_zero hx
  · show 0 < Word.toReal 0.5
    rw [hhalf]
    norm_num

theorem distance_lower_bound_melted :
    (∀ p q, |(melted.value Word.toReal (.atPoint .zero) ⟨p, .zero⟩).x -
      (melted.value Word.toReal (.atPoint .zero) ⟨q, .zero⟩).x| ≤ (p - q).length) ∧
    ∃ d : Vec3 ℝ → ℝ, (∀ p, melted.distanceAt p = .ok (d p)) ∧
      (∀ p q, |d p - d q| ≤ (p - q).length) ∧
        ∀ p q, d p * d q ≤ 0 → |d p| ≤ (p - q).length := by
  have hclosed : melted.Closed :=
    ⟨trivial, ⟨trivial, trivial⟩, trivial, trivial, ⟨trivial, trivial⟩, trivial, trivial, trivial⟩
  have hlength : (melted.assemble (.outer (.node (.var .position))) :
      Transcript Tree).made.length = 67 := rfl
  have hlimits := alone_within hclosed (by rw [hlength]; omega)
  exact ⟨(distance_lower_bound.1 melted_proper (.atPoint .zero) .zero).1,
    distance_lower_bound.2 melted_proper hclosed hlimits.1 hlimits.2⟩

end Shape

end SphereTracer
