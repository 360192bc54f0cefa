import Mathlib
import SphereTracer.Trace.March
import SphereTracer.Proofs.Interpreter.Nearest
import SphereTracer.Proofs.Shape.LowerBound

/-!
# Marches step over nothing

Over the real numbers, and where the distance along a ray changes by at most as much as the ray
advances, everything that a march leaves behind is clear: a step is at most as long as the distance
that was found before it.
-/

namespace SphereTracer

variable {closest : Vec3 ℝ → Closest ℝ} {epsilon stepFactor : ℝ} {ray : Ray ℝ} {travelled : ℝ}

/-- The distance from the point at `t` along the ray to the nearest entity. -/
noncomputable def Ray.room (closest : Vec3 ℝ → Closest ℝ) (ray : Ray ℝ) (t : ℝ) : ℝ :=
  (closest (ray.along t)).distance

/-- The distance changes by at most as much as the ray advances. -/
def Ray.Steady (closest : Vec3 ℝ → Closest ℝ) (ray : Ray ℝ) : Prop :=
  ∀ s t, 0 ≤ s → 0 ≤ t → |ray.room closest s - ray.room closest t| ≤ |s - t|

/-- Nothing is in the way of the ray up to, but not at, `travelled`. -/
def Ray.Clear (closest : Vec3 ℝ → Closest ℝ) (ray : Ray ℝ) (travelled : ℝ) : Prop :=
  ∀ t, 0 ≤ t → t < travelled → 0 < ray.room closest t

theorem Ray.along_zero (ray : Ray ℝ) : ray.along 0 = ray.origin := by
  apply Vec3.ext_lanes
  · show ray.origin.x + 0 * ray.direction.x = ray.origin.x
    rw [zero_mul, add_zero]
  · show ray.origin.y + 0 * ray.direction.y = ray.origin.y
    rw [zero_mul, add_zero]
  · show ray.origin.z + 0 * ray.direction.z = ray.origin.z
    rw [zero_mul, add_zero]

/-- A step from a point with room keeps what is behind clear. -/
theorem Ray.Clear.step (h : ray.Clear closest travelled) (hsteady : ray.Steady closest)
    (htravelled : 0 ≤ travelled) (hroom : 0 < ray.room closest travelled) (hle : stepFactor ≤ 1) :
    ray.Clear closest (travelled + ray.room closest travelled * stepFactor) := by
  intro t ht hbefore
  by_cases hbehind : t < travelled
  · exact h t ht hbehind
  · -- The room shrinks by at most `t - travelled`, and that is less than the room there was.
    have hahead : travelled ≤ t := not_lt.1 hbehind
    have hshrunk := (abs_le.1 (hsteady t travelled ht htravelled)).1
    rw [abs_of_nonneg (sub_nonneg.2 hahead)] at hshrunk
    have hstep : ray.room closest travelled * stepFactor ≤ ray.room closest travelled :=
      mul_le_of_le_one_right hroom.le hle
    linarith

/-- Whatever its end is, a march from a clear point has gone on through clear space, and has hit
something only where it stopped. -/
theorem marchFrom_clear (hsteady : ray.Steady closest) (hepsilon : 0 < epsilon)
    (hpos : 0 < stepFactor) (hle : stepFactor ≤ 1) (n : ℕ) (htravelled : 0 ≤ travelled)
    (hclear : ray.Clear closest travelled) :
    let result := marchFrom closest epsilon stepFactor ray n (ray.along travelled) travelled
    travelled ≤ result.2 ∧ ray.Clear closest result.2 ∧
      (∀ nearest point, result.1 = .hit nearest point →
        point = ray.along result.2 ∧ nearest = closest point ∧ nearest.distance < epsilon) ∧
      (result.1 = .scattered → 0 < ray.scatter ∧ ray.scatter ≤ result.2) := by
  induction n generalizing travelled with
  | zero =>
    refine ⟨le_rfl, hclear, ?_, ?_⟩
    · intro nearest point hhit
      cases hhit
    · intro hscattered
      cases hscattered
  | succ n ih =>
    unfold marchFrom
    dsimp only
    by_cases hnear : (closest (ray.along travelled)).distance < epsilon
    · rw [if_pos (real_lt_iff.2 hnear)]
      refine ⟨le_rfl, hclear, ?_, ?_⟩
      · intro nearest point hhit
        cases hhit
        exact ⟨rfl, rfl, hnear⟩
      · intro hscattered
        cases hscattered
    · have hroom : 0 < ray.room closest travelled := hepsilon.trans_le (not_lt.1 hnear)
      have hnext := hclear.step hsteady htravelled hroom hle
      have hforward : travelled ≤ travelled + ray.room closest travelled * stepFactor :=
        le_add_of_nonneg_right (mul_pos hroom hpos).le
      rw [if_neg (mt real_lt_iff.1 hnear)]
      change ray.Clear closest
        (travelled + (closest (ray.along travelled)).distance * stepFactor) at hnext
      change travelled ≤ travelled + (closest (ray.along travelled)).distance * stepFactor
        at hforward
      split
      · next hscatter =>
        rw [Bool.and_eq_true, real_lt_iff, real_le_iff, real_zero] at hscatter
        refine ⟨hforward, hnext, ?_, ?_⟩
        · intro nearest point hhit
          cases hhit
        · intro _
          exact hscatter
      · have hrest := ih (htravelled.trans hforward) hnext
        exact ⟨hforward.trans hrest.1, hrest.2⟩

/-- A march never steps over a surface.  On a ray along which the distance to the nearest entity
changes by at most as much as the ray advances, that distance is positive at every point before the
one where the march ends, for every end: at a hit, where the free path is over, and where the steps
are used up. -/
theorem march_never_tunnels {options : Options ℝ} (hepsilon : 0 < options.epsilon)
    (hpos : 0 < options.stepFactor) (hle : options.stepFactor ≤ 1)
    (hsteady : ∀ s t, 0 ≤ s → 0 ≤ t →
      |(closest (ray.along s)).distance - (closest (ray.along t)).distance| ≤ |s - t|) :
    ∃ T, marchFrom closest options.epsilon options.stepFactor ray options.steps.toNat ray.origin
        0.0 = (march closest options ray, T) ∧ 0 ≤ T ∧
      (∀ t, 0 ≤ t → t < T → 0 < (closest (ray.along t)).distance) ∧
      (∀ nearest point, march closest options ray = .hit nearest point →
        point = ray.along T ∧ nearest = closest point ∧ nearest.distance < options.epsilon) ∧
      (march closest options ray = .scattered → 0 < ray.scatter ∧ ray.scatter ≤ T) := by
  have hstart : ray.Clear closest 0 := by
    intro t ht hbefore
    exact absurd hbefore (not_lt.2 ht)
  have hrun := marchFrom_clear hsteady hepsilon hpos hle options.steps.toNat le_rfl hstart
  rw [ray.along_zero] at hrun
  unfold march
  rw [real_zero]
  exact ⟨_, rfl, hrun⟩

/-! ## Scenes -/

theorem Ray.steady_of_lipschitz (hclosest : Lipschitz fun p => (closest p).distance)
    (hdirection : ray.direction.length = 1) : ray.Steady closest := by
  intro s t _ _
  have halong : ray.along s - ray.along t = .scale (s - t) ray.direction := by
    apply Vec3.ext_lanes
    · show ray.origin.x + s * ray.direction.x - (ray.origin.x + t * ray.direction.x) =
        (s - t) * ray.direction.x
      ring
    · show ray.origin.y + s * ray.direction.y - (ray.origin.y + t * ray.direction.y) =
        (s - t) * ray.direction.y
      ring
    · show ray.origin.z + s * ray.direction.z - (ray.origin.z + t * ray.direction.z) =
        (s - t) * ray.direction.z
      ring
  have hle := hclosest (ray.along s) (ray.along t)
  rw [halong, Vec3.length_scale, hdirection, mul_one] at hle
  exact hle

theorem offer_distance (best : Closest ℝ) (id : UInt32) (d : ℝ) :
    (best.offer id d).distance = min d best.distance := by
  unfold Closest.offer
  by_cases hlt : d < best.distance
  · rw [if_pos (real_lt_iff.2 hlt), min_eq_left hlt.le]
  · rw [if_neg (mt real_lt_iff.1 hlt), min_eq_right (not_lt.1 hlt)]

/-- The nearest of several distances, each of which is Lipschitz, is so too. -/
theorem lipschitz_foldl_offer {ι : Type} {l : List ι} {id : ι → UInt32} {d : ι → Vec3 ℝ → ℝ}
    (hd : ∀ i ∈ l, Lipschitz (d i)) {best : Vec3 ℝ → Closest ℝ}
    (hbest : Lipschitz fun p => (best p).distance) :
    Lipschitz fun p => (l.foldl (fun b i => b.offer (id i) |d i p|) (best p)).distance := by
  induction l generalizing best with
  | nil => exact hbest
  | cons i rest ih =>
    rw [List.forall_mem_cons] at hd
    apply ih hd.2
    simp only [offer_distance]
    exact hd.1.abs.min hbest

namespace Interpreter

variable {scene : Scene} {options : Options Word} {program : Program}
  {environment : Environment ℝ}

/-- The tree of a shape whose distance is a lower bound has that distance as its value. -/
theorem eval_trees {entity : Entity} (hs : entity.shape.Closed)
    (hproper : entity.shape.Proper Word.toReal) (environment : Environment ℝ) (p : Vec3 ℝ) :
    entity.trees.distance.eval (bindings environment p .zero .zero) =
      entity.shape.value Scalar.ofWord (bindings environment p .zero .zero) ⟨p, p⟩ := by
  have hpoint : (Tree.node (.var .position)).eval (bindings environment p .zero .zero) = p :=
    Tree.eval_node _ _
  have heval := hproper.exact.eval_assemble hs (bindings environment p .zero .zero)
    (.outer (.node (.var .position)))
  simp only [Site.outer, hpoint] at heval
  exact heval

theorem lipschitz_trees {entity : Entity} (hs : entity.shape.Closed)
    (hproper : entity.shape.Proper Word.toReal) (environment : Environment ℝ) :
    Lipschitz fun p => (entity.trees.distance.eval (bindings environment p .zero .zero)).x := by
  have hvalue : (fun p => (entity.trees.distance.eval (bindings environment p .zero .zero)).x) =
      entity.shape.realDistance Word.toReal (.atPoint .zero) .zero := by
    ext p
    rw [eval_trees hs hproper]
    exact congrArg Vec3.x (hproper.value_eq _ _ p p .zero)
  rw [hvalue]
  exact hproper.lipschitz _ _

/-- In a scene of shapes whose distances are lower bounds, the distance to the nearest entity is one
as well. -/
theorem lipschitz_closest (hscene : scene.Closed) (hroom : scene.build.Room scene.assemble ∅)
    (h : Program.ofScene scene options = .ok program)
    (hproper : ∀ entity ∈ scene.entities, entity.shape.Proper Word.toReal) {it : Interpreter ℝ}
    (hit : it.Of program environment) : Lipschitz fun p => (it.closest p).1.distance := by
  obtain ⟨hprogram, hof, -⟩ := Program.spec_of_ofScene h
  have hsource : ∀ e ∈ program.entities, ∃ d : Vec3 ℝ → ℝ, Lipschitz d ∧
      ∀ p, Gives program environment (·.distance e p) (d p) := by
    intro e he
    have hmem := hof.ids.mem_iff.1 (List.mem_map_of_mem (Array.mem_toList_iff.2 he))
    obtain ⟨entity, hentity, heq⟩ := List.mem_map.1 hmem
    refine ⟨_, lipschitz_trees (hscene.entities entity hentity).1 (hproper entity hentity)
      environment, fun p => ?_⟩
    obtain ⟨-, e', he', hid, hgives⟩ := gives_alone hscene hroom h hentity environment p
    have hfound := hprogram.entity?_iff.2 ⟨he', rfl⟩
    rw [hid, heq, hprogram.entity?_iff.2 ⟨he, rfl⟩] at hfound
    cases hfound
    exact hgives
  choose! d hlipschitz hgives using hsource
  have hclosest : (fun p => (it.closest p).1.distance) = fun p =>
      (program.entities.toList.foldl (fun best e => best.offer e.id.raw |d e p|)
        Closest.none).distance := by
    ext p
    rw [(gives_closest (fun e he => hgives e he p) it hit).1]
    rfl
  rw [hclosest]
  apply lipschitz_foldl_offer
  · intro e he
    exact hlipschitz e (Array.mem_toList_iff.1 he)
  · exact lipschitz_const _

open Kernel in
theorem stage_proper : ∀ entity ∈ (stage [ground, ball]).entities,
    entity.shape.Proper Word.toReal := by
  have hconstant := @Term.isConstant_constant Word Word.toReal
  intro entity hentity
  simp only [stage, List.mem_cons, List.not_mem_nil, or_false] at hentity
  rcases hentity with rfl | rfl
  · apply Shape.Proper.plane (hconstant _) (hconstant _)
    show Real.sqrt (Word.toReal 0.0 * Word.toReal 0.0 + Word.toReal 1.0 * Word.toReal 1.0 +
      Word.toReal 0.0 * Word.toReal 0.0) = 1
    rw [show Word.toReal 0.0 = 0 from real_ofWord_zero.trans real_zero,
      show Word.toReal 1.0 = 1 from real_ofWord_one.trans real_one]
    norm_num
  · exact .sphere (hconstant _)

open Kernel in
/-- A ray through the stage, whose ball and ground have distances that are lower bounds. -/
theorem march_never_tunnels_stage :
    ∃ program, Program.ofScene (stage [ground, ball]) .standard = .ok program ∧
      let closest := (new program ⟨⟨0, 0⟩, 0⟩ : Interpreter ℝ).world.closest
      let options : Options ℝ := Options.standard.map Scalar.ofWord
      let ray : Ray ℝ := ⟨⟨0, 0, -3⟩, ⟨0, 0, 1⟩, 2⟩
      ∃ T, marchFrom closest options.epsilon options.stepFactor ray options.steps.toNat
          ray.origin 0.0 = (march closest options ray, T) ∧ 0 ≤ T ∧
        ∀ t, 0 ≤ t → t < T → 0 < (closest (ray.along t)).distance := by
  have hmembers : [ground, ball] ⊆ [ball, ground] := by simp
  obtain ⟨hsize, program, hprogram⟩ := exists_program_swapped
  refine ⟨program, hprogram, ?_⟩
  intro closest options ray
  have hepsilon : 0 < options.epsilon := by
    show 0 < ((10995116 : ℕ) : ℝ) * 2 ^ (-40 : ℤ)
    positivity
  have hfactor : options.stepFactor = 1 := real_ofWord_one.trans real_one
  have hunit : ray.direction.length = 1 := by
    show Real.sqrt (0 * 0 + 0 * 0 + 1 * 1) = 1
    norm_num
  have hclosest : Lipschitz fun p => (closest p).distance :=
    lipschitz_closest (stage_closed hmembers) (.inl hsize) hprogram stage_proper (of_new _ _)
  have hsteady : ray.Steady closest := Ray.steady_of_lipschitz hclosest hunit
  have hpos : 0 < options.stepFactor := by
    rw [hfactor]
    exact one_pos
  obtain ⟨T, hrun, hT, hclear, -⟩ := march_never_tunnels hepsilon hpos hfactor.le hsteady
  exact ⟨T, hrun, hT, hclear⟩

end Interpreter

end SphereTracer
