import Mathlib
import SphereTracer.Proofs.Interpreter.Memory
import SphereTracer.Proofs.Numbers.Frames
import SphereTracer.Proofs.Numbers.Patterns
import SphereTracer.Proofs.Program.Options
import SphereTracer.Proofs.Trace.Marching

/-!
# Normals of flat surfaces

Both ways to differentiate a distance are exact where the distance is an affine function of the
position: whatever the step is, they give the same multiple of its gradient everywhere.  So the
normal is the unit gradient under all options.
-/

namespace SphereTracer

open SphereTracer.Graph

variable {g : Vec3 ℝ} {c : ℝ}

namespace Interpreter

/-! ## Taps of an affine field -/

theorem gradientOf_affine (cheap : Bool) {field : Vec3 ℝ → ℝ}
    (hfield : ∀ p, field p = g.dot p + c) (h : ℝ) (p : Vec3 ℝ) :
    gradientOf cheap field h p = .scale ((if cheap then 4 else 2) * h) g := by
  have hahead (v : Vec3 ℝ) : field (p + .scale h v) = field p + h * g.dot v := by
    rw [hfield, hfield, Vec3.dot_add, Vec3.dot_scale]
    ring
  have hbehind (v : Vec3 ℝ) : field (p - .scale h v) = field p - h * g.dot v := by
    rw [hfield, hfield, Vec3.dot_sub, Vec3.dot_scale]
    ring
  -- Lane by lane the constant part of the field cancels, and what is left is linear in the
  -- gradient.
  apply Vec3.ext_axis
  intro axis
  unfold gradientOf
  cases cheap with
  | false =>
    simp only [List.foldl, Bool.false_eq_true, if_false, hahead, hbehind, Axis.lane_add,
      Axis.lane_scale, Axis.lane_zero, Vec3.dot_eq, Vec3.unitX, Vec3.unitY, Vec3.unitZ, real_one,
      real_zero]
    cases axis <;> simp only [Axis.lane] <;> ring
  | true =>
    simp only [List.foldl, cheapTaps, if_true, hahead, Axis.lane_add, Axis.lane_scale,
      Axis.lane_zero, Vec3.one_real, Vec3.dot_eq, real_one]
    cases axis <;> simp only [Axis.lane] <;> ring

/-! ## Flat entities -/

variable {scene : Scene} {options : Options Word} {program : Program} {environment : Environment ℝ}

/-- Where the distance of an entity is an affine function, both gradients are multiples of its
gradient, and whatever the options of the scene are, the normal is the unit gradient. -/
theorem normal_of_affine (hprogram : Program.ofScene scene options = .ok program) {id : UInt32}
    {e : EntityProgram} (hid : program.entity? id = some e)
    (haffine : ∀ p, ((new program environment).distance e p).1 = g.dot p + c) :
    (∀ it : Interpreter ℝ, it.Of program environment → ∀ h p,
      (it.centralGradient e h p).1 = .scale (2 * h) g ∧
        (it.cheapGradient e h p).1 = .scale (4 * h) g) ∧
    (g ≠ .zero → (g.shrink g.length).length = 1 ∧
      (∀ it : Interpreter ℝ, it.Of program environment → ∀ h, 0 < h → ∀ p,
        (it.centralGradient e h p).1.normalize = g.shrink g.length ∧
          (it.cheapGradient e h p).1.normalize = g.shrink g.length) ∧
      ∀ (options' : Options Word) (program' : Program),
        Program.ofScene scene options' = .ok program' →
          ∀ it : Interpreter ℝ, it.Of program' environment → ∀ p,
            (it.normal id p).1 = g.shrink g.length) := by
  obtain ⟨hw, -, -⟩ := Program.spec_of_ofScene hprogram
  have he := hw.distance e (hw.entity?_iff.1 hid).1
  obtain ⟨tree, htree⟩ := he.exists_trees
  have hroot := htree _ (he.root_mem e.distance List.mem_cons_self)
  have hfield (p : Vec3 ℝ) :
      ((tree e.distance).eval (bindings environment p .zero .zero)).x = g.dot p + c := by
    rw [← haffine p]
    exact (gives_distance he hroot p _ (of_new program environment)).1.symm
  have hgradients (it : Interpreter ℝ) (hit : it.Of program environment) (h : ℝ) (p : Vec3 ℝ) :
      (it.centralGradient e h p).1 = .scale (2 * h) g ∧
        (it.cheapGradient e h p).1 = .scale (4 * h) g :=
    ⟨(gives_centralGradient (gives_distance he hroot) h p it hit).1.trans
        (gradientOf_affine false hfield h p),
      (gives_cheapGradient (gives_distance he hroot) h p it hit).1.trans
        (gradientOf_affine true hfield h p)⟩
  refine ⟨hgradients, fun hg => ⟨Vec3.length_shrink hg, fun it hit h hh p => ?_,
    fun options' program' hprogram' it hit p => ?_⟩⟩
  · obtain ⟨hcentral, hcheap⟩ := hgradients it hit h p
    rw [hcentral, hcheap]
    exact ⟨Vec3.normalize_scale (by positivity) hg, Vec3.normalize_scale (by positivity) hg⟩
  · have hvalid := (Program.ofScene_eq_ok_iff.1 hprogram').1
    obtain ⟨hfinite, hpos⟩ := (Options.validate_eq_ok_iff.1 hvalid).normalEpsilon
    have hstep := Word.toReal_pos hfinite hpos
    have hsame : program' = { program with options := options' } :=
      Except.ok.inj (hprogram'.symm.trans (Program.ofScene_options hprogram hvalid))
    have hid' : program'.entity? id = some e := by
      rw [hsame]
      exact hid
    have hnodes : program'.nodes = program.nodes := by rw [hsame]
    have hoptions : program'.options = options' := by rw [hsame]
    have hgives := gives_normal hid' (gives_distance (hnodes ▸ he) (hnodes ▸ hroot)) p it hit
    rw [hgives.1, gradientOf_affine _ hfield, hoptions]
    refine Vec3.normalize_scale (mul_pos ?_ hstep) hg
    split <;> norm_num

open Kernel in
theorem distance_ground (hsize : ((stage [ground, ball]).build.run ∅).2.size ≤ UInt32.size)
    (h : Program.ofScene (stage [ground, ball]) options = .ok program) :
    ∃ e, program.entity? 2 = some e ∧ ∀ p : Vec3 ℝ,
      ((new program environment).distance e p).1 = (⟨0, 1, 0⟩ : Vec3 ℝ).dot p + 1 := by
  obtain ⟨hw, -, -⟩ := Program.spec_of_ofScene h
  have hclosed := stage_closed (show [ground, ball] ⊆ [ball, ground] by simp)
  have hground : ground ∈ (stage [ground, ball]).entities := List.mem_cons_self
  have hvalue (p : Vec3 ℝ) :
      (ground.trees.distance.eval (bindings environment p .zero .zero)).x =
        (⟨0, 1, 0⟩ : Vec3 ℝ).dot p + 1 := by
    rw [eval_trees (hclosed.entities ground hground).1 (stage_proper ground hground),
      Vec3.dot_comm]
    show p.dot ⟨Word.toReal 0.0, Word.toReal 1.0, Word.toReal 0.0⟩ + Word.toReal 1.0 = _
    rw [show Word.toReal 0.0 = 0 from real_ofWord_zero.trans real_zero,
      show Word.toReal 1.0 = 1 from real_ofWord_one.trans real_one]
  have hentity (p : Vec3 ℝ) : ∃ e, program.entity? 2 = some e ∧
      Gives program environment (·.distance e p) ((⟨0, 1, 0⟩ : Vec3 ℝ).dot p + 1) := by
    obtain ⟨-, e, he, hid, hgives⟩ :=
      gives_alone hclosed (.inl hsize) h hground environment p
    rw [hvalue p] at hgives
    exact ⟨e, hw.entity?_iff.2 ⟨he, congrArg EntityId.raw hid⟩, hgives⟩
  obtain ⟨e, hid, -⟩ := hentity .zero
  refine ⟨e, hid, fun p => ?_⟩
  obtain ⟨e', hid', hgives⟩ := hentity p
  obtain rfl : e' = e := Option.some.inj (hid'.symm.trans hid)
  exact (hgives _ (of_new program environment)).1

open Kernel in
/-- The ground below the ball, under four taps and under six. -/
theorem normal_of_affine_stage :
    ∃ program e, Program.ofScene (stage [ground, ball]) .standard = .ok program ∧
      program.entity? 2 = some e ∧
      (∀ h p, ((new program ⟨⟨0, 0⟩, 0⟩).centralGradient e h p).1 =
        Vec3.scale (2 * h) (⟨0, 1, 0⟩ : Vec3 ℝ)) ∧
      ∀ cheapNormals, ∃ program',
        Program.ofScene (stage [ground, ball]) { Options.standard with cheapNormals } =
          .ok program' ∧
        ∀ p : Vec3 ℝ, ((new program' ⟨⟨0, 0⟩, 0⟩).normal 2 p).1 = ⟨0, 1, 0⟩ := by
  obtain ⟨hsize, program, hprogram⟩ := exists_program_swapped
  obtain ⟨e, hid, haffine⟩ := distance_ground hsize hprogram
  obtain ⟨hgradients, hnormal⟩ := normal_of_affine hprogram hid haffine
  have hne : (⟨0, 1, 0⟩ : Vec3 ℝ) ≠ .zero := by
    rw [Vec3.zero_real]
    simp
  have hunit : (⟨0, 1, 0⟩ : Vec3 ℝ).shrink (⟨0, 1, 0⟩ : Vec3 ℝ).length = ⟨0, 1, 0⟩ := by
    have hlength : (⟨0, 1, 0⟩ : Vec3 ℝ).length = 1 := by
      show Real.sqrt (0 * 0 + 1 * 1 + 0 * 0) = 1
      norm_num
    rw [hlength]
    exact Vec3.ext_axis fun axis => by rw [Axis.lane_shrink, div_one]
  obtain ⟨-, -, hall⟩ := hnormal hne
  refine ⟨program, e, hprogram, hid, fun h p => (hgradients _ (of_new _ _) h p).1,
    fun cheapNormals => ?_⟩
  have hvalid : { Options.standard with cheapNormals }.validate = .ok () := by
    cases cheapNormals <;> decide +kernel
  refine ⟨_, Program.ofScene_options hprogram hvalid, fun p => ?_⟩
  rw [hall _ _ (Program.ofScene_options hprogram hvalid) _ (of_new _ _) p, hunit]

end Interpreter

end SphereTracer
