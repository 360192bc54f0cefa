import Mathlib
import SphereTracer.Proofs.Program.Stage
import SphereTracer.Proofs.Trace.Directions
import SphereTracer.Proofs.Trace.Draws
import SphereTracer.Proofs.Trace.Media
import SphereTracer.Proofs.Trace.Worker

/-!
# The directions of a path

A path that starts along a unit vector goes on along unit vectors, bounce after bounce: whatever ends
a segment, its next direction is made of unit vectors in one of the ways that keep them so.
-/

namespace SphereTracer

theorem Pcg.noise_drawPair (rng : Pcg) : (rng.drawPair : Vec2 ℝ × Pcg).1.Noise :=
  have hx := rng.next.fraction_real
  have hy := rng.next.next.fraction_real
  ⟨hx.1, hx.2, hy.1, hy.2⟩

/-! ## Normals -/

/-- Every normal is a unit vector, unless there is none. -/
def World.UnitNormals (world : World ℝ) : Prop :=
  ∀ id p, world.normal id p = .zero ∨ (world.normal id p).length = 1

theorem Vec3.eq_real_iff {v w : Vec3 ℝ} : v.eq w = true ↔ v = w := by
  show (decide (v.x = w.x) && decide (v.y = w.y) && decide (v.z = w.z)) = true ↔ _
  rw [Bool.and_eq_true, Bool.and_eq_true, decide_eq_true_iff, decide_eq_true_iff,
    decide_eq_true_iff]
  constructor
  · rintro ⟨⟨hx, hy⟩, hz⟩
    exact ext_lanes hx hy hz
  · rintro rfl
    exact ⟨⟨rfl, rfl⟩, rfl⟩

theorem Vec3.normalize_cases (v : Vec3 ℝ) : v.normalize = .zero ∨ v.normalize.length = 1 := by
  by_cases hv : v = .zero
  · exact .inl (hv ▸ normalize_zero)
  · exact .inr (length_normalize hv)

/-- An interpreter gives the direction of a gradient, or zero for an unknown id. -/
theorem Interpreter.unitNormals_world (it : Interpreter ℝ) : it.world.UnitNormals := by
  intro id p
  show (it.normal id p).1 = .zero ∨ (it.normal id p).1.length = 1
  rw [normal]
  split
  · exact .inl rfl
  · exact Vec3.normalize_cases _

/-! ## One segment -/

namespace Path

variable {world : World ℝ} {options : Options ℝ} {air surface : Surface ℝ} {epsilon : ℝ}
  {path next : Path ℝ} {point normal : Vec3 ℝ}

theorem leave_direction (hd : path.direction.length = 1) (hn : normal.length = 1)
    (backface : Bool) :
    (path.leave air epsilon surface point normal backface).direction.length = 1 := by
  have hreflected : (reflect path.direction normal).length = 1 := reflect_length hn hd
  unfold leave
  dsimp only
  split
  · generalize (if backface = true then surface.refraction / air.refraction
      else path.medium.refraction / surface.refraction) = eta
    split
    · exact hreflected
    · next hne => exact Vec3.length_normalize (mt Vec3.eq_real_iff.2 hne)
  · exact hreflected

/-- Whatever a surface does with light, a path that goes on from it goes on along a unit vector. -/
theorem shade_direction (hd : path.direction.length = 1) (hn : normal.length = 1)
    (backface : Bool) (hnext : path.shade air epsilon surface point normal backface = .inr next) :
    next.direction.length = 1 := by
  unfold shade at hnext
  dsimp only at hnext
  split at hnext
  · cases hnext
  · cases hnext
    -- The normal that is shaded with is a sample around a unit vector.
    have hnoise := path.rng.noise_drawPair
    refine leave_direction ?_ (sampleHemisphere_spec hn surface.smoothness hnoise).1 backface
    exact hd

theorem hit_direction (hworld : world.UnitNormals) (hd : path.direction.length = 1) {id : UInt32}
    (hnext : path.hit world air epsilon id point = .inr next) : next.direction.length = 1 := by
  unfold hit at hnext
  dsimp only at hnext
  split at hnext
  · next hproper =>
    have hunit : (world.normal id point).length = 1 := by
      refine (hworld id point).resolve_left fun hzero => ?_
      rw [hzero, real_lt_iff, real_half, Vec3.zero_real, Vec3.dot_eq] at hproper
      norm_num at hproper
    refine shade_direction hd ?_ _ hnext
    split
    · rw [Vec3.length_neg, hunit]
    · exact hunit
  · cases hnext

theorem scatter_direction (path : Path ℝ) (length : ℝ) :
    (path.scatter length).direction.length = 1 :=
  sampleSphere_length path.rng.noise_drawPair

/-- One segment keeps the direction of a path a unit vector. -/
theorem segment_direction (hworld : world.UnitNormals) (hd : path.direction.length = 1)
    (hnext : path.segment world options air = .inr next) : next.direction.length = 1 := by
  unfold segment at hnext
  obtain ⟨length, rng⟩ : ℝ × Pcg := freePath path.medium path.rng
  dsimp only at hnext
  split at hnext
  · refine hit_direction hworld ?_ hnext
    exact hd
  · cases hnext
    exact scatter_direction _ _
  · cases hnext

end Path

/-! ## Bounces -/

section
variable {S : Type} [Scalar S]

namespace Path

/-- The path before its segment `k`, unless it has ended by then. -/
def bounce (world : World S) (options : Options S) (air : Surface S) : ℕ → Path S → Option (Path S)
  | 0, path => some path
  | k + 1, path =>
    match path.segment world options air with
    | .inl _ => none
    | .inr next => bounce world options air k next

/-- What follows a bounce is what the path comes to, and without it the path has come to its end. -/
theorem follow_add (world : World S) (options : Options S) (air : Surface S) (k n : ℕ)
    (path : Path S) : path.follow world options air (k + n) =
      match path.bounce world options air k with
      | some p => p.follow world options air n
      | none => path.follow world options air k := by
  induction k generalizing path with
  | zero =>
    rw [Nat.zero_add]
    rfl
  | succ k ih =>
    rw [Nat.add_right_comm, follow, follow, bounce]
    cases path.segment world options air with
    | inl ended => rfl
    | inr next => exact ih next

end Path

namespace Interpreter

/-- The path before its segment `k`, see `Path.bounce`, found in place. -/
def bounce (options : Options S) (air : Surface S) :
    ℕ → Path S → Interpreter S → Option (Path S) × Interpreter S
  | 0, path, it => (some path, it)
  | k + 1, path, it =>
    let (step, it) := segment options air path it
    match step with
    | .inl _ => (none, it)
    | .inr next => bounce options air k next it

theorem gives_bounce {program : Program} {environment : Environment S} {world : World S}
    (hworld : world.Of program environment) (options : Options S) (air : Surface S) (k : ℕ)
    (path : Path S) :
    Gives program environment (bounce options air k path) (path.bounce world options air k) := by
  induction k generalizing path with
  | zero => exact .pure _
  | succ k ih =>
    intro it hit
    obtain ⟨hstep, hafter⟩ := gives_segment hworld options air path it hit
    rw [bounce, Path.bounce, ← hstep]
    generalize segment options air path it = stepped at hafter ⊢
    obtain ⟨step, it⟩ := stepped
    cases step with
    | inl _ => exact ⟨rfl, hafter⟩
    | inr next => exact ih next it hafter

end Interpreter

end

/-- From bounce to bounce the direction of a path stays a unit vector. -/
theorem Path.bounce_direction {world : World ℝ} (hworld : world.UnitNormals) (options : Options ℝ)
    (air : Surface ℝ) (k : ℕ) {path p : Path ℝ} (hd : path.direction.length = 1)
    (hbounce : path.bounce world options air k = some p) : p.direction.length = 1 := by
  induction k generalizing path with
  | zero =>
    cases hbounce
    exact hd
  | succ k ih =>
    rw [bounce] at hbounce
    split at hbounce
    · cases hbounce
    · next next hnext => exact ih (segment_direction hworld hd hnext) hbounce

/-- Samples, mirror images and bent directions are unit vectors, on the side of the normal that they
belong to.  So a path that starts along a unit vector has one at the start of every bounce, in the
world of a tracer and in place. -/
theorem directions_stay_unit :
    (∀ normal : Vec3 ℝ, normal.length = 1 → ∀ (smoothness : ℝ) (noise : Vec2 ℝ), noise.Noise →
      (sampleHemisphere normal smoothness noise).length = 1 ∧
        0 ≤ (sampleHemisphere normal smoothness noise).dot normal ∧
        (1 ≤ smoothness → sampleHemisphere normal smoothness noise = normal)) ∧
    (∀ noise : Vec2 ℝ, noise.Noise → (sampleSphere noise).length = 1) ∧
    (∀ normal incident : Vec3 ℝ, normal.length = 1 → incident.length = 1 →
      (reflect incident normal).length = 1 ∧ reflect (reflect incident normal) normal = incident) ∧
    (∀ normal incident : Vec3 ℝ, normal.length = 1 → incident.length = 1 → ∀ eta : ℝ,
      let bent := refract incident normal eta
      (bent = .zero ↔ 1 < eta ^ 2 * (1 - normal.dot incident ^ 2)) ∧
        (bent ≠ .zero → bent.length = 1 ∧ bent.dot normal ≤ 0 ∧
          bent - .scale (bent.dot normal) normal =
            .scale eta (incident - .scale (incident.dot normal) normal))) ∧
    ∀ (program : Program) (u : Uniforms) (options : Options ℝ) (air : Surface ℝ)
      (origin direction : Vec3 ℝ) (rng : Pcg), direction.length = 1 →
      let world := (Tracer.new program u : Tracer ℝ).world
      let path := Path.start air origin direction rng
      (∀ k p, path.bounce world options air k = some p → p.direction.length = 1 ∧
        ∀ n, path.follow world options air (k + n) = p.follow world options air n) ∧
      (program.WellFormed → ∀ it : Interpreter ℝ, it.Of program u.environment → ∀ k,
        (it.bounce options air k path).1 = path.bounce world options air k) := by
  refine ⟨fun normal hn smoothness noise hnoise => sampleHemisphere_spec hn smoothness hnoise,
    fun noise hnoise => sampleSphere_length hnoise,
    fun normal incident hn hi => ⟨reflect_length hn hi, reflect_reflect hn incident⟩,
    fun normal incident hn hi => refract_spec hn hi,
    fun program u options air origin direction rng hd => ?_⟩
  intro world path
  have hworld : world.UnitNormals := Interpreter.unitNormals_world _
  refine ⟨fun k p hbounce => ⟨Path.bounce_direction hworld options air k hd hbounce, fun n => ?_⟩,
    fun hw it hit k => ?_⟩
  · rw [Path.follow_add, hbounce]
  · exact (Interpreter.gives_bounce (Tracer.world_new hw u) options air k path it hit).1

/-! ## Fog -/

/-- What absorbs all light, and scatters a path after one unit on average. -/
noncomputable def fog : Surface ℝ := { Surface.absorber with scatter := 1 }

/-- The first number drawn is small, so that the free path is short. -/
theorem freePath_fog : ∃ length, Path.freePath fog ⟨0⟩ = (length, Pcg.next ⟨0⟩) ∧ 0 < length ∧
    length ≤ 1 := by
  have hdrawn : ((⟨0⟩ : Pcg).next.fraction : ℝ) = 506671 / 2 ^ 24 := by
    have hcount : ((⟨0⟩ : Pcg).next.state >>> 8).toNat = 506671 := by decide
    show (((⟨0⟩ : Pcg).next.state >>> 8).toNat : ℝ) /
      OfScientific.ofScientific 167772160 true 1 = _
    rw [hcount]
    norm_num
  have hscatters : (Scalar.lt 0.0 fog.scatter && Scalar.lt fog.scatter maxDistance) = true := by
    rw [Bool.and_eq_true, real_lt_iff, real_lt_iff, real_zero, real_maxDistance]
    show (0 : ℝ) < 1 ∧ (1 : ℝ) < 10 ^ 10
    norm_num
  have hless : (0 : ℝ) < 1 - 506671 / 2 ^ 24 := by norm_num
  have hnegative : Real.log (1 - 506671 / 2 ^ 24) < 0 := Real.log_neg hless (by norm_num)
  have hbound := Real.one_sub_inv_le_log_of_pos hless
  refine ⟨-Real.log (1 - 506671 / 2 ^ 24), ?_, by linarith, ?_⟩
  · rw [Path.freePath, if_pos hscatters]
    show (-Real.log (@OfScientific.ofScientific ℝ Scalar.toOfScientific 10 true 1 -
      (⟨0⟩ : Pcg).next.fraction) * 1, _) = _
    rw [hdrawn, real_one, mul_one]
  · norm_num at hbound ⊢
    linarith

/-- With nothing in reach, a path in fog is scattered. -/
theorem exists_bounce_fog {program : Program} (h : Program.ofScene .empty .standard = .ok program)
    (u : Uniforms) :
    let tracer : Tracer ℝ := .new program u
    ∃ p, (Path.start fog .zero .unitZ ⟨0⟩).bounce tracer.world tracer.options fog 1 = some p := by
  intro tracer
  obtain ⟨-, hof, hoptions⟩ := Program.spec_of_ofScene h
  have hempty (p : Vec3 ℝ) : tracer.world.closest p = .none :=
    Interpreter.closest_of_empty (hof.entities_eq_empty rfl) p
  obtain ⟨length, hfree, hpos, hle⟩ := freePath_fog
  have hsteps : tracer.options.steps.toNat = 99 + 1 := by
    show program.options.steps.toNat = 99 + 1
    rw [hoptions]
    rfl
  have hfactor : tracer.options.stepFactor = 1 := by
    show Scalar.ofWord program.options.stepFactor = (1 : ℝ)
    rw [hoptions]
    exact real_ofWord_one.trans real_one
  have hfar : ¬ Scalar.lt (Closest.none : Closest ℝ).distance tracer.options.epsilon := by
    show ¬ Scalar.lt (maxDistance : ℝ) (Scalar.ofWord program.options.epsilon)
    rw [hoptions, real_lt_iff, not_lt, real_maxDistance]
    show ((10995116 : ℕ) : ℝ) * 2 ^ (-40 : ℤ) ≤ 10 ^ 10
    norm_num
  have hover : (Scalar.lt 0.0 length && Scalar.le length
      (0.0 + (Closest.none : Closest ℝ).distance * tracer.options.stepFactor)) = true := by
    rw [Bool.and_eq_true, real_lt_iff, real_le_iff, real_zero, hfactor]
    refine ⟨hpos, ?_⟩
    show length ≤ 0 + maxDistance * 1
    rw [real_maxDistance]
    linarith
  have hmarch : SphereTracer.march tracer.world.closest tracer.options
      ⟨.zero, .unitZ, length⟩ = .scattered := by
    rw [SphereTracer.march, hsteps, marchFrom]
    dsimp only
    rw [hempty, if_neg hfar, if_pos hover]
  have hsegment : ∃ p,
      (Path.start fog .zero .unitZ ⟨0⟩).segment tracer.world tracer.options fog = .inr p := by
    rw [Path.segment]
    dsimp only [Path.start]
    rw [hfree]
    dsimp only
    rw [hmarch]
    exact ⟨_, rfl⟩
  obtain ⟨p, hp⟩ := hsegment
  refine ⟨p, ?_⟩
  rw [Path.bounce, hp]
  rfl

theorem directions_stay_unit_fog :
    (let normal : Vec3 ℝ := ⟨0, 3 / 5, 4 / 5⟩
     (sampleHemisphere normal 0 ⟨1 / 4, 1 / 2⟩).length = 1 ∧
        sampleHemisphere normal 1 ⟨1 / 4, 1 / 2⟩ = normal ∧
        reflect (reflect .unitZ normal) normal = .unitZ ∧
        refract .unitZ normal 2 = .zero ∧ (refract .unitZ normal 1).length = 1) ∧
    (sampleSphere (⟨1 / 4, 1 / 2⟩ : Vec2 ℝ)).length = 1 ∧
    ∃ program, Program.ofScene .empty .standard = .ok program ∧ ∀ u : Uniforms,
      let tracer : Tracer ℝ := .new program u
      let path := Path.start fog .zero .unitZ ⟨0⟩
      ∃ p, path.bounce tracer.world tracer.options fog 1 = some p ∧ p.direction.length = 1 ∧
        ((Interpreter.new program u.environment).bounce tracer.options fog 1 path).1 = some p := by
  obtain ⟨hhemisphere, hsphere, hreflect, hrefract, hbounces⟩ := directions_stay_unit
  have hnormal : (⟨0, 3 / 5, 4 / 5⟩ : Vec3 ℝ).length = 1 := by
    rw [Vec3.length_eq_one_iff, Vec3.dot_eq]
    norm_num
  have hz : (Vec3.unitZ : Vec3 ℝ).length = 1 := by
    rw [Vec3.length_eq_one_iff, Vec3.unitZ, real_zero, real_one, Vec3.dot_eq]
    norm_num
  have hnoise : (⟨1 / 4, 1 / 2⟩ : Vec2 ℝ).Noise := by
    constructor <;> norm_num
  have hdot : (⟨0, 3 / 5, 4 / 5⟩ : Vec3 ℝ).dot .unitZ = 4 / 5 := by
    rw [Vec3.unitZ, real_zero, real_one, Vec3.dot_eq]
    norm_num
  obtain ⟨htotal, -⟩ := hrefract _ _ hnormal hz 2
  obtain ⟨hnone, hbent⟩ := hrefract _ _ hnormal hz 1
  rw [hdot] at htotal hnone
  have hne : refract .unitZ (⟨0, 3 / 5, 4 / 5⟩ : Vec3 ℝ) 1 ≠ .zero := by
    rw [ne_eq, hnone]
    norm_num
  refine ⟨⟨(hhemisphere _ hnormal 0 _ hnoise).1, (hhemisphere _ hnormal 1 _ hnoise).2.2 le_rfl,
    (hreflect _ _ hnormal hz).2, htotal.2 (by norm_num), (hbent hne).1⟩, hsphere _ hnoise, ?_⟩
  obtain ⟨-, program, hprogram⟩ := Program.exists_ofScene_empty
    (show Options.standard.validate = .ok () by decide +kernel)
  refine ⟨program, hprogram, fun u => ?_⟩
  intro tracer path
  obtain ⟨p, hp⟩ := exists_bounce_fog hprogram u
  obtain ⟨hunit, hplace⟩ := hbounces program u tracer.options fog .zero .unitZ ⟨0⟩ hz
  have hw := (Program.spec_of_ofScene hprogram).1
  exact ⟨p, hp, (hunit 1 p hp).1, (hplace hw _ (Interpreter.of_new _ _) 1).trans hp⟩

end SphereTracer
