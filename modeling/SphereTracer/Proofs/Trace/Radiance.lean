import Mathlib
import SphereTracer.Proofs.Numbers.Lanes
import SphereTracer.Proofs.Program.Stage
import SphereTracer.Proofs.Trace.Worker

/-!
# The radiance equation

The light along a beam is what its first segment meets: the light of the surface or the medium there,
and a share of the light along the beam that goes on from there.  A path that is followed forward, with
a sum of light and a share that still counts, adds up the same light, over the real numbers and with
the same random numbers.
-/

namespace SphereTracer

variable {S : Type}

/-- A ray and the medium that it runs in. -/
structure Beam (S : Type) where
  origin : Vec3 S
  direction : Vec3 S
  medium : Surface S

/-- The light along a beam, and the generator after it. -/
abbrev Light (S : Type) := Beam S → Pcg → Vec3 S × Pcg

section
variable [Scalar S]

namespace Beam

/-- The direction behind a surface, not of unit length; zero where all light is reflected. -/
def bent (beam : Beam S) (air surface : Surface S) (normal : Vec3 S) (backface : Bool) : Vec3 S :=
  let eta :=
    if backface then surface.refraction / air.refraction
    else beam.medium.refraction / surface.refraction
  refract beam.direction normal eta

/-- Through a surface, if chance `u` lets it, into the medium on the other side. -/
def through? (beam : Beam S) (air surface : Surface S) (epsilon : S) (point normal : Vec3 S)
    (backface : Bool) (u : S) : Option (Beam S) :=
  if Scalar.lt u surface.transmittance then
    let bent := beam.bent air surface normal backface
    if bent.eq .zero then none
    else
      some ⟨point - .scale (5.0 * epsilon) normal, bent.normalize,
        if backface then air else surface⟩
  else none

def reflected (beam : Beam S) (epsilon : S) (point normal : Vec3 S) : Beam S :=
  ⟨point + .scale (5.0 * epsilon) normal, reflect beam.direction normal, beam.medium⟩

/-- In another direction of the same medium. -/
def scattered (beam : Beam S) (length : S) (noise : Vec2 S) : Beam S :=
  ⟨beam.origin + .scale length beam.direction, sampleSphere noise, beam.medium⟩

end Beam

/-- The light of a surface that is not black: its own, and what comes through it or, in its color,
from it. -/
def glossLight (rest : Light S) (air surface : Surface S) (epsilon : S) (point facing : Vec3 S)
    (backface : Bool) : Light S := fun beam rng =>
  let (noise, rng) : Vec2 S × Pcg := rng.drawPair
  let normal := sampleHemisphere facing surface.smoothness noise
  let (u, rng) : S × Pcg := rng.draw
  match beam.through? air surface epsilon point normal backface u with
  | some next =>
    let (light, rng) := rest next rng
    (surface.emissivity + light, rng)
  | none =>
    let (light, rng) := rest (beam.reflected epsilon point normal) rng
    (surface.emissivity + surface.color * light, rng)

/-- The light of an entity where a beam meets it; none if its normal is degenerate. -/
def entityLight (rest : Light S) (world : World S) (air : Surface S) (epsilon : S) (id : UInt32)
    (point : Vec3 S) : Light S := fun beam rng =>
  let outward := world.normal id point
  if Scalar.lt 0.5 (outward.dot outward) then
    let backface := Scalar.lt 0.0 (beam.direction.dot outward)
    let facing := if backface then -outward else outward
    let surface := world.surface id point facing beam.direction
    if surface.color.eq .zero then (surface.emissivity, rng)
    else glossLight rest air surface epsilon point facing backface beam rng
  else (.zero, rng)

/-- The light along a beam, given the light along the beams that go on from the end of its first
segment. -/
def segmentLight (rest : Light S) (world : World S) (options : Options S) (air : Surface S) :
    Light S := fun beam rng =>
  let (length, rng) := Path.freePath beam.medium rng
  match march world.closest options ⟨beam.origin, beam.direction, length⟩ with
  | .escaped => (air.color, rng)
  | .scattered =>
    let (noise, rng) : Vec2 S × Pcg := rng.drawPair
    let (light, rng) := rest (beam.scattered length noise) rng
    (beam.medium.emissivity + beam.medium.color * light, rng)
  | .hit closest point => entityLight rest world air options.epsilon closest.id point beam rng

/-- The light along a beam of at most `n` segments. -/
def beamLight (world : World S) (options : Options S) (air : Surface S) : ℕ → Light S
  | 0 => fun _ rng => (.zero, rng)
  | n + 1 => segmentLight (beamLight world options air n) world options air

end

/-! ## Sums of light -/

namespace Vec3

variable (total throughput own color light : Vec3 ℝ)

theorem add_mul_zero : total + throughput * .zero = total := by
  apply ext_axis
  intro axis
  simp

theorem zero_add_one_mul : .zero + .one * light = light := by
  apply ext_axis
  intro axis
  simp

theorem add_mul_add : total + throughput * own + throughput * light =
    total + throughput * (own + light) := by
  apply ext_axis
  intro axis
  simp only [Axis.lane_add, Axis.lane_mul]
  ring

theorem mul_mul_light : throughput * color * light = throughput * (color * light) := by
  apply ext_axis
  intro axis
  simp only [Axis.lane_mul]
  exact mul_assoc ..

theorem add_mul_add_mul : total + throughput * own + throughput * color * light =
    total + throughput * (own + color * light) := by
  rw [mul_mul_light, add_mul_add]

end Vec3

/-! ## Paths -/

namespace Path

/-- The beam along which a path goes on. -/
def beam (path : Path S) : Beam S := ⟨path.origin, path.direction, path.medium⟩

/-- What a path has gathered once it gets the light of its beam. -/
def gathers (path : Path ℝ) (light : Vec3 ℝ × Pcg) : Vec3 ℝ × Pcg :=
  (path.total + path.throughput * light.1, light.2)

/-- What a path has gathered in the end, after one segment and what follows. -/
def Step.finish (rest : Light ℝ) : Step ℝ → Vec3 ℝ × Pcg
  | .inl ended => (ended.total, ended.rng)
  | .inr next => next.gathers (rest next.beam next.rng)

variable {rest : Light ℝ} {world : World ℝ} {options : Options ℝ} {air surface : Surface ℝ}
  {epsilon : ℝ} {point normal facing : Vec3 ℝ} {backface : Bool}

/-! One lemma for each function that a segment goes through. -/

theorem finish_scatter (path : Path ℝ) (length : ℝ) :
    Step.finish rest (.inr (path.scatter length)) =
      let (noise, rng) : Vec2 ℝ × Pcg := path.rng.drawPair
      let (light, rng) := rest (path.beam.scattered length noise) rng
      path.gathers (path.medium.emissivity + path.medium.color * light, rng) := by
  refine Prod.ext ?_ rfl
  exact Vec3.add_mul_add_mul path.total path.throughput path.medium.emissivity path.medium.color _

theorem finish_reflected (path : Path ℝ) :
    Step.finish rest (.inr (path.reflected epsilon surface point normal)) =
      let (light, rng) := rest (path.beam.reflected epsilon point normal) path.rng
      path.gathers (surface.color * light, rng) := by
  refine Prod.ext ?_ rfl
  show path.total + path.throughput * surface.color * _ = _
  rw [Vec3.mul_mul_light]
  rfl

theorem leave_eq (path : Path ℝ) : path.leave air epsilon surface point normal backface =
    let (u, rng) : ℝ × Pcg := path.rng.draw
    match path.beam.through? air surface epsilon point normal backface u with
    | some next =>
      { path with origin := next.origin, direction := next.direction, medium := next.medium, rng }
    | none => { path with rng }.reflected epsilon surface point normal := by
  rw [leave]
  obtain ⟨u, rng⟩ : ℝ × Pcg := path.rng.draw
  dsimp only
  by_cases hthrough : Scalar.lt u surface.transmittance
  · by_cases htotal : (path.beam.bent air surface normal backface).eq .zero
    · have hnone : path.beam.through? air surface epsilon point normal backface u = none :=
        (if_pos hthrough).trans (if_pos htotal)
      rw [hnone]
      exact (if_pos hthrough).trans (if_pos htotal)
    · have hsome : path.beam.through? air surface epsilon point normal backface u = some _ :=
        (if_pos hthrough).trans (if_neg htotal)
      rw [hsome]
      exact (if_pos hthrough).trans (if_neg htotal)
  · have hnone : path.beam.through? air surface epsilon point normal backface u = none :=
      if_neg hthrough
    rw [hnone]
    exact if_neg hthrough

theorem finish_leave (path : Path ℝ) :
    Step.finish rest (.inr (path.leave air epsilon surface point normal backface)) =
      let (u, rng) : ℝ × Pcg := path.rng.draw
      match path.beam.through? air surface epsilon point normal backface u with
      | some next => path.gathers (rest next rng)
      | none =>
        let (light, rng) := rest (path.beam.reflected epsilon point normal) rng
        path.gathers (surface.color * light, rng) := by
  rw [leave_eq]
  obtain ⟨u, rng⟩ : ℝ × Pcg := path.rng.draw
  dsimp only
  cases path.beam.through? air surface epsilon point normal backface u with
  | some next => rfl
  | none => exact finish_reflected { path with rng }

theorem finish_shade (path : Path ℝ) :
    Step.finish rest (path.shade air epsilon surface point facing backface) =
      path.gathers (if surface.color.eq .zero then (surface.emissivity, path.rng)
        else glossLight rest air surface epsilon point facing backface path.beam path.rng) := by
  rw [shade]
  dsimp only
  by_cases hblack : surface.color.eq .zero
  · rw [if_pos hblack, if_pos hblack]
    rfl
  · rw [if_neg hblack, if_neg hblack, glossLight]
    obtain ⟨noise, rng⟩ : Vec2 ℝ × Pcg := path.rng.drawPair
    dsimp only
    rw [finish_leave]
    obtain ⟨u, rng⟩ : ℝ × Pcg := rng.draw
    dsimp only [beam]
    generalize Beam.through? _ air surface epsilon point _ backface u = through
    cases through with
    | some next => exact Prod.ext (Vec3.add_mul_add ..) rfl
    | none => exact Prod.ext (Vec3.add_mul_add ..) rfl

theorem finish_hit (path : Path ℝ) (id : UInt32) :
    Step.finish rest (path.hit world air epsilon id point) =
      path.gathers (entityLight rest world air epsilon id point path.beam path.rng) := by
  rw [hit, entityLight]
  dsimp only
  by_cases hproper : Scalar.lt 0.5 ((world.normal id point).dot (world.normal id point))
  · rw [if_pos hproper, if_pos hproper, finish_shade]
    rfl
  · rw [if_neg hproper, if_neg hproper]
    exact Prod.ext (Vec3.add_mul_zero ..).symm rfl

theorem finish_segment (path : Path ℝ) :
    Step.finish rest (path.segment world options air) =
      path.gathers (segmentLight rest world options air path.beam path.rng) := by
  rw [segment, segmentLight]
  dsimp only [beam]
  obtain ⟨length, rng⟩ : ℝ × Pcg := freePath path.medium path.rng
  dsimp only
  cases march world.closest options ⟨path.origin, path.direction, length⟩ with
  | hit closest point => exact finish_hit { path with rng } closest.id
  | scattered => exact finish_scatter { path with rng } length
  | escaped => rfl

/-- A path gathers the light of the beam along which it goes. -/
theorem follow_gathers (n : ℕ) (path : Path ℝ) :
    ((path.follow world options air n).total, (path.follow world options air n).rng) =
      path.gathers (beamLight world options air n path.beam path.rng) := by
  -- The sum and the share change from segment to segment, so the claim is about any path.
  induction n generalizing path with
  | zero => exact Prod.ext (Vec3.add_mul_zero ..).symm rfl
  | succ n ih =>
    rw [follow, beamLight, ← finish_segment]
    cases path.segment world options air with
    | inl ended => rfl
    | inr next => exact ih next

end Path

/-- A path starts with no light and the whole share. -/
theorem trace_eq_beamLight (world : World ℝ) (options : Options ℝ) (air : Surface ℝ)
    (origin direction : Vec3 ℝ) (rng : Pcg) :
    trace world options air origin direction rng =
      beamLight world options air options.bounces.toNat ⟨origin, direction, air⟩ rng := by
  rw [trace, Path.follow_gathers]
  exact Prod.ext (Vec3.zero_add_one_mul _) rfl

/-- The sum that a path gathers, and the generator that it leaves, are those of the recursion along
its beam: for every world, whatever it answers, and for every interpreter of a program that is asked
in place from segment to segment. -/
theorem radiance_equation (options : Options ℝ) (air : Surface ℝ) (origin direction : Vec3 ℝ)
    (rng : Pcg) :
    (∀ world : World ℝ, trace world options air origin direction rng =
      beamLight world options air options.bounces.toNat ⟨origin, direction, air⟩ rng) ∧
    ∀ (program : Program) (environment : Environment ℝ), program.WellFormed →
      ∀ it : Interpreter ℝ, it.Of program environment →
        (it.trace options air origin direction rng).1 =
          beamLight it.world options air options.bounces.toNat ⟨origin, direction, air⟩ rng := by
  constructor
  · intro world
    exact trace_eq_beamLight world options air origin direction rng
  · intro program environment hw it hit
    rw [(Interpreter.gives_trace (hit.world hw) options air origin direction rng it hit).1]
    exact trace_eq_beamLight it.world options air origin direction rng

open Kernel in
/-- The paths of the stage, with the eight segments that they have by default. -/
theorem radiance_equation_stage :
    ∃ program, Program.ofScene (stage [ground, ball]) .standard = .ok program ∧
      ∀ (u : Uniforms) (origin direction : Vec3 ℝ) (rng : Pcg),
        let tracer : Tracer ℝ := .new program u
        let air := tracer.view.air
        ((Interpreter.new program u.environment).trace tracer.options air origin direction rng).1 =
          beamLight tracer.world tracer.options air 8 ⟨origin, direction, air⟩ rng := by
  obtain ⟨-, program, hprogram⟩ := exists_program_swapped
  obtain ⟨hw, -, hoptions⟩ := Program.spec_of_ofScene hprogram
  refine ⟨program, hprogram, fun u origin direction rng => ?_⟩
  intro tracer air
  have hcount : tracer.options.bounces.toNat = 8 := by
    show program.options.bounces.toNat = 8
    rw [hoptions]
    rfl
  rw [← hcount]
  obtain ⟨-, hplace⟩ := radiance_equation tracer.options air origin direction rng
  exact hplace program u.environment hw _ (Interpreter.of_new program u.environment)

end SphereTracer
