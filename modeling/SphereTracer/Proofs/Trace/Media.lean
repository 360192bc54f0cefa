import SphereTracer.Proofs.Numbers.Nonnegative
import SphereTracer.Proofs.Trace.Events
import SphereTracer.Proofs.Trace.Hits

/-!
# Media that never scatter

In a medium whose mean free path is not positive, or too long, the free path is unbounded.  The
nearest surface is never further away than the greatest distance, so that no march comes that far: the
steps are too few if their lengths are added exactly, and a rounded sum stops growing long before.
-/

namespace SphereTracer

open Finset (range)

section
variable {S σ : Type} [Scalar S]

/-! ## What is nearest -/

/-- A distance to what is nearest is the greatest one, or a magnitude that is less than another. -/
theorem Interpreter.distance_closest {P : S → Prop} (hnone : P maxDistance)
    (hoffer : ∀ d best, P best → Scalar.lt (Scalar.abs d) best → P (Scalar.abs d))
    (it : Interpreter S) (p : Vec3 S) : P (it.closest p).1.distance := by
  rw [Interpreter.closest, ← Array.foldl_toList]
  refine List.foldlRecOn (motive := fun found : Closest S × Interpreter S => P found.1.distance)
    it.program.entities.toList _ hnone fun found h e _ => ?_
  obtain ⟨best, later⟩ := found
  dsimp only [Closest.offer]
  split
  · next hlt => exact hoffer _ _ h hlt
  · exact h

/-! ## The distance travelled -/

section
variable {ask : σ → Vec3 S → Closest S × σ} {options : Options S} {ray : Ray S} {P : ℕ → S → Prop}
  (hzero : P 0 0.0)
  (hstep : ∀ k t oracle p, P k t →
    P (k + 1) (t + (ask oracle p).1.distance * options.stepFactor))

include hzero hstep

theorem Ray.travelled_sample (oracle : σ) (k : ℕ) :
    P k (ray.sample ask options oracle k).travelled := by
  induction k with
  | zero => exact hzero
  | succ k ih =>
    rw [Ray.sample, Function.iterate_succ_apply']
    exact hstep k _ _ _ ih

/-- A march does not scatter if no sum of its steps comes up to the free path. -/
theorem marchBy_ne_scattered {n : ℕ}
    (hbelow : ∀ k ≤ n, ∀ t, P k t → ¬ Scalar.le ray.scatter t) (oracle : σ) :
    marchBy ask options ray n ⟨ray.origin, 0.0, oracle⟩ ≠ .scattered := by
  intro hscattered
  have hfirst : FirstEvent ask options ray (ray.sample ask options oracle) n
      (marchBy ask options ray n ⟨ray.origin, 0.0, oracle⟩) := marchBy_firstEvent n _
  obtain ⟨k, -, hk, hover, -⟩ := hfirst.scattered.1 hscattered
  exact hbelow k hk _ (Ray.travelled_sample hzero hstep oracle k) hover.2

end

/-- The same for marches in the world of an interpreter, and in place. -/
theorem march_ne_scattered {options : Options S} {ray : Ray S} {P : ℕ → S → Prop} (hzero : P 0 0.0)
    (hstep : ∀ k t (it : Interpreter S) p, P k t →
      P (k + 1) (t + (it.closest p).1.distance * options.stepFactor))
    (hbelow : ∀ k ≤ options.steps.toNat, ∀ t, P k t → ¬ Scalar.le ray.scatter t)
    (it : Interpreter S) :
    march it.world.closest options ray ≠ .scattered ∧ (it.march options ray).1 ≠ .scattered := by
  constructor
  · have hworld : ∀ k t (_ : Unit) p, P k t →
        P (k + 1) (t + (it.world.closest p).distance * options.stepFactor) :=
      fun k t _ p => hstep k t it p
    rw [march, marchFrom_eq_marchBy]
    exact marchBy_ne_scattered hzero hworld hbelow ()
  · change (Interpreter.marchFrom _ _ _ _ _ _ it).1.1 ≠ _
    rw [Interpreter.marchFrom_eq_marchBy]
    exact marchBy_ne_scattered hzero hstep hbelow it

end

/-! ## Rounded sums -/

namespace Binary32

/-- Whatever the distances of the entities are, the least of them is a number, and in range. -/
theorem closest_in_range (it : Interpreter Float32) (p : Vec3 Float32) :
    0.0 ≤ (it.closest p).1.distance ∧ (it.closest p).1.distance ≤ maxDistance := by
  refine it.distance_closest (P := fun d => 0.0 ≤ d ∧ d ≤ maxDistance) (by decide) ?_ p
  intro d best hbest hlt
  have hless : d.abs < best := decide_eq_true_iff.1 hlt
  exact ⟨zero_le_abs (not_isNaN_of_lt hless).1, le_trans (le_of_lt hless) hbest.2⟩

theorem within_closest (it : Interpreter Float32) (p : Vec3 Float32) :
    Within 34 (it.closest p).1.distance := by
  obtain ⟨hzero, hle⟩ := closest_in_range it p
  exact within_of_zero_le hzero (le_trans hle (show (1e10 : Float32) ≤ 17179869184.0 by decide))
    (by decide)

theorem march_ne_scattered {options : Options Float32} (hfactor : Within 0 options.stepFactor)
    (origin direction : Vec3 Float32) (it : Interpreter Float32) :
    march it.world.closest options ⟨origin, direction, unbounded⟩ ≠ .scattered ∧
      (it.march options ⟨origin, direction, unbounded⟩).1 ≠ .scattered := by
  refine SphereTracer.march_ne_scattered (P := fun _ t => Within 64 t) (within_zero 64)
    (fun k t it p ht => within_step ht (within_closest it p) hfactor) (fun k _ t ht hle => ?_) it
  exact not_unbounded_le ht (decide_eq_true_iff.1 hle)

/-- A mean free path that is not positive, not a number or too long is none. -/
theorem freePath_eq {medium : Surface Float32}
    (h : medium.scatter ≤ 0.0 ∨ medium.scatter.isNaN ∨ maxDistance ≤ medium.scatter) (rng : Pcg) :
    Path.freePath medium rng = (unbounded, rng) := by
  refine Path.freePath_eq (fun hscatters => ?_) rng
  have hpos : 0.0 < medium.scatter := decide_eq_true_iff.1 hscatters.1
  have hshort : medium.scatter < maxDistance := decide_eq_true_iff.1 hscatters.2
  rcases h with hle | hnan | hge
  · exact not_lt_of_le hle hpos
  · exact (not_isNaN_of_lt hpos).2 hnan
  · exact not_lt_of_le hge hshort

end Binary32

/-! ## Exact sums -/

theorem real_maxDistance : (maxDistance : ℝ) = 10 ^ 10 := by
  show OfScientific.ofScientific 1 false 10 = (10 ^ 10 : ℝ)
  norm_num

theorem real_unbounded : (unbounded : ℝ) = 3 * 10 ^ 38 := by
  show OfScientific.ofScientific 30 false 37 = (3 * 10 ^ 38 : ℝ)
  norm_num

theorem closest_in_range_real (it : Interpreter ℝ) (p : Vec3 ℝ) :
    0 ≤ (it.closest p).1.distance ∧ (it.closest p).1.distance ≤ 10 ^ 10 := by
  refine it.distance_closest (P := fun d => 0 ≤ d ∧ d ≤ 10 ^ 10) ?_ ?_ p
  · rw [show (@maxDistance ℝ Scalar.toOfScientific : ℝ) = 10 ^ 10 from real_maxDistance]
    norm_num
  · intro d best hbest hlt
    exact ⟨abs_nonneg d, (real_lt_iff.1 hlt).le.trans hbest.2⟩

theorem freePath_eq_real {medium : Surface ℝ}
    (h : medium.scatter ≤ 0 ∨ maxDistance ≤ medium.scatter) (rng : Pcg) :
    Path.freePath medium rng = (unbounded, rng) := by
  refine Path.freePath_eq (fun hscatters => ?_) rng
  rw [real_lt_iff, real_lt_iff, real_zero] at hscatters
  exact h.elim (not_le.2 hscatters.1) (not_le.2 hscatters.2)

/-- Exactly added, a step comes at most the greatest distance further. -/
theorem march_ne_scattered_real {options : Options ℝ}
    (hfactor : 0 ≤ options.stepFactor ∧ options.stepFactor ≤ 1)
    (hsteps : options.steps ≤ Options.maxCount) (origin direction : Vec3 ℝ) (it : Interpreter ℝ) :
    march it.world.closest options ⟨origin, direction, unbounded⟩ ≠ .scattered ∧
      (it.march options ⟨origin, direction, unbounded⟩).1 ≠ .scattered := by
  have hcount : options.steps.toNat ≤ 2147483647 := UInt32.le_iff_toNat_le.1 hsteps
  refine march_ne_scattered (P := fun (k : ℕ) (t : ℝ) => t ≤ k * 10 ^ 10) ?_ (fun k t it p ht => ?_)
    (fun k hk t ht => ?_) it
  · rw [real_zero, Nat.cast_zero, zero_mul]
  · obtain ⟨hzero, hle⟩ := closest_in_range_real it p
    have hstep : (it.closest p).1.distance * options.stepFactor ≤ 10 ^ 10 :=
      (mul_le_of_le_one_right hzero hfactor.2).trans hle
    push_cast
    linarith
  · have hk : (k : ℝ) ≤ 2147483647 := by exact_mod_cast hk.trans hcount
    rw [real_le_iff, real_unbounded]
    linarith

/-- Rounded distances, added exactly: even the most steps do not come up to the free path. -/
theorem sum_steps_lt (distance : Vec3 Float32 → Float32) {stepFactor : Word}
    (hdistance : ∀ p, Binary32.Within 34 (distance p))
    (hfactor : Binary32.Within 0 stepFactor.toFloat) (points : ℕ → Vec3 Float32) {n : ℕ}
    (hn : n ≤ 2147483647) :
    ∑ i ∈ range n, (Word.ofFloat (distance (points i))).toReal * stepFactor.toReal <
      (Word.ofFloat unbounded).toReal := by
  obtain ⟨hzero, hone⟩ := Binary32.toReal_of_within hfactor
  rw [zpow_zero] at hone
  have hstep : ∀ i ∈ range n,
      (Word.ofFloat (distance (points i))).toReal * stepFactor.toReal ≤ 2 ^ 34 := by
    intro i _
    have hwithin : Binary32.Within 34 (Word.ofFloat (distance (points i))).toFloat := by
      rw [toFloat_ofFloat]
      exact hdistance (points i)
    obtain ⟨hpos, hle⟩ := Binary32.toReal_of_within hwithin
    exact (mul_le_of_le_one_right hpos hone).trans hle
  have hunbounded : (Word.ofFloat unbounded).toReal = (14791142 : ℤ) * 2 ^ (104 : ℤ) :=
    Binary32.toReal_of_rank (by decide +kernel)
  have hcount : (n : ℝ) ≤ 2147483647 := by exact_mod_cast hn
  calc ∑ i ∈ range n, (Word.ofFloat (distance (points i))).toReal * stepFactor.toReal
      ≤ (range n).card • (2 : ℝ) ^ 34 := Finset.sum_le_card_nsmul _ _ _ hstep
    _ = n * 2 ^ 34 := by rw [Finset.card_range, nsmul_eq_mul]
    _ ≤ 2147483647 * 2 ^ 34 := by gcongr
    _ < (Word.ofFloat unbounded).toReal := by
      rw [hunbounded]
      norm_num

/-! ## Segments -/

/-- A segment that does not scatter ends at a surface or in the air. -/
theorem Path.segment_of_ne_scattered {S : Type} [Scalar S] {world : World S} {options : Options S}
    {path : Path S} (hfree : freePath path.medium path.rng = (unbounded, path.rng))
    (hmarch : march world.closest options ⟨path.origin, path.direction, unbounded⟩ ≠ .scattered)
    (air : Surface S) :
    (∃ (closest : Closest S) (point : Vec3 S),
      path.segment world options air = path.hit world air options.epsilon closest.id point) ∨
    path.segment world options air =
      .inl { path with total := path.total + path.throughput * air.color } := by
  rw [segment, hfree]
  dsimp only
  cases h : march world.closest options ⟨path.origin, path.direction, unbounded⟩ with
  | hit closest point => exact .inl ⟨closest, point, rfl⟩
  | scattered => exact absurd h hmarch
  | escaped => exact .inr rfl

/-! ## Programs -/

/-- In a program whose options are in their ranges, a medium that never scatters never does.  Nothing
is drawn for its free path, and whatever the distances of the entities are, what is nearest is a number
in range; so a segment ends at a surface or in the air, in a tracer's world and in place.  That holds
as numbers are rounded, for any number of steps.  It holds as well if the rounded steps are added
exactly, wherever they are made, and over the real numbers. -/
theorem media_never_scatter {program : Program} (hvalid : program.options.validate = .ok ())
    (u : Uniforms) :
    let tracer : Tracer Float32 := .new program u
    let exactly : Tracer ℝ := .new program u
    (∀ p, 0.0 ≤ (tracer.world.closest p).distance ∧
      (tracer.world.closest p).distance ≤ maxDistance) ∧
    (∀ path : Path Float32, path.medium.scatter ≤ 0.0 ∨ path.medium.scatter.isNaN ∨
        maxDistance ≤ path.medium.scatter →
      let ray : Ray Float32 :=
        ⟨path.origin, path.direction, (Path.freePath path.medium path.rng).1⟩
      Path.freePath path.medium path.rng = (unbounded, path.rng) ∧
      tracer.march ray ≠ .scattered ∧
      (∀ it : Interpreter Float32, (it.march tracer.options ray).1 ≠ .scattered) ∧
      ∀ air, (∃ (closest : Closest Float32) (point : Vec3 Float32),
          path.segment tracer.world tracer.options air =
            path.hit tracer.world air tracer.options.epsilon closest.id point) ∨
        path.segment tracer.world tracer.options air =
          .inl { path with total := path.total + path.throughput * air.color }) ∧
    (∀ (points : ℕ → Vec3 Float32) (n : ℕ), n ≤ tracer.options.steps.toNat →
      ∑ i ∈ range n, (Word.ofFloat (tracer.world.closest (points i)).distance).toReal *
        program.options.stepFactor.toReal < (Word.ofFloat unbounded).toReal) ∧
    ∀ path : Path ℝ, path.medium.scatter ≤ 0 ∨ maxDistance ≤ path.medium.scatter →
      let ray : Ray ℝ := ⟨path.origin, path.direction, (Path.freePath path.medium path.rng).1⟩
      exactly.march ray ≠ .scattered ∧
        ∀ it : Interpreter ℝ, (it.march exactly.options ray).1 ≠ .scattered := by
  intro tracer exactly
  obtain ⟨hpos, hle⟩ := (Options.validate_eq_ok_iff.1 hvalid).stepFactor
  have hsteps : program.options.steps ≤ Options.maxCount :=
    (Options.validate_eq_ok_iff.1 hvalid).steps.2
  have hcount : program.options.steps.toNat ≤ 2147483647 := UInt32.le_iff_toNat_le.1 hsteps
  have hfactor : Binary32.Within 0 program.options.stepFactor.toFloat :=
    Binary32.within_zero_of_le_one (Binary32.le_of_lt hpos) hle
  have hrounded : Binary32.Within 0 (program.options.map Scalar.ofWord : Options Float32).stepFactor :=
    hfactor
  refine ⟨fun p => ?_, fun path hmedium => ?_, fun points n hn => ?_, fun path hmedium => ?_⟩
  · exact Binary32.closest_in_range (.new program u.environment) p
  · have hfree := Binary32.freePath_eq hmedium path.rng
    have hmarch := Binary32.march_ne_scattered hrounded path.origin path.direction
    have hworld := (hmarch (.new program u.environment)).1
    rw [hfree]
    exact ⟨rfl, hworld, fun it => (hmarch it).2, Path.segment_of_ne_scattered hfree hworld⟩
  · exact sum_steps_lt _ (Binary32.within_closest (.new program u.environment)) hfactor points
      (Nat.le_trans hn hcount)
  · obtain ⟨hzero, hone⟩ := Binary32.toReal_of_within hfactor
    rw [zpow_zero] at hone
    have hexact : 0 ≤ (program.options.map Scalar.ofWord : Options ℝ).stepFactor ∧
        (program.options.map Scalar.ofWord : Options ℝ).stepFactor ≤ 1 := ⟨hzero, hone⟩
    have hmarch := march_ne_scattered_real hexact hsteps path.origin path.direction
    rw [freePath_eq_real hmedium]
    exact ⟨(hmarch (.new program u.environment)).1, fun it => (hmarch it).2⟩

/-- A path from the origin into a medium that differs from a black one in its mean free path. -/
def pathThrough {S : Type} [Scalar S] (scatter : S) : Path S :=
  .start { Surface.absorber with scatter } .zero .unitZ ⟨0⟩

open Kernel in
/-- Around the ball, media without a mean free path, with one that is not a number, and with the
greatest one. -/
theorem media_never_scatter_stage :
    ∃ kernel, Kernel.ofScene (stage [ball]) .standard = .ok kernel ∧
      kernel.program.options.validate = .ok () ∧
      let tracer : Tracer Float32 := .new kernel.program (.ofSize 1 1)
      (∀ scatter ∈ [0.0, 0.0 / 0.0, maxDistance],
        (scatter ≤ 0.0 ∨ scatter.isNaN ∨ maxDistance ≤ scatter) ∧
        tracer.march ⟨.zero, .unitZ, (Path.freePath (pathThrough scatter).medium ⟨0⟩).1⟩ ≠
          .scattered) ∧
      100 ≤ tracer.options.steps.toNat ∧
      ∑ _ ∈ range 100, (Word.ofFloat (tracer.world.closest .zero).distance).toReal *
        kernel.program.options.stepFactor.toReal < (Word.ofFloat unbounded).toReal ∧
      (pathThrough (0 : ℝ)).medium.scatter ≤ 0 ∧
      (Tracer.new kernel.program (.ofSize 1 1) : Tracer ℝ).march
        ⟨.zero, .unitZ, (Path.freePath (pathThrough (0 : ℝ)).medium ⟨0⟩).1⟩ ≠ .scattered := by
  obtain ⟨-, program, hprogram⟩ := exists_program_ball
  obtain ⟨hw, -, hoptions⟩ := Program.spec_of_ofScene hprogram
  obtain ⟨-, hrounded, hadded, hexact⟩ := media_never_scatter hw.options (.ofSize 1 1)
  have hnever : ∀ scatter ∈ [0.0, 0.0 / 0.0, maxDistance],
      scatter ≤ 0.0 ∨ scatter.isNaN ∨ (maxDistance : Float32) ≤ scatter := by decide
  have hsteps : 100 ≤ (Tracer.new program (.ofSize 1 1) : Tracer Float32).options.steps.toNat := by
    show 100 ≤ program.options.steps.toNat
    rw [hoptions]
    decide
  refine ⟨_, Kernel.ofScene_eq_ok_iff.2 ⟨program, hprogram, rfl⟩, hw.options, ?_⟩
  exact ⟨fun scatter h => ⟨hnever scatter h, (hrounded (pathThrough scatter) (hnever scatter h)).2.1⟩,
    hsteps, hadded (fun _ => .zero) 100 hsteps, le_rfl, (hexact (pathThrough 0) (.inl le_rfl)).1⟩

end SphereTracer
