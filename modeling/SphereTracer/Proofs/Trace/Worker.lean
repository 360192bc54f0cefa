import SphereTracer.Trace.Worker
import SphereTracer.Proofs.Interpreter.Memory

/-!
# Workers trace like tracers

A worker hands one interpreter from question to question, and the paths of one pixel leave their
values in the slots for the next.  As no answer depends on the slots, each function that asks in
place gives what its counterpart gives that asks a world.
-/

namespace SphereTracer

open Interpreter (Gives)

section
variable {S : Type} {program : Program} {environment : Environment S}

/-- A question that has an answer has the one that any interpreter gives. -/
theorem Interpreter.Gives.of_exists {α : Type} {question : Interpreter S → α × Interpreter S}
    (h : ∃ a, Gives program environment question a) {it : Interpreter S}
    (hit : it.Of program environment) : Gives program environment question (question it).1 := by
  obtain ⟨a, ha⟩ := h
  rwa [(ha it hit).1]

end

variable {S : Type} [Scalar S] {program : Program} {environment : Environment S}

/-- Every interpreter of the program in the environment answers like the world. -/
structure World.Of (program : Program) (environment : Environment S) (world : World S) : Prop where
  closest : ∀ p, Gives program environment (·.closest p) (world.closest p)
  normal : ∀ id p, Gives program environment (·.normal id p) (world.normal id p)
  surface : ∀ id p n d, Gives program environment (·.material id p n d) (world.surface id p n d)

namespace Interpreter

/-- The answers that an interpreter gives from any slots are a world. -/
theorem Of.world (hw : program.WellFormed) {it : Interpreter S} (hit : it.Of program environment) :
    it.world.Of program environment where
  closest p := .of_exists (exists_gives_closest hw p) hit
  normal id p := .of_exists (exists_gives_normal hw id p) hit
  surface id p n d := .of_exists (exists_gives_material hw id p n d) hit

/-! ## Paths -/

variable {world : World S}

theorem gives_marchFrom (hworld : world.Of program environment) (epsilon stepFactor : S)
    (ray : Ray S) (n : Nat) (point : Vec3 S) (travelled : S) :
    Gives program environment (marchFrom epsilon stepFactor ray n point travelled)
      (SphereTracer.marchFrom world.closest epsilon stepFactor ray n point travelled) := by
  induction n generalizing point travelled with
  | zero => exact .pure _
  | succ n ih =>
    intro it hit
    obtain ⟨hnearest, hafter⟩ := hworld.closest point it hit
    rw [marchFrom, SphereTracer.marchFrom, ← hnearest]
    dsimp only
    split
    · exact ⟨rfl, hafter⟩
    · split
      · exact ⟨rfl, hafter⟩
      · exact ih _ _ _ hafter

theorem gives_march (hworld : world.Of program environment) (options : Options S) (ray : Ray S) :
    Gives program environment (march options ray)
      (SphereTracer.march world.closest options ray) :=
  (gives_marchFrom hworld options.epsilon options.stepFactor ray options.steps.toNat ray.origin
    0.0).map Prod.fst

theorem gives_hit (hworld : world.Of program environment) (air : Surface S) (epsilon : S)
    (path : Path S) (id : UInt32) (point : Vec3 S) :
    Gives program environment (hit air epsilon path id point)
      (path.hit world air epsilon id point) := by
  intro it hit
  obtain ⟨houtward, hafter⟩ := hworld.normal id point it hit
  rw [Interpreter.hit, Path.hit, ← houtward]
  dsimp only
  split
  · obtain ⟨hsurface, hafter⟩ := hworld.surface id point _ path.direction _ hafter
    rw [← hsurface]
    exact ⟨rfl, hafter⟩
  · exact ⟨rfl, hafter⟩

theorem gives_segment (hworld : world.Of program environment) (options : Options S)
    (air : Surface S) (path : Path S) :
    Gives program environment (segment options air path) (path.segment world options air) := by
  intro it hit
  rw [segment, Path.segment]
  obtain ⟨length, rng⟩ := Path.freePath path.medium path.rng
  obtain ⟨hending, hafter⟩ :=
    gives_march hworld options ⟨path.origin, path.direction, length⟩ it hit
  dsimp only
  rw [← hending]
  -- Of the interpreter that the march leaves behind nothing counts but that it serves the program.
  generalize march options _ it = marched at hafter ⊢
  obtain ⟨ending, it⟩ := marched
  cases ending with
  | hit closest point => exact gives_hit hworld air options.epsilon _ _ _ it hafter
  | scattered => exact ⟨rfl, hafter⟩
  | escaped => exact ⟨rfl, hafter⟩

theorem gives_follow (hworld : world.Of program environment) (options : Options S)
    (air : Surface S) (n : Nat) (path : Path S) :
    Gives program environment (follow options air n path)
      (path.follow world options air n) := by
  induction n generalizing path with
  | zero => exact .pure _
  | succ n ih =>
    intro it hit
    obtain ⟨hstep, hafter⟩ := gives_segment hworld options air path it hit
    rw [follow, Path.follow, ← hstep]
    generalize segment options air path it = stepped at hafter ⊢
    obtain ⟨step, it⟩ := stepped
    cases step with
    | inl ended => exact ⟨rfl, hafter⟩
    | inr next => exact ih next it hafter

theorem gives_trace (hworld : world.Of program environment) (options : Options S)
    (air : Surface S) (origin direction : Vec3 S) (rng : Pcg) :
    Gives program environment (trace options air origin direction rng)
      (SphereTracer.trace world options air origin direction rng) :=
  (gives_follow hworld options air options.bounces.toNat _).map fun path => (path.total, path.rng)

end Interpreter

/-! ## Pixels -/

/-- Tracers and workers of one frame have the same shot, as they see the same camera and air. -/
theorem Worker.toShot_new (program : Program) (u : Uniforms) :
    (Worker.new program u : Worker S).toShot = (Tracer.new program u : Tracer S).toShot :=
  rfl

/-- The worker takes the shot of the frame, and its interpreter serves the program. -/
structure Worker.Of (program : Program) (u : Uniforms) (worker : Worker S) : Prop where
  shot : worker.toShot = (Tracer.new program u).toShot
  interpreter : worker.interpreter.Of program u.environment

theorem Worker.of_new (hw : program.WellFormed) (u : Uniforms) :
    (Worker.new program u : Worker S).Of program u where
  shot := toShot_new program u
  interpreter := by
    have hexists : ∃ f : Frame S, Gives program u.environment (·.frame) f :=
      Interpreter.exists_gives_frame hw
    obtain ⟨_, hframe⟩ := hexists
    exact (hframe _ (Interpreter.of_new program u.environment)).2

theorem Tracer.world_new (hw : program.WellFormed) (u : Uniforms) :
    (Tracer.new program u : Tracer S).world.Of program u.environment :=
  (Interpreter.of_new program u.environment).world hw

theorem Shot.gives_sumPaths (tracer : Tracer S) (hworld : tracer.world.Of program environment)
    (x y : UInt32) (n : Nat) (total : Vec3 S) (rng : Pcg) :
    Gives program environment (tracer.toShot.sumPaths x y n total rng)
      (tracer.sumPaths x y n total rng) := by
  induction n generalizing total rng with
  | zero => exact .pure _
  | succ n ih =>
    exact (Interpreter.gives_trace hworld tracer.options tracer.view.air _ _ _).bind
      (fun traced it => tracer.toShot.sumPaths x y n (total + traced.1) traced.2 it) (ih _ _)

/-- A worker adds the light to a pixel that the tracer of its frame adds, and goes on as a worker of
that frame. -/
theorem Worker.Of.radiance (hw : program.WellFormed) {u : Uniforms} {worker : Worker S}
    (h : worker.Of program u) (x y : UInt32) :
    (worker.radiance x y).1 = (Tracer.new program u).radiance x y ∧
      (worker.radiance x y).2.Of program u := by
  obtain ⟨shot, it⟩ := worker
  obtain ⟨hshot, hit⟩ := h
  dsimp only at hshot
  subst hshot
  let tracer : Tracer S := .new program u
  obtain ⟨hsum, hafter⟩ := Shot.gives_sumPaths tracer (Tracer.world_new hw u) x y
    tracer.options.iterations.toNat .zero (.forPixel tracer.uniforms x y) it hit
  exact ⟨congrArg Shot.lightOfSum hsum, rfl, hafter⟩

/-- So it gives the pixel what the tracer gives. -/
theorem Worker.Of.accumulate (hw : program.WellFormed) {u : Uniforms} {worker : Worker S}
    (h : worker.Of program u) (x y : UInt32) (history : Vec4 S) :
    (worker.accumulate x y history).1 = (Tracer.new program u).accumulate x y history ∧
      (worker.accumulate x y history).2.Of program u := by
  obtain ⟨hlight, hafter⟩ := h.radiance hw x y
  refine ⟨?_, hafter⟩
  show (worker.radiance x y).2.expose history (worker.radiance x y).1 = _
  rw [hafter.shot, hlight]
  rfl

end SphereTracer
