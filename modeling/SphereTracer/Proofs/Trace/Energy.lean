import Mathlib
import SphereTracer.Proofs.Trace.Hits
import SphereTracer.Proofs.Trace.Radiance

/-!
# Energy

The light along a beam is made of the light of the air and of the surfaces by sums and by products with
their colors.  What such sums and products keep holds of the light of every path: that it is not
negative, and that it is bounded by what the surfaces emit, where no color is greater than one.
-/

namespace SphereTracer

/-! ## What beams carry -/

/-- What is claimed of the light along beams of at most `n` segments, for every `n`, holds of darkness
and of the air, and is kept by the surfaces of which `P` holds. -/
structure Balanced (P : Surface ℝ → Prop) (air : Surface ℝ) (Q : ℕ → Vec3 ℝ → Prop) : Prop where
  dark : ∀ n, Q n .zero
  escaped : ∀ n, Q (n + 1) air.color
  through : ∀ {n surface light}, P surface → Q n light → Q (n + 1) (surface.emissivity + light)
  colored : ∀ {n surface light}, P surface → Q n light →
    Q (n + 1) (surface.emissivity + surface.color * light)

/-- The light along all beams that run in such media. -/
def Light.Carries (P : Surface ℝ → Prop) (Q : Vec3 ℝ → Prop) (light : Light ℝ) : Prop :=
  ∀ beam rng, P beam.medium → Q (light beam rng).1

theorem Beam.through?_medium {beam next : Beam ℝ} {air surface : Surface ℝ} {epsilon u : ℝ}
    {point normal : Vec3 ℝ} {backface : Bool}
    (h : beam.through? air surface epsilon point normal backface u = some next) :
    next.medium = air ∨ next.medium = surface := by
  unfold through? at h
  split at h
  · dsimp only at h
    split at h
    · cases h
    · cases h
      cases backface
      · exact .inr rfl
      · exact .inl rfl
  · cases h

namespace Balanced

section
variable {P : Surface ℝ → Prop} {air surface : Surface ℝ} {Q : ℕ → Vec3 ℝ → Prop} {n : ℕ}
  {rest : Light ℝ} {world : World ℝ} (h : Balanced P air Q) (hair : P air)

include h

/-- What is behind a black surface is like darkness. -/
theorem emitted (hsurface : P surface) : Q (n + 1) surface.emissivity := by
  have hdark := h.colored hsurface (h.dark n)
  rwa [Vec3.add_mul_zero] at hdark

include hair

theorem glossLight (hrest : rest.Carries P (Q n)) (hsurface : P surface) (epsilon : ℝ)
    (point facing : Vec3 ℝ) (backface : Bool) :
    (glossLight rest air surface epsilon point facing backface).Carries P (Q (n + 1)) := by
  intro beam rng hbeam
  rw [SphereTracer.glossLight]
  obtain ⟨noise, rng⟩ : Vec2 ℝ × Pcg := rng.drawPair
  dsimp only
  obtain ⟨u, rng⟩ : ℝ × Pcg := rng.draw
  dsimp only
  generalize hthrough : beam.through? air surface epsilon point _ backface u = through
  cases through with
  | some next =>
    have hnext : P next.medium := by
      rcases Beam.through?_medium hthrough with heq | heq
      · exact heq ▸ hair
      · exact heq ▸ hsurface
    exact h.through hsurface (hrest next rng hnext)
  | none => exact h.colored hsurface (hrest _ rng hbeam)

variable (hworld : ∀ id p n d, P (world.surface id p n d))

include hworld

theorem entityLight (hrest : rest.Carries P (Q n)) (epsilon : ℝ) (id : UInt32) (point : Vec3 ℝ) :
    (entityLight rest world air epsilon id point).Carries P (Q (n + 1)) := by
  intro beam rng hbeam
  rw [SphereTracer.entityLight]
  dsimp only
  split
  · generalize Scalar.lt 0.0 (beam.direction.dot (world.normal id point)) = backface
    generalize (if backface = true then -world.normal id point else world.normal id point) = facing
    have hsurface := hworld id point facing beam.direction
    split
    · exact h.emitted hsurface
    · exact h.glossLight hair hrest hsurface epsilon point facing backface beam rng hbeam
  · exact h.dark (n + 1)

theorem segmentLight (hrest : rest.Carries P (Q n)) (options : Options ℝ) :
    (segmentLight rest world options air).Carries P (Q (n + 1)) := by
  intro beam rng hbeam
  rw [SphereTracer.segmentLight]
  obtain ⟨length, rng⟩ : ℝ × Pcg := Path.freePath beam.medium rng
  dsimp only
  split
  · exact h.escaped n
  · exact h.colored hbeam (hrest _ _ hbeam)
  · exact h.entityLight hair hworld hrest options.epsilon _ _ beam rng hbeam

theorem beamLight (options : Options ℝ) (n : ℕ) :
    (beamLight world options air n).Carries P (Q n) := by
  -- By induction on the segments that are left; the hypothesis is about the light of the rest of a
  -- beam.
  induction n with
  | zero => exact fun _ _ _ => h.dark 0
  | succ n ih => exact h.segmentLight hair hworld ih options

theorem trace (options : Options ℝ) (origin direction : Vec3 ℝ) (rng : Pcg) :
    Q options.bounces.toNat (trace world options air origin direction rng).1 := by
  rw [trace_eq_beamLight]
  exact h.beamLight hair hworld options _ _ _ hair

end

end Balanced

/-! ## Bounds -/

/-- No lane of the color or of the emitted light is negative. -/
structure Surface.Nonneg (surface : Surface ℝ) : Prop where
  color : surface.color.Nonneg
  emissivity : surface.emissivity.Nonneg

/-- It sends back no more than it gets, and emits at most `own`. -/
structure Surface.Within (own : Vec3 ℝ) (surface : Surface ℝ) : Prop extends surface.Nonneg where
  color_le : surface.color.AtMost .one
  emissivity_le : surface.emissivity.AtMost own

namespace Balanced

variable {air : Surface ℝ} {own : Vec3 ℝ}

theorem nonneg (hair : air.Nonneg) :
    Balanced Surface.Nonneg air fun _ light => light.Nonneg where
  dark _ := .refl _
  escaped _ := hair.color
  through hsurface hlight := Vec3.nonneg_add hsurface.emissivity hlight
  colored hsurface hlight :=
    Vec3.nonneg_add hsurface.emissivity (Vec3.nonneg_mul hsurface.color hlight)

/-- A bound that leaves room for the air and grows by what surfaces emit.  Products with colors keep
it, as long as the light is not negative. -/
theorem bounded (hair : air.Nonneg) {bound : ℕ → Vec3 ℝ} (hbound : ∀ n, (bound n).Nonneg)
    (hescaped : ∀ n, air.color.AtMost (bound (n + 1)))
    (hgrows : ∀ n, (own + bound n).AtMost (bound (n + 1))) :
    Balanced (Surface.Within own) air fun n light => light.Nonneg ∧ light.AtMost (bound n) where
  dark n := ⟨.refl _, hbound n⟩
  escaped n := ⟨hair.color, hescaped n⟩
  through hsurface hlight :=
    ⟨Vec3.nonneg_add hsurface.emissivity hlight.1,
      (hsurface.emissivity_le.add hlight.2).trans (hgrows _)⟩
  colored hsurface hlight := by
    have hle := (hsurface.color_le.mul_of_one hlight.1).trans hlight.2
    exact ⟨Vec3.nonneg_add hsurface.emissivity (Vec3.nonneg_mul hsurface.color hlight.1),
      (hsurface.emissivity_le.add hle).trans (hgrows _)⟩

/-- Each segment brings `own` at most. -/
theorem emitting (hair : air.Nonneg) (hcolor : air.color.AtMost own) :
    Balanced (Surface.Within own) air fun n light =>
      light.Nonneg ∧ light.AtMost (.scale n own) := by
  have hown : own.Nonneg := hair.color.trans hcolor
  rw [Vec3.nonneg_iff_lanes] at hown
  apply bounded hair
  · intro n
    rw [Vec3.nonneg_iff_lanes]
    intro axis
    rw [Axis.lane_scale]
    exact mul_nonneg n.cast_nonneg (hown axis)
  · intro n axis
    have hmore : 0 ≤ (n : ℝ) * axis.lane own := mul_nonneg n.cast_nonneg (hown axis)
    have hlane := hcolor axis
    rw [Axis.lane_scale]
    push_cast
    linarith
  · intro n axis
    rw [Axis.lane_add, Axis.lane_scale, Axis.lane_scale]
    push_cast
    linarith

/-- All light comes from the air. -/
theorem passive (hair : air.Nonneg) :
    Balanced (Surface.Within .zero) air fun _ light => light.Nonneg ∧ light.AtMost air.color := by
  apply bounded hair
  · exact fun _ => hair.color
  · exact fun _ => .refl _
  · intro n axis
    rw [Axis.lane_add, Axis.lane_zero, zero_add]

end Balanced

/-! ## Tracers -/

namespace Tracer

variable {program : Program} {u : Uniforms}

/-- The surfaces of a frame: the air, and what entities of the program show at a point, for a normal
and the direction of a ray. -/
def palette (program : Program) (u : Uniforms) : Set (Surface ℝ) :=
  let tracer : Tracer ℝ := .new program u
  insert tracer.view.air
    {surface | ∃ id p n d, (program.entity? id).isSome ∧ surface = tracer.world.surface id p n d}

/-- An id that names no entity shows what absorbs all light. -/
theorem forall_surface {P : Surface ℝ → Prop} (h : ∀ surface ∈ palette program u, P surface)
    (habsorber : P .absorber) (id : UInt32) (p n d : Vec3 ℝ) :
    P ((Tracer.new program u : Tracer ℝ).world.surface id p n d) := by
  by_cases hid : (program.entity? id).isSome
  · exact h _ (.inr ⟨id, p, n, d, hid, rfl⟩)
  · have hgives := Interpreter.gives_material_of_unknown (Option.not_isSome_iff_eq_none.1 hid) p n d
      _ (Interpreter.of_new program (u.environment : Environment ℝ))
    have hshown : (Tracer.new program u : Tracer ℝ).world.surface id p n d = .absorber := hgives.1
    rwa [hshown]

theorem absorber_nonneg : (Surface.absorber : Surface ℝ).Nonneg := ⟨.refl _, .refl _⟩

theorem absorber_within {own : Vec3 ℝ} (hown : own.Nonneg) :
    (Surface.absorber : Surface ℝ).Within own where
  toNonneg := absorber_nonneg
  color_le := Vec3.nonneg_one
  emissivity_le := hown

theorem sumPaths_nonneg {tracer : Tracer ℝ}
    (htrace : ∀ origin direction rng, (tracer.trace origin direction rng).1.Nonneg) (x y : UInt32)
    (n : ℕ) {total : Vec3 ℝ} (htotal : total.Nonneg) (rng : Pcg) :
    (tracer.sumPaths x y n total rng).Nonneg := by
  induction n generalizing total rng with
  | zero => exact htotal
  | succ n ih => exact ih (Vec3.nonneg_add htotal (htrace _ _ _)) _

/-- Where no color and no emission has a negative lane, no path brings back a negative lane, so that
the light of a pixel is the sum of its paths.

If no color is above one either, a path brings back no more than each of its segments can bring, and
no more than the color of the air if nothing else emits light.  An interpreter that follows paths in
place finds the same, and so does a worker. -/
theorem energy_bounds (program : Program) (u : Uniforms)
    (hnonneg : ∀ surface ∈ palette program u, surface.Nonneg) :
    let tracer : Tracer ℝ := .new program u
    let air := tracer.view.air
    let light (options : Options ℝ) (origin direction : Vec3 ℝ) (rng : Pcg) : Vec3 ℝ :=
      (SphereTracer.trace tracer.world options air origin direction rng).1
    (∀ options origin direction rng, (light options origin direction rng).Nonneg) ∧
    (∀ x y, tracer.radiance x y = tracer.sumPaths x y tracer.options.iterations.toNat .zero
      (.forPixel tracer.uniforms x y)) ∧
    ((∀ surface ∈ palette program u, surface.color.AtMost .one) →
      (∀ most, (∀ surface ∈ palette program u, surface.emissivity.AtMost most) →
        air.color.AtMost most → ∀ options origin direction rng,
          (light options origin direction rng).AtMost (.scale options.bounces.toNat most)) ∧
      ((∀ surface ∈ palette program u, surface.emissivity = .zero) →
        ∀ options origin direction rng, (light options origin direction rng).AtMost air.color)) ∧
    (program.WellFormed →
      (∀ it : Interpreter ℝ, it.Of program u.environment → ∀ options origin direction rng,
        (it.trace options air origin direction rng).1.1 = light options origin direction rng) ∧
      ∀ worker : Worker ℝ, worker.Of program u →
        ∀ x y, (worker.radiance x y).1 = tracer.radiance x y) := by
  intro tracer air light
  have hair : air.Nonneg := hnonneg _ (.inl rfl)
  have hlight (options : Options ℝ) (origin direction : Vec3 ℝ) (rng : Pcg) :
      (light options origin direction rng).Nonneg :=
    (Balanced.nonneg hair).trace hair (forall_surface hnonneg absorber_nonneg) options _ _ _
  refine ⟨hlight, fun x y => ?_, fun hcolor => ⟨?_, ?_⟩, fun hw => ⟨?_, ?_⟩⟩
  · have hsum : (tracer.sumPaths x y tracer.options.iterations.toNat .zero
        (.forPixel tracer.uniforms x y)).Nonneg :=
      sumPaths_nonneg (hlight tracer.options) x y _ (.refl _) _
    exact if_pos (Vec3.nonneg_eq_true hsum)
  · intro most hemits hmost options origin direction rng
    have hwithin : ∀ surface ∈ palette program u, surface.Within most := fun surface hs =>
      ⟨hnonneg surface hs, hcolor surface hs, hemits surface hs⟩
    exact ((Balanced.emitting hair hmost).trace (hwithin _ (.inl rfl))
      (forall_surface hwithin (absorber_within (hair.color.trans hmost))) options _ _ _).2
  · intro hdark options origin direction rng
    have hwithin : ∀ surface ∈ palette program u, surface.Within .zero := fun surface hs =>
      ⟨hnonneg surface hs, hcolor surface hs, hdark surface hs ▸ .refl _⟩
    exact ((Balanced.passive hair).trace (hwithin _ (.inl rfl))
      (forall_surface hwithin (absorber_within (.refl _))) options _ _ _).2
  · intro it hit options origin direction rng
    exact congrArg Prod.fst
      (Interpreter.gives_trace (world_new hw u) options air origin direction rng it hit).1
  · intro worker hworker x y
    exact (hworker.radiance hw x y).1

end Tracer

/-! ## A furnace -/

/-- A white ball in white air. -/
def Scene.furnace : Scene := { Scene.empty with entities := [⟨.first, .sphere 0.5, .plain⟩] }

theorem Program.exists_ofScene_furnace :
    Scene.furnace.Closed ∧ (Scene.furnace.build.run ∅).2.size ≤ UInt32.size ∧
      ∃ program, ofScene .furnace .standard = .ok program := by
  have hclosed : Scene.furnace.Closed := by
    refine ⟨fun e he => ?_, Scene.empty_closed.camera, Scene.empty_closed.air⟩
    rw [List.mem_singleton.1 he]
    exact ⟨trivial, Scene.empty_closed.air⟩
  have hvalid : Options.standard.validate = .ok () := by decide +kernel
  let length : Tree := .node (.unary .length (.node (.var .position)))
  let radius : Tree := .node (.constant (.splat 0.5))
  let trees : List Tree := Scene.emptyTrees ++ [length, radius, .node (.binary .sub length radius)]
  have hplaces : Scene.furnace.assemble.made =
      ([0, 7, 8, 9, 2, 2, 5, 6, 5, 2, 1, 2, 3, 4, 2, 5, 2, 2, 5, 6, 5, 2] : List (Fin 10)).map
        trees.get := rfl
  exact ⟨hclosed, exists_ofScene_of_places hclosed _ hplaces (by decide) hvalid
    (by decide +kernel) (by decide +kernel) (by decide +kernel) (by decide +kernel)
    (by decide +kernel)⟩

/-- Air and ball are white and dark. -/
theorem Tracer.palette_furnace {program : Program}
    (h : Program.ofScene .furnace .standard = .ok program) (u : Uniforms) :
    ∀ surface ∈ palette program u, surface.color = .one ∧ surface.emissivity = .zero := by
  obtain ⟨hclosed, hsize, -⟩ := Program.exists_ofScene_furnace
  have hone : (Vec3.splat (1.0 : Word)).map Scalar.ofWord = (Vec3.one : Vec3 ℝ) :=
    congrArg Vec3.splat real_ofWord_one
  have hzero : (Vec3.splat (0.0 : Word)).map Scalar.ofWord = (Vec3.zero : Vec3 ℝ) :=
    congrArg Vec3.splat real_ofWord_zero
  rintro surface (rfl | ⟨id, p, n, d, hid, rfl⟩)
  · rw [air_new hclosed (.inl hsize) h u]
    exact ⟨hone, hzero⟩
  · obtain ⟨entity, hentity, -, hsurface⟩ := surface_new hclosed (.inl hsize) h u hid p n d
    rw [hsurface, List.mem_singleton.1 hentity]
    exact ⟨hone, hzero⟩

/-- Wherever a path starts in the furnace, it brings back no more than white. -/
theorem Tracer.energy_bounds_furnace :
    ∃ program, Program.ofScene .furnace .standard = .ok program ∧
      ∀ (u : Uniforms) (origin direction : Vec3 ℝ) (rng : Pcg),
        let tracer : Tracer ℝ := .new program u
        (tracer.trace origin direction rng).1.Nonneg ∧
          (tracer.trace origin direction rng).1.AtMost .one ∧
          ((Interpreter.new program u.environment).trace tracer.options tracer.view.air origin
            direction rng).1.1 = (tracer.trace origin direction rng).1 := by
  obtain ⟨-, -, program, hprogram⟩ := Program.exists_ofScene_furnace
  refine ⟨program, hprogram, fun u origin direction rng => ?_⟩
  intro tracer
  have hpalette := palette_furnace hprogram u
  have hwhite : tracer.view.air.color = .one := (hpalette _ (.inl rfl)).1
  have hnonneg : ∀ surface ∈ palette program u, surface.Nonneg := fun surface hs =>
    ⟨(hpalette surface hs).1 ▸ Vec3.nonneg_one, (hpalette surface hs).2 ▸ .refl _⟩
  obtain ⟨hlight, -, hbounds, hplace⟩ := energy_bounds program u hnonneg
  obtain ⟨-, hpassive⟩ := hbounds fun surface hs => (hpalette surface hs).1 ▸ .refl _
  refine ⟨hlight _ origin direction rng, ?_, ?_⟩
  · rw [← hwhite]
    exact hpassive (fun surface hs => (hpalette surface hs).2) _ origin direction rng
  · have hw := (Program.spec_of_ofScene hprogram).1
    exact (hplace hw).1 _ (Interpreter.of_new program u.environment) _ origin direction rng

end SphereTracer
