import SphereTracer.Proofs.Interpreter.Nearest
import SphereTracer.Proofs.Interpreter.Scope
import SphereTracer.Proofs.Numbers.Rounding
import SphereTracer.Proofs.Program.Options
import SphereTracer.Proofs.Trace.Worker

/-!
# What a march hits

Where no entity is in range, the nearest surface is a placeholder: the id zero, at the greatest
distance there is.  A march takes it for a surface exactly if it comes to be closer than `epsilon`,
so that every hit is of an entity as long as `epsilon` is not beyond that distance.
-/

namespace SphereTracer

open List (Forall₂)
open SphereTracer.Graph

/-! ## Hits -/

theorem exists_toNat_eq_succ {count : UInt32} (h : count ≠ 0) : ∃ n, count.toNat = n + 1 :=
  Nat.exists_eq_succ_of_ne_zero fun hzero => h (UInt32.toNat_inj.1 hzero)

section
variable {S : Type} [Scalar S] {closest : Vec3 S → Closest S} {nearest : Closest S}
  {point : Vec3 S}

/-- What is hit is what was nearest there, closer than `epsilon`. -/
theorem marchFrom_hit {epsilon stepFactor : S} {ray : Ray S} {n : Nat} {start : Vec3 S}
    {travelled : S}
    (h : (marchFrom closest epsilon stepFactor ray n start travelled).1 = .hit nearest point) :
    nearest = closest point ∧ Scalar.lt nearest.distance epsilon := by
  induction n generalizing start travelled with
  | zero => cases h
  | succ n ih =>
    rw [marchFrom] at h
    dsimp only at h
    split at h
    · next hlt =>
      cases h
      exact ⟨rfl, hlt⟩
    · split at h
      · cases h
      · exact ih h

theorem march_hit {options : Options S} {ray : Ray S}
    (h : march closest options ray = .hit nearest point) :
    nearest = closest point ∧ Scalar.lt nearest.distance options.epsilon :=
  marchFrom_hit h

/-- What is near enough where a ray starts is hit there. -/
theorem march_of_near {options : Options S} {ray : Ray S} (hnearest : closest ray.origin = nearest)
    (hnear : Scalar.lt nearest.distance options.epsilon) (hsteps : options.steps ≠ 0) :
    march closest options ray = .hit nearest ray.origin := by
  obtain ⟨n, hn⟩ := exists_toNat_eq_succ hsteps
  rw [march, hn, marchFrom, hnearest]
  dsimp only
  rw [if_pos hnear]

theorem Path.freePath_eq {medium : Surface S}
    (h : ¬ (Scalar.lt 0.0 medium.scatter = true ∧ Scalar.lt medium.scatter maxDistance = true))
    (rng : Pcg) : freePath medium rng = (unbounded, rng) :=
  if_neg (mt Bool.and_eq_true_iff.1 h)

/-- The nearest surface is an entity's, or the placeholder. -/
theorem Interpreter.closest_cases (it : Interpreter S) (p : Vec3 S) :
    (it.closest p).1 = .none ∨ ∃ e ∈ it.program.entities, (it.closest p).1.id = e.id.raw := by
  rw [Interpreter.closest, ← Array.foldl_toList]
  refine List.foldlRecOn (motive := fun found : Closest S × Interpreter S =>
    found.1 = .none ∨ ∃ e ∈ it.program.entities, found.1.id = e.id.raw)
    it.program.entities.toList _ (Or.inl rfl) fun found h e he => ?_
  obtain ⟨best, later⟩ := found
  dsimp only [Closest.offer]
  split
  · exact .inr ⟨e, Array.mem_toList_iff.1 he, rfl⟩
  · exact h

end

/-! ## Worlds that agree on what can be hit -/

section
variable {S : Type} [Scalar S] {known : UInt32 → Prop} {world world' : World S}
  {options : Options S} {air : Surface S}

/-- The worlds differ at most in the entities of ids that are not known. -/
structure World.Agree (known : UInt32 → Prop) (world world' : World S) : Prop where
  closest : world.closest = world'.closest
  normal : ∀ id, known id → ∀ p, world.normal id p = world'.normal id p
  surface : ∀ id, known id → ∀ p n d, world.surface id p n d = world'.surface id p n d

/-- Only entities of known ids are hit. -/
def World.HitsKnown (known : UInt32 → Prop) (world : World S) (options : Options S) : Prop :=
  ∀ ray closest point, march world.closest options ray = .hit closest point → known closest.id

theorem Path.segment_congr (hagree : world.Agree known world') (hhits : world.HitsKnown known options)
    (path : Path S) : path.segment world options air = path.segment world' options air := by
  rw [segment, segment]
  obtain ⟨length, rng⟩ := freePath path.medium path.rng
  dsimp only
  rw [← hagree.closest]
  split
  · next closest point hmarch =>
    have hknown := hhits _ _ _ hmarch
    rw [hit, hit, hagree.normal _ hknown]
    simp only [hagree.surface _ hknown]
  · rfl
  · rfl

theorem Path.follow_congr (hagree : world.Agree known world') (hhits : world.HitsKnown known options)
    (n : Nat) (path : Path S) : path.follow world options air n = path.follow world' options air n := by
  induction n generalizing path with
  | zero => rfl
  | succ n ih =>
    rw [follow, follow, segment_congr hagree hhits]
    split
    · rfl
    · exact ih _

theorem trace_congr (hagree : world.Agree known world') (hhits : world.HitsKnown known options)
    (origin direction : Vec3 S) (rng : Pcg) :
    trace world options air origin direction rng = trace world' options air origin direction rng := by
  rw [trace, trace, Path.follow_congr hagree hhits]

end

/-! ## Nothing in range -/

theorem Interpreter.closest_of_empty {S : Type} [Scalar S] {it : Interpreter S}
    (h : it.program.entities = #[]) (p : Vec3 S) : (it.closest p).1 = .none := by
  rw [Interpreter.closest, h]
  rfl

namespace Binary32

theorem within_maxDistance : Within 34 (maxDistance : Float32) :=
  within_of_le (show (0.0 : Float32) < 1e10 by decide)
    (show (1e10 : Float32) ≤ 17179869184.0 by decide) (by decide)

theorem within_zero (n : ℤ) : Within n 0.0 := trivial

/-- A sum that has come to 2 ^ 64 is not changed by a step of up to 2 ^ 34, which is less than half of
its last place.  So the bound is one for any number of steps. -/
theorem within_step {travelled distance stepFactor : Float32} (htravelled : Within 64 travelled)
    (hdistance : Within 34 distance) (hfactor : Within 0 stepFactor) :
    Within 64 (travelled + distance * stepFactor) := by
  have hstep : Within (34 + 0) (distance * stepFactor) :=
    hdistance.mul hfactor (by decide) (by decide)
  exact htravelled.add (hstep.mono (by decide)) (by decide) (by decide)

/-- The distance travelled stays below the free path of a medium that never scatters. -/
theorem not_unbounded_le {x : Float32} (h : Within 64 x) : ¬ (unbounded : Float32) ≤ x := by
  intro hle
  have hlt := h.lt (by decide) (show (64 : ℤ) - 23 < 104 by decide)
    (show rank? (3.0e38 : Float32) = some (toLex (1, toLex (104, 14791142))) by decide +kernel)
  obtain ⟨a, b, ha, hb, hab⟩ := lt_iff.1 hlt
  obtain ⟨b', a', hb', ha', hba⟩ := le_iff.1 hle
  cases ha.symm.trans ha'
  cases hb.symm.trans hb'
  exact (hab.trans_le hba).false

end Binary32

section
variable {closest : Vec3 Float32 → Closest Float32} {options : Options Float32}

open Binary32 (Within)

/-- With nothing in range, and a limit that its distance does not pass, every step of a march takes
it further on. -/
theorem marchFrom_none (hclosest : ∀ p, closest p = .none) {epsilon stepFactor : Float32}
    (hepsilon : ¬ maxDistance < epsilon) (hfactor : Within 0 stepFactor) {ray : Ray Float32}
    (hray : ray.scatter = unbounded) (n : Nat) {point : Vec3 Float32} {travelled : Float32}
    (htravelled : Within 64 travelled) :
    (marchFrom closest epsilon stepFactor ray n point travelled).1 = .escaped := by
  -- By induction on the steps that are left; the sum stays within its bound, and so below the free
  -- path.
  induction n generalizing point travelled with
  | zero => rfl
  | succ n ih =>
    have hnext : Within 64 (travelled + maxDistance * stepFactor) :=
      Binary32.within_step htravelled Binary32.within_maxDistance hfactor
    rw [marchFrom, hclosest]
    have hnear : ¬ Scalar.lt (Closest.none : Closest Float32).distance epsilon := by
      change ¬ decide (maxDistance < epsilon) = true
      rwa [decide_eq_true_iff]
    have hfar : ¬ (Scalar.lt 0.0 ray.scatter &&
        Scalar.le ray.scatter (travelled + maxDistance * stepFactor)) := by
      rw [hray, Bool.and_eq_true, not_and]
      intro _
      change ¬ decide (unbounded ≤ _) = true
      rw [decide_eq_true_iff]
      exact Binary32.not_unbounded_le hnext
    dsimp only
    rw [if_neg hnear]
    change (ite (Scalar.lt 0.0 ray.scatter &&
      Scalar.le ray.scatter (travelled + maxDistance * stepFactor)) _ _ : March _ × _).1 = _
    rw [if_neg hfar]
    exact ih hnext

/-- With nothing in range a march hits exactly if its limit is beyond the greatest distance. -/
theorem march_none_iff (hclosest : ∀ p, closest p = .none) (hsteps : options.steps ≠ 0)
    {ray : Ray Float32} :
    (∃ nearest point, march closest options ray = .hit nearest point) ↔
      maxDistance < options.epsilon := by
  constructor
  · rintro ⟨nearest, point, hmarch⟩
    obtain ⟨hnearest, hlt⟩ := march_hit hmarch
    rw [hnearest, hclosest] at hlt
    exact decide_eq_true_iff.1 hlt
  · intro hepsilon
    have hnear : Scalar.lt (Closest.none : Closest Float32).distance options.epsilon :=
      decide_eq_true_iff.2 hepsilon
    exact ⟨.none, ray.origin, march_of_near (hclosest _) hnear hsteps⟩

/-- With nothing in range, a path in a medium that never scatters brings back the color of the air
and draws no numbers.  The sum that it goes through turns a negative zero into a positive one. -/
theorem trace_none {world : World Float32} {air : Surface Float32}
    (hclosest : ∀ p, world.closest p = .none) (hepsilon : ¬ maxDistance < options.epsilon)
    (hfactor : Within 0 options.stepFactor) (hbounces : options.bounces ≠ 0)
    (hair : ¬ (0.0 < air.scatter ∧ air.scatter < maxDistance)) (origin direction : Vec3 Float32)
    (rng : Pcg) :
    trace world options air origin direction rng =
      (air.color.map fun c => if c = -0.0 then 0.0 else c, rng) := by
  have hfree : Path.freePath air rng = (unbounded, rng) :=
    Path.freePath_eq (mt (And.imp decide_eq_true_iff.1 decide_eq_true_iff.1) hair) rng
  have hmarch : march world.closest options ⟨origin, direction, unbounded⟩ = .escaped := by
    have hray : (⟨origin, direction, unbounded⟩ : Ray Float32).scatter = unbounded := rfl
    exact marchFrom_none hclosest hepsilon hfactor hray _ (Binary32.within_zero 64)
  obtain ⟨n, hn⟩ := exists_toNat_eq_succ hbounces
  have hsum : (.zero + .one * air.color : Vec3 Float32) =
      air.color.map fun c => if c = -0.0 then 0.0 else c := by
    have hlane (c : Float32) : 0.0 + 1.0 * c = if c = -0.0 then 0.0 else c := by
      rw [Binary32.one_mul_eq, Binary32.zero_add_eq]
    change Vec3.mk (0.0 + 1.0 * air.color.x) (0.0 + 1.0 * air.color.y)
      (0.0 + 1.0 * air.color.z) = _
    rw [hlane, hlane, hlane, Vec3.map]
  have hsegment : (Path.start air origin direction rng).segment world options air =
      .inl { Path.start air origin direction rng with total := .zero + .one * air.color } := by
    rw [Path.segment, Path.start]
    dsimp only
    rw [hfree]
    dsimp only
    rw [hmarch]
  rw [trace, hn, Path.follow, hsegment]
  exact Prod.ext hsum rfl

end

/-! ## The air and the surfaces of a scene -/

theorem Material.map_eq_of_forall₂ {α β γ : Type} {R : α → β → Prop} {f : α → γ} {g : β → γ}
    (hfg : ∀ a b, R a b → f a = g b) {m : Material α} {m' : Material β}
    (h : Forall₂ R m.toList m'.toList) : m.map f = m'.map g := by
  have hvalues := SphereTracer.map_eq_of_forall₂ hfg h
  simp only [toList, List.map_cons, List.cons.injEq, List.map_nil, and_true] at hvalues
  obtain ⟨h₁, h₂, h₃, h₄, h₅, h₆⟩ := hvalues
  rw [map, h₁, h₂, h₃, h₄, h₅, h₆, map]

theorem Material.map_eval_eq {S : Type} [Scalar S] {nodes : Array Node} {m : Material Handle}
    {m' : Material Tree} {tree : Handle → Tree} (htree : ∀ a ∈ m.toList, Denotes nodes a (tree a))
    (h : Forall₂ (Denotes nodes) m.toList m'.toList) (b : Bindings S) :
    m.map (fun a => (tree a).eval b) = m'.map (·.eval b) := by
  refine map_eq_of_forall₂ (fun a t hat => ?_) ((List.forall₂_and_left _ _).2 ⟨fun _ ha => ha, h⟩)
  rw [(htree a hat.1).unique hat.2]

/-- The air that a tracer sees has the values of the trees that the scene makes of its air. -/
theorem Tracer.air_new {S : Type} [Scalar S] {scene : Scene} {options : Options Word}
    {program : Program} (hscene : scene.Closed) (hroom : scene.build.Room scene.assemble ∅)
    (h : Program.ofScene scene options = .ok program) (u : Uniforms) :
    (Tracer.new program u : Tracer S).view.air = .ofMaterial
      (scene.assemble.result.air.map (·.eval (Interpreter.bindings u.environment .zero .zero .zero)))
      := by
  obtain ⟨hw, hof, -⟩ := Program.spec_of_ofScene h
  obtain ⟨-, hdescribes, -⟩ := Scene.build_describes hscene hroom
  obtain ⟨tree, htree⟩ := hw.frame.exists_trees
  have hroots : ∀ a ∈ program.frame.camera.toList ++ program.frame.air.toList,
      Denotes program.nodes a (tree a) := fun a ha => htree a (hw.frame.root_mem a ha)
  have hgives := Interpreter.gives_frame hw.frame hroots _
    (Interpreter.of_new program (u.environment : Environment S))
  have hair : Forall₂ (Denotes program.nodes) program.frame.air.toList
      scene.assemble.result.air.toList := by
    rw [hof.nodes, hof.air]
    exact hdescribes.air
  have hparts := Material.map_eval_eq (fun a ha => hroots a (List.mem_append_right _ ha)) hair
    (Interpreter.bindings (u.environment : Environment S) .zero .zero .zero)
  exact (congrArg Frame.air hgives.1).trans (congrArg Surface.ofMaterial hparts)

/-- What a tracer sees of an entity has the values of the trees that the scene makes of its material.
-/
theorem Tracer.surface_new {S : Type} [Scalar S] {scene : Scene} {options : Options Word}
    {program : Program} (hscene : scene.Closed) (hroom : scene.build.Room scene.assemble ∅)
    (h : Program.ofScene scene options = .ok program) (u : Uniforms) {id : UInt32}
    (hid : (program.entity? id).isSome) (p n d : Vec3 S) :
    ∃ entity ∈ scene.entities, entity.id.raw = id ∧
      (Tracer.new program u : Tracer S).world.surface id p n d = .ofMaterial
        (entity.trees.material.map (·.eval (Interpreter.bindings u.environment p n d))) := by
  obtain ⟨hw, hof, -⟩ := Program.spec_of_ofScene h
  obtain ⟨-, hdescribes, -⟩ := Scene.build_describes hscene hroom
  obtain ⟨e, hfound⟩ := Option.isSome_iff_exists.1 hid
  obtain ⟨he, hraw⟩ := hw.entity?_iff.1 hfound
  have hroot := hof.roots.mem_iff.1 (List.mem_map_of_mem (Array.mem_toList_iff.2 he))
  obtain ⟨trees, htrees, hshown⟩ := exists_left_of_mem hdescribes.entities.flip hroot
  rw [Scene.result_assemble] at htrees
  obtain ⟨entity, hentity, rfl⟩ := List.mem_map.1 htrees
  obtain ⟨tree, htree⟩ := (hw.material e he).exists_trees
  have hroots : ∀ a ∈ e.material.toList, Denotes program.nodes a (tree a) := fun a ha =>
    htree a ((hw.material e he).root_mem a ha)
  have hgives := Interpreter.gives_material hfound (hw.material e he) hroots p n d _
    (Interpreter.of_new program (u.environment : Environment S))
  have hmaterial : Forall₂ (Denotes program.nodes) e.material.toList
      entity.trees.material.toList := by
    rw [hof.nodes]
    exact hshown.material
  have hparts := Material.map_eval_eq hroots hmaterial
    (Interpreter.bindings (u.environment : Environment S) p n d)
  exact ⟨entity, hentity, (congrArg EntityId.raw hshown.id).symm.trans hraw,
    hgives.1.trans (congrArg Surface.ofMaterial hparts)⟩

/-! ## Tracers -/

namespace Tracer

variable {scene : Scene} {options : Options Word} {program : Program}

/-- An entity of the scene is hit, or the placeholder is, which takes a limit beyond the greatest
distance. -/
theorem hit_cases (h : Program.ofScene scene options = .ok program) {u : Uniforms}
    {ray : Ray Float32} {closest : Closest Float32} {point : Vec3 Float32}
    (hhit : (Tracer.new program u : Tracer Float32).march ray = .hit closest point) :
    (closest.id ≠ 0 ∧ (program.entity? closest.id).isSome ∧
        ∃ entity ∈ scene.entities, entity.id.raw = closest.id) ∨
      closest = .none ∧ maxDistance < options.epsilon.toFloat := by
  obtain ⟨hw, hof, rfl⟩ := Program.spec_of_ofScene h
  obtain ⟨hclosest, hlt⟩ := march_hit hhit
  rcases Interpreter.closest_cases (.new program u.environment) point with hnone | ⟨e, he, hid⟩
  · have hplaceholder : closest = .none := hclosest.trans hnone
    rw [hplaceholder] at hlt
    exact .inr ⟨hplaceholder, decide_eq_true_iff.1 hlt⟩
  · have hnamed : closest.id = e.id.raw := (congrArg Closest.id hclosest).trans hid
    have hknown : (program.entity? closest.id).isSome :=
      Option.isSome_iff_exists.2 ⟨e, hw.entity?_iff.2 ⟨he, hnamed.symm⟩⟩
    exact .inl ⟨hnamed ▸ e.id.ne_zero, hknown, (hw.isSome_entity?_iff hof).1 hknown⟩

theorem epsilon_new (hoptions : program.options = options) (u : Uniforms) :
    (Tracer.new program u : Tracer Float32).options.epsilon = options.epsilon.toFloat := by
  rw [← hoptions]
  rfl

/-- Some ray hits the placeholder exactly if the limit of a march is beyond the greatest distance and
somewhere nothing is in range. -/
theorem exists_hit_none_iff (hw : program.WellFormed) (hoptions : program.options = options)
    (u : Uniforms) :
    let tracer : Tracer Float32 := .new program u
    (∃ ray point, tracer.march ray = .hit .none point) ↔
      maxDistance < options.epsilon.toFloat ∧ ∃ p, tracer.world.closest p = .none := by
  intro tracer
  have hepsilon : tracer.options.epsilon = options.epsilon.toFloat := epsilon_new hoptions u
  constructor
  · rintro ⟨ray, point, hmarch⟩
    obtain ⟨hnone, hlt⟩ := march_hit hmarch
    rw [hepsilon] at hlt
    exact ⟨decide_eq_true_iff.1 hlt, point, hnone.symm⟩
  · rintro ⟨hlt, p, hnone⟩
    have hnear : Scalar.lt (Closest.none : Closest Float32).distance tracer.options.epsilon := by
      rw [hepsilon]
      exact decide_eq_true_iff.2 hlt
    have hsteps : tracer.options.steps ≠ 0 := (Options.validate_eq_ok_iff.1 hw.options).steps.1
    exact ⟨⟨p, .zero, 0.0⟩, p, march_of_near hnone hnear hsteps⟩

/-- Options in their ranges have a step factor that is no greater than one. -/
theorem within_stepFactor (hw : program.WellFormed) (u : Uniforms) :
    Binary32.Within 0 (Tracer.new program u : Tracer Float32).options.stepFactor := by
  obtain ⟨hpos, hle⟩ := (Options.validate_eq_ok_iff.1 hw.options).stepFactor
  exact Binary32.within_of_le hpos hle
    (show Binary32.rank? 1.0 = some (toLex (1, toLex (-23, 2 ^ 23))) by decide)

variable {kernel : Kernel}

/-- Every surface that a tracer hits is an entity's of the scene, which the program finds by its id,
unless the limit of a march is beyond the greatest distance: then, and only then, a ray that has
nothing in range hits the placeholder, whose id is nobody's.

So if the limit is not beyond it, paths do not depend on what the normals and surfaces of unknown ids
are; and in a scene without entities nothing is hit, and a path that starts in air which never
scatters brings back the color of the air.  An interpreter that marches and follows paths in place
finds the same. -/
theorem hit_names_entity (h : Kernel.ofScene scene options = .ok kernel) (u : Uniforms) :
    let tracer : Tracer Float32 := .new kernel.program u
    let known (id : UInt32) : Prop := (kernel.program.entity? id).isSome
    let air := tracer.view.air
    (∀ ray closest point, tracer.march ray = .hit closest point →
      (closest.id ≠ 0 ∧ known closest.id ∧ ∃ entity ∈ scene.entities, entity.id.raw = closest.id) ∨
        closest = .none ∧ maxDistance < options.epsilon.toFloat) ∧
    ((∃ ray point, tracer.march ray = .hit .none point) ↔
      maxDistance < options.epsilon.toFloat ∧ ∃ p, tracer.world.closest p = .none) ∧
    (scene.entities = [] → ∀ ray, (∃ closest point, tracer.march ray = .hit closest point) ↔
      maxDistance < options.epsilon.toFloat) ∧
    (¬ maxDistance < options.epsilon.toFloat →
      (∀ world : World Float32, tracer.world.Agree known world → ∀ origin direction rng,
        SphereTracer.trace world tracer.options air origin direction rng =
          tracer.trace origin direction rng) ∧
      (scene.entities = [] → ¬ (0.0 < air.scatter ∧ air.scatter < maxDistance) →
        ∀ origin direction rng, tracer.trace origin direction rng =
          (air.color.map fun c => if c = -0.0 then 0.0 else c, rng))) ∧
    ∀ it : Interpreter Float32, it.Of kernel.program u.environment →
      (∀ ray, (it.march tracer.options ray).1 = tracer.march ray) ∧
      ∀ origin direction rng, (it.trace tracer.options air origin direction rng).1 =
        tracer.trace origin direction rng := by
  obtain ⟨program, hprogram, rfl⟩ := Kernel.ofScene_eq_ok_iff.1 h
  obtain ⟨hw, hof, hoptions⟩ := Program.spec_of_ofScene hprogram
  have hvalid := Options.validate_eq_ok_iff.1 hw.options
  intro tracer known air
  have hlimit : tracer.options.epsilon = options.epsilon.toFloat := epsilon_new hoptions u
  have hsteps : tracer.options.steps ≠ 0 := hvalid.steps.1
  have hbounces : tracer.options.bounces ≠ 0 := hvalid.bounces.1
  have hfactor : Binary32.Within 0 tracer.options.stepFactor := within_stepFactor hw u
  have hempty (hscene : scene.entities = []) (p : Vec3 Float32) : tracer.world.closest p = .none :=
    Interpreter.closest_of_empty (hof.entities_eq_empty hscene) p
  refine ⟨fun _ _ _ => hit_cases hprogram, exists_hit_none_iff hw hoptions u, fun hscene ray => ?_,
    fun hepsilon => ⟨?_, ?_⟩, fun it hit => ⟨fun ray => ?_, fun origin direction rng => ?_⟩⟩
  · rw [← hlimit]
    exact march_none_iff (hempty hscene) hsteps
  · intro world hagree origin direction rng
    refine (trace_congr hagree (fun ray closest point hmarch => ?_) origin direction rng).symm
    exact (hit_cases hprogram hmarch).elim (·.2.1) fun hnone => absurd hnone.2 hepsilon
  · intro hscene hair origin direction rng
    rw [← hlimit] at hepsilon
    exact trace_none (hempty hscene) hepsilon hfactor hbounces hair origin direction rng
  · exact (Interpreter.gives_march (world_new hw u) tracer.options ray it hit).1
  · exact (Interpreter.gives_trace (world_new hw u) tracer.options air origin direction rng it hit).1

open Kernel in
/-- A ray that starts on the ball hits it there. -/
theorem march_ball (hsize : ((stage [ball]).build.run ∅).2.size ≤ UInt32.size)
    (h : Program.ofScene (stage [ball]) .standard = .ok program) (u : Uniforms) :
    (Tracer.new program u : Tracer Float32).march ⟨⟨0.0, 0.0, -0.5⟩, .unitZ, 1.0⟩ =
      .hit ⟨1, 0.0⟩ ⟨0.0, 0.0, -0.5⟩ := by
  have hclosed : (stage [ball]).Closed := stage_closed (by simp)
  obtain ⟨hw, -, hoptions⟩ := Program.spec_of_ofScene h
  obtain ⟨distance, hdistance, hscans⟩ :=
    Interpreter.exists_scans hclosed (.inl hsize) h u.environment ⟨0.0, 0.0, -0.5⟩
  have hball : distance ball = 0.0 := by
    have halone := (Interpreter.gives_alone hclosed (.inl hsize) h List.mem_cons_self u.environment
      (⟨0.0, 0.0, -0.5⟩ : Vec3 Float32)).1
    rw [hdistance ball List.mem_cons_self] at halone
    have hreads : ∀ v ∈ ball.trees.distance.vars, v = .position := by decide
    have hvalue : (ball.trees.distance.eval
        (⟨⟨0.0, 0.0, -0.5⟩, .zero, .zero, ⟨0.0, 0.0⟩, 0.0⟩ : Bindings Float32)).x = 0.0 := by
      decide +kernel
    refine (Except.ok.inj halone).trans (Eq.trans (congrArg Vec3.x ?_) hvalue)
    exact Tree.eval_congr fun v hv => by rw [hreads v hv]; rfl
  have hnearest : (Tracer.new program u : Tracer Float32).world.closest ⟨0.0, 0.0, -0.5⟩ =
      ⟨1, 0.0⟩ := by
    have hrange : ∃ e ∈ (stage [ball]).entities, (distance e).abs < maxDistance :=
      ⟨ball, List.mem_cons_self, by rw [hball]; decide⟩
    obtain ⟨e, he, hclosest, -⟩ := (hscans _ (Interpreter.of_new program u.environment)).some hrange
    rw [List.mem_singleton.1 he, hball] at hclosest
    have habs : (0.0 : Float32).abs = 0.0 := by decide
    exact hclosest.trans (congrArg (Closest.mk 1) habs)
  refine march_of_near hnearest ?_ (Options.validate_eq_ok_iff.1 hw.options).steps.1
  rw [epsilon_new hoptions]
  decide

/-- Plain air is white and never scatters. -/
theorem air_empty (hsize : (Scene.empty.build.run ∅).2.size ≤ UInt32.size)
    (h : Program.ofScene .empty options = .ok program) (u : Uniforms) :
    (Tracer.new program u : Tracer Float32).view.air.color = .one ∧
      (Tracer.new program u : Tracer Float32).view.air.scatter = maxDistance := by
  rw [air_new Scene.empty_closed (.inl hsize) h u]
  exact ⟨rfl, rfl⟩

open Kernel in
/-- A ray that starts on the ball hits it; and without ball and ground, white is what every path
brings back. -/
theorem hit_names_entity_stage :
    (∃ kernel, Kernel.ofScene (stage [ball]) .standard = .ok kernel ∧ ∀ u : Uniforms,
      let tracer : Tracer Float32 := .new kernel.program u
      tracer.march ⟨⟨0.0, 0.0, -0.5⟩, .unitZ, 1.0⟩ = .hit ⟨1, 0.0⟩ ⟨0.0, 0.0, -0.5⟩ ∧
        (kernel.program.entity? 1).isSome) ∧
    ∃ kernel, Kernel.ofScene .empty .standard = .ok kernel ∧
      ∀ (u : Uniforms) (origin direction : Vec3 Float32) (rng : Pcg),
        (Tracer.new kernel.program u).trace origin direction rng = (.one, rng) := by
  have hlimit : ¬ maxDistance < (Options.standard.epsilon).toFloat := by decide
  constructor
  · obtain ⟨hsize, program, hprogram⟩ := exists_program_ball
    have hkernel := Kernel.ofScene_eq_ok_iff.2 ⟨program, hprogram, rfl⟩
    refine ⟨_, hkernel, fun u => ?_⟩
    intro tracer
    have hhit := march_ball hsize hprogram u
    have hnamed := (hit_names_entity hkernel u).1 _ _ _ hhit
    exact ⟨hhit, (hnamed.resolve_right fun hnone => hlimit hnone.2).2.1⟩
  · obtain ⟨hsize, program, hprogram⟩ := Program.exists_ofScene_empty
      (show Options.standard.validate = .ok () by decide)
    have hkernel := Kernel.ofScene_eq_ok_iff.2 ⟨program, hprogram, rfl⟩
    refine ⟨_, hkernel, fun u origin direction rng => ?_⟩
    obtain ⟨hwhite, hscatter⟩ := air_empty hsize hprogram u
    obtain ⟨-, -, -, hpaths, -⟩ := hit_names_entity hkernel u
    have hclear : ¬ (0.0 < (Tracer.new program u : Tracer Float32).view.air.scatter ∧
        (Tracer.new program u : Tracer Float32).view.air.scatter < maxDistance) := by
      rw [hscatter]
      exact fun h => Binary32.lt_irrefl _ h.2
    have htrace := (hpaths hlimit).2 rfl hclear origin direction rng
    rw [show (Kernel.ofProgram program).program = program from rfl, hwhite] at htrace
    exact htrace.trans (congrArg (·, rng) (by decide))

open Kernel in
/-- With a limit of twice the greatest distance every ray hits the placeholder where it starts. -/
theorem hit_none_of_far_epsilon :
    ∃ kernel, Kernel.ofScene .empty { Options.standard with epsilon := 2e10 } = .ok kernel ∧
      ∀ (u : Uniforms) (ray : Ray Float32),
        (Tracer.new kernel.program u).march ray = .hit .none ray.origin := by
  obtain ⟨-, program, hprogram⟩ := Program.exists_ofScene_empty
    (show ({ Options.standard with epsilon := 2e10 } : Options Word).validate = .ok () by
      decide)
  obtain ⟨hw, hof, hoptions⟩ := Program.spec_of_ofScene hprogram
  refine ⟨_, Kernel.ofScene_eq_ok_iff.2 ⟨program, hprogram, rfl⟩, fun u ray => ?_⟩
  have hempty (p : Vec3 Float32) : (Tracer.new program u).world.closest p = .none :=
    Interpreter.closest_of_empty (hof.entities_eq_empty rfl) p
  have hnear : Scalar.lt (Closest.none : Closest Float32).distance
      (Tracer.new program u : Tracer Float32).options.epsilon := by
    rw [epsilon_new hoptions]
    decide
  exact march_of_near (hempty _) hnear (Options.validate_eq_ok_iff.1 hw.options).steps.1

end Tracer

end SphereTracer
