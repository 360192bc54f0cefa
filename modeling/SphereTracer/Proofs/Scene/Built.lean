import SphereTracer.Program
import SphereTracer.Proofs.Shape.Assembled

/-!
# Scenes as transcripts

A scene whose terms capture no nodes makes the same trees wherever it is built.  The trees of an
entity depend on that entity alone, and together the entities, the camera and the air make the trees
of the scene.
-/

namespace SphereTracer

open List (Forall₂)

/-- No node of an arena is captured by any property. -/
def Material.Closed {κ : Type} (m : Material (Term κ)) : Prop := ∀ t ∈ m.toList, t.Closed

def Camera.Closed {κ : Type} (c : Camera (Term κ)) : Prop := ∀ t ∈ c.toList, t.Closed

theorem Material.closed_iff {κ : Type} {m : Material (Term κ)} : m.Closed ↔
    m.transmittance.Closed ∧ m.smoothness.Closed ∧ m.refraction.Closed ∧ m.scatter.Closed ∧
      m.color.Closed ∧ m.emissivity.Closed := by
  simp [Closed, toList]

theorem Camera.closed_iff {κ : Type} {c : Camera (Term κ)} : c.Closed ↔
    c.eye.Closed ∧ c.target.Closed ∧ c.up.Closed ∧ c.fieldOfView.Closed ∧ c.aperture.Closed ∧
      c.focalFactor.Closed := by
  simp [Closed, toList]

/-- No node of an arena is captured anywhere in the scene. -/
structure Scene.Closed (scene : Scene) : Prop where
  entities : ∀ e ∈ scene.entities, e.shape.Closed ∧ e.material.Closed
  camera : scene.camera.Closed
  air : scene.air.Closed

theorem Scene.Closed.of_perm {scene scene' : Scene} (h : scene.Closed)
    (hperm : scene'.entities.Perm scene.entities) (hcamera : scene'.camera = scene.camera)
    (hair : scene'.air = scene.air) : scene'.Closed where
  entities e he := h.entities e (hperm.mem_iff.1 he)
  camera := hcamera ▸ h.camera
  air := hair ▸ h.air

/-- The trees of an entity. -/
structure EntityTrees where
  id : EntityId
  distance : Tree
  material : Material Tree

/-- The trees of a scene. -/
structure SceneTrees where
  entities : List EntityTrees
  camera : Camera Tree
  air : Material Tree

/-- The roots of an entity stand for its trees. -/
structure EntityTrees.Describes (reading : Reading) (roots : EntityRoots) (trees : EntityTrees) :
    Prop where
  id : roots.id = trees.id
  distance : reading roots.distance trees.distance
  material : Forall₂ reading roots.material.toList trees.material.toList

structure SceneTrees.Describes (reading : Reading) (roots : SceneRoots) (trees : SceneTrees) :
    Prop where
  entities : Forall₂ (EntityTrees.Describes reading) roots.entities trees.entities
  camera : Forall₂ reading roots.camera.toList trees.camera.toList
  air : Forall₂ reading roots.air.toList trees.air.toList

theorem EntityTrees.Describes.mono {reading reading' : Reading}
    (hsub : ∀ h t, reading h t → reading' h t) {roots : EntityRoots} {trees : EntityTrees}
    (h : Describes reading roots trees) : Describes reading' roots trees where
  id := h.id
  distance := hsub _ _ h.distance
  material := h.material.imp hsub

/-- What an entity makes at a position. -/
def Entity.assemble (p : Tree) (entity : Entity) : Transcript EntityTrees := do
  let distance ← entity.shape.assemble (.outer p)
  let material ← entity.material.mapM fun t => t.assemble (.outer p)
  return ⟨entity.id, distance, material⟩

/-- What a scene makes. -/
def Scene.assemble (scene : Scene) : Transcript SceneTrees := do
  let p ← Build.var .position
  let entities ← scene.entities.mapM (Entity.assemble p)
  let camera ← scene.camera.mapM fun t => t.assemble (.outer p)
  let air ← scene.air.mapM fun t => t.assemble (.outer p)
  return ⟨entities, camera, air⟩

open Build

section
variable (sim : Simulation) {known : Reading} {p : Handle} {s : Tree}

/-- Six terms, one after the other. -/
theorem Simulation.six {α β : Type} {t₁ t₂ t₃ t₄ t₅ t₆ : Term Word}
    (hclosed : ∀ t ∈ [t₁, t₂, t₃, t₄, t₅, t₆], t.Closed) (hp : known p s)
    (make : Handle → Handle → Handle → Handle → Handle → Handle → α)
    (make' : Tree → Tree → Tree → Tree → Tree → Tree → β) {R : Reading → α → β → Prop}
    (hR : ∀ {reading : Reading} {x₁ x₂ x₃ x₄ x₅ x₆ y₁ y₂ y₃ y₄ y₅ y₆},
      Forall₂ reading [x₁, x₂, x₃, x₄, x₅, x₆] [y₁, y₂, y₃, y₄, y₅, y₆] →
      R reading (make x₁ x₂ x₃ x₄ x₅ x₆) (make' y₁ y₂ y₃ y₄ y₅ y₆)) :
    sim.Rel known
      (do
        let x₁ ← Term.build (.outer p) t₁
        let x₂ ← Term.build (.outer p) t₂
        let x₃ ← Term.build (.outer p) t₃
        let x₄ ← Term.build (.outer p) t₄
        let x₅ ← Term.build (.outer p) t₅
        let x₆ ← Term.build (.outer p) t₆
        return make x₁ x₂ x₃ x₄ x₅ x₆)
      (do
        let y₁ ← t₁.assemble (.outer s)
        let y₂ ← t₂.assemble (.outer s)
        let y₃ ← t₃.assemble (.outer s)
        let y₄ ← t₄.assemble (.outer s)
        let y₅ ← t₅.assemble (.outer s)
        let y₆ ← t₆.assemble (.outer s)
        return make' y₁ y₂ y₃ y₄ y₅ y₆) R := by
  have hps : Known [(p, s)] p s := List.mem_cons_self
  have hterm {t : Term Word} (ht : t.Closed) {pairs : List (Handle × Tree)}
      (hpairs : Known pairs p s) :
      sim.Rel (Known pairs) (Term.build (.outer p) t) (t.assemble (.outer s)) id :=
    Term.assemble_related sim ht hpairs hpairs
  simp only [List.forall_mem_cons] at hclosed
  obtain ⟨h₁, h₂, h₃, h₄, h₅, h₆, -⟩ := hclosed
  refine sim.weaken (known_singleton hp) ?_
  refine sim.andThen (hterm h₁ hps) fun x₁ => ?_
  refine sim.andThen (hterm h₂ (by simp [hps])) fun x₂ => ?_
  refine sim.andThen (hterm h₃ (by simp [hps])) fun x₃ => ?_
  refine sim.andThen (hterm h₄ (by simp [hps])) fun x₄ => ?_
  refine sim.andThen (hterm h₅ (by simp [hps])) fun x₅ => ?_
  refine sim.andThen (hterm h₆ (by simp [hps])) fun x₆ => ?_
  refine sim.pure fun reading hsub => hR ?_
  refine .cons ?_ (.cons ?_ (.cons ?_ (.cons ?_ (.cons ?_ (.cons ?_ .nil)))))
  all_goals exact hsub _ _ (by simp)

theorem Material.mapM_related {m : Material (Term Word)} (hm : m.Closed) (hp : known p s) :
    sim.Rel known (m.mapM (Term.build (.outer p))) (m.mapM fun t => t.assemble (.outer s))
      fun reading x y => Forall₂ reading x.toList y.toList :=
  sim.six hm hp Material.mk Material.mk id

theorem Camera.mapM_related {c : Camera (Term Word)} (hc : c.Closed) (hp : known p s) :
    sim.Rel known (c.mapM (Term.build (.outer p))) (c.mapM fun t => t.assemble (.outer s))
      fun reading x y => Forall₂ reading x.toList y.toList :=
  sim.six hc hp Camera.mk Camera.mk id

theorem Entity.assemble_related {entity : Entity} (hshape : entity.shape.Closed)
    (hmaterial : entity.material.Closed) (hp : known p s) :
    sim.Rel known (Scene.buildEntity p entity) (entity.assemble s) EntityTrees.Describes := by
  have hps : Known [(p, s)] p s := List.mem_cons_self
  apply sim.bind (sim.weaken (known_singleton hp) (Shape.assemble_related sim hshape hps hps))
  intro d reading hsub hd
  apply sim.bind (Material.mapM_related sim hmaterial (hsub p s hp))
  intro m reading' hsub' hm
  exact sim.pure fun reading'' hsub'' => ⟨rfl, hsub'' _ _ (hsub' _ _ hd), hm.imp hsub''⟩

end

theorem Scene.assemble_related (sim : Simulation) {scene : Scene} (hscene : scene.Closed) :
    sim.Rel (Known []) scene.build scene.assemble SceneTrees.Describes := by
  apply sim.bind (sim.var .position)
  intro p reading _ hp
  apply sim.bind (sim.mapM (fun hsub h => h.mono hsub) fun e he =>
    Entity.assemble_related sim (hscene.entities e he).1 (hscene.entities e he).2 hp)
  intro entities reading' hsub' hentities
  have hp' := hsub' _ _ hp
  apply sim.bind (Camera.mapM_related sim hscene.camera hp')
  intro camera reading'' hsub'' hcamera
  apply sim.bind (Material.mapM_related sim hscene.air (hsub'' _ _ hp'))
  intro air reading₃ hsub₃ hair
  refine sim.pure fun reading₄ hsub₄ => ⟨?_, ?_, ?_⟩
  · exact hentities.imp fun _ _ h => h.mono fun h t ht => hsub₄ h t (hsub₃ h t (hsub'' h t ht))
  · exact hcamera.imp fun h t ht => hsub₄ h t (hsub₃ h t ht)
  · exact hair.imp hsub₄

theorem Scene.assemble_follows {scene : Scene} (hscene : scene.Closed) :
    Follows (Known []) scene.build scene.assemble SceneTrees.Describes :=
  assemble_related .inRoom hscene

/-- The trees of an entity, at the position. -/
def Entity.trees (entity : Entity) : EntityTrees :=
  (entity.assemble (.node (.var .position))).result

namespace Scene

theorem result_assemble (scene : Scene) : scene.assemble.result =
    ⟨scene.entities.map Entity.trees,
      (scene.camera.mapM fun t => (t.assemble (.outer (.node (.var .position))) :
        Transcript Tree)).result,
      (scene.air.mapM fun t => (t.assemble (.outer (.node (.var .position))) :
        Transcript Tree)).result⟩ := by
  unfold assemble
  simp only [Transcript.result_bind, Transcript.result_mapM, Transcript.result_pure]
  rfl

/-- What trees are made depends on what entities there are, and not on their order or number. -/
theorem mem_made_congr {scene scene' : Scene}
    (hentities : ∀ e, e ∈ scene'.entities ↔ e ∈ scene.entities)
    (hcamera : scene'.camera = scene.camera) (hair : scene'.air = scene.air) (t : Tree) :
    t ∈ scene'.assemble.made ↔ t ∈ scene.assemble.made := by
  simp only [assemble, Transcript.made_bind, Transcript.made_mapM, Transcript.made_pure,
    List.mem_append, List.mem_flatMap, hcamera, hair, hentities]

theorem mem_made_of_perm {scene scene' : Scene} (hperm : scene'.entities.Perm scene.entities)
    (hcamera : scene'.camera = scene.camera) (hair : scene'.air = scene.air) (t : Tree) :
    t ∈ scene'.assemble.made ↔ t ∈ scene.assemble.made :=
  mem_made_congr (fun _ => hperm.mem_iff) hcamera hair t

/-- A scene that is built where nothing is held yet: what it makes is what the arena holds. -/
theorem build_describes {scene : Scene} (hscene : scene.Closed)
    (hroom : scene.build.Room scene.assemble ∅) :
    (scene.build.run ∅).2.WellFormed ∧
      scene.assemble.result.Describes (Denotes (scene.build.run ∅).2.nodes)
        (scene.build.run ∅).1 ∧
      ∀ t, (scene.build.run ∅).2.Holds t ↔ t ∈ scene.assemble.made := by
  obtain ⟨hw, hroots, hholds⟩ :=
    assemble_follows hscene ∅ Arena.wellFormed_empty known_nil hroom
  refine ⟨hw, hroots, fun t => (hholds t).trans (or_iff_right ?_)⟩
  rintro ⟨h, ht⟩
  exact Nat.not_lt_zero _ ht.index_lt

/-- Whatever makes no other trees than a scene that finds room finds room itself. -/
theorem room_of_made_subset {α β : Type} {m : Build α} {m' : Transcript β} {scene : Scene}
    (hscene : scene.Closed) (hroom : scene.build.Room scene.assemble ∅)
    (hmade : ∀ t ∈ m'.made, t ∈ scene.assemble.made) : m.Room m' ∅ := by
  obtain ⟨hw, -, hholds⟩ := build_describes hscene hroom
  obtain ⟨trees, -, hnodes, htrees⟩ := hw.exists_trees
  have hempty (t : Tree) : ¬ (∅ : Arena).Holds t := fun ⟨_, hh⟩ => Nat.not_lt_zero _ hh.index_lt
  rcases hroom with hsize | ⟨all, hlength, hall⟩
  · refine .inr ⟨trees, ?_, fun t ht => ?_⟩
    · rw [← hnodes.length_eq]
      exact hsize
    · exact (htrees t).2 ((hholds t).2 (hmade t (ht.resolve_left (hempty t))))
  · exact .inr ⟨all, hlength, fun t ht => hall t (.inr (hmade t (ht.resolve_left (hempty t))))⟩

theorem room_of_same_made {scene scene' : Scene} (hscene : scene.Closed)
    (hsize : (scene.build.run ∅).2.size ≤ UInt32.size)
    (hmade : ∀ t, t ∈ scene'.assemble.made ↔ t ∈ scene.assemble.made) :
    scene'.build.Room scene'.assemble ∅ :=
  room_of_made_subset hscene (.inl hsize) fun t => (hmade t).1

end Scene

end SphereTracer
