import SphereTracer.Proofs.Graph.Alike
import SphereTracer.Proofs.Interpreter.Answers
import SphereTracer.Proofs.Scene.Built
import SphereTracer.Proofs.Shape.Compiled

/-!
# Shapes in an arena of their own

A shape that is built with nothing beside it gives the distance that it gives among the shapes of a
scene: its tree is the same, and so is the value of its tree.
-/

namespace SphereTracer

open SphereTracer.Graph

namespace Shape

/-- What a shape makes at the position. -/
def assembleAlone (shape : Shape Word) : Transcript Tree := do
  shape.assemble (.outer (← Build.var .position))

/-- The distance for given values of the variables, through an arena of the shape's own. -/
def distanceUnder {S : Type} [Scalar S] (shape : Shape Word) (bindings : Bindings S) :
    Except GraphError S :=
  (flatten shape.alone.2.nodes [shape.alone.1]).map fun order =>
    ((Slots.run shape.alone.2.nodes order bindings (.blank shape.alone.2.size)).get
      shape.alone.1).x

theorem distanceAt_eq_distanceUnder (shape : Shape Word) (point : Vec3 Float32) :
    shape.distanceAt point = shape.distanceUnder (.atPoint point) :=
  distanceAt_eq_map shape point

theorem alone_follows {shape : Shape Word} (hshape : shape.Closed) :
    Build.Follows (Known []) (do shape.buildAt (← Build.var .position)) shape.assembleAlone id := by
  refine Build.Follows.bind (Simulation.inRoom.var .position) fun p reading _ hp => ?_
  have hps : Known [(p, .node (.var .position))] p (.node (.var .position)) := List.mem_cons_self
  exact (assemble_follows hshape hps hps).weaken (known_singleton hp)

theorem alone_denotes {shape : Shape Word} (hshape : shape.Closed)
    (hroom : Build.Room (do shape.buildAt (← Build.var .position)) shape.assembleAlone ∅) :
    shape.alone.2.WellFormed ∧ Denotes shape.alone.2.nodes shape.alone.1
      shape.assembleAlone.result := by
  obtain ⟨hw, hroot, -⟩ := alone_follows hshape ∅ Arena.wellFormed_empty known_nil hroom
  exact ⟨hw, hroot⟩

/-- Where the tree of a shape can be flattened in some arena, it can in the shape's own. -/
theorem distanceUnder_eq {S : Type} [Scalar S] {shape : Shape Word} {arena : Arena} {h : Handle}
    {t : Tree} (hw : arena.WellFormed) (ht : Denotes arena.nodes h t)
    (halone : shape.alone.2.WellFormed) (hroot : Denotes shape.alone.2.nodes shape.alone.1 t)
    {order : Array Handle} (horder : flatten arena.nodes [h] = .ok order) (bindings : Bindings S) :
    shape.distanceUnder bindings = .ok (t.eval bindings).x := by
  -- The same tree has the same order up to the names of its nodes, so both can be flattened.
  obtain ⟨order', horder', -⟩ :=
    flatten_alike (hw.alike halone) (.cons ⟨t, ht, hroot⟩ .nil) horder
  have he := evaluable_of_flatten horder'
  have hget : ((Slots.blank shape.alone.2.size).run shape.alone.2.nodes order' bindings).get
      shape.alone.1 = t.eval bindings :=
    he.get_run Array.size_replicate (he.root_mem _ List.mem_cons_self) hroot
  rw [distanceUnder, horder', Except.map, hget]

/-- The distance at a site, by the tree that the shape makes there. -/
def builtDistance {S : Type} [Scalar S] (bindings : Bindings S) (site : Site Tree)
    (shape : Shape Word) : S :=
  ((shape.assemble site : Transcript Tree).result.eval bindings).x

/-- Within the limits, an arena of the shape's own answers for the tree at the position. -/
theorem distanceUnder_eq_builtDistance {S : Type} [Scalar S] {shape : Shape Word}
    (hshape : shape.Closed) (hroom : shape.alone.2.size ≤ UInt32.size)
    (hwithin : ¬ Walk.Exceeds shape.alone.2.nodes [shape.alone.1]) (bindings : Bindings S) :
    shape.distanceUnder bindings =
      .ok (shape.builtDistance bindings (.outer (.node (.var .position)))) := by
  obtain ⟨hw, hroot⟩ := alone_denotes hshape (.inl hroom)
  obtain ⟨order, horder, -⟩ := hroot.run_flatten hw hwithin
  exact distanceUnder_eq hw hroot hw hroot horder bindings

end Shape

/-- What the shape of an entity makes is among what the scene makes. -/
theorem Scene.mem_made_of_mem {scene : Scene} {entity : Entity} (hentity : entity ∈ scene.entities)
    {t : Tree} (ht : t ∈ entity.shape.assembleAlone.made) : t ∈ scene.assemble.made := by
  simp only [assemble, Shape.assembleAlone, Entity.assemble, Transcript.made_bind,
    Transcript.made_mapM, List.mem_append, List.mem_flatMap] at ht ⊢
  exact ht.imp_right fun ht => .inl ⟨entity, hentity, .inl ht⟩

/-- A scene that finds room leaves room for each of its shapes alone. -/
theorem Scene.room_alone {scene : Scene} (hscene : scene.Closed)
    (hroom : scene.build.Room scene.assemble ∅) {entity : Entity}
    (hentity : entity ∈ scene.entities) :
    Build.Room (do entity.shape.buildAt (← Build.var .position)) entity.shape.assembleAlone ∅ :=
  room_of_made_subset hscene hroom fun _ => mem_made_of_mem hentity

end SphereTracer
