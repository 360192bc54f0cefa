import SphereTracer.Shape.Build
import SphereTracer.Material
import SphereTracer.Camera

/-!
# Scenes

Entities, a camera and the air around them.  Ids start at one, so that zero can say that nothing was
hit.
-/

namespace SphereTracer

/-- What an entity is called within its scene. -/
structure EntityId where
  raw : UInt32
  ne_zero : raw ≠ 0
  deriving DecidableEq, Repr

namespace EntityId

/-- The id of a number; zero is none. -/
def ofRaw? (raw : UInt32) : Option EntityId :=
  if h : raw ≠ 0 then some ⟨raw, h⟩ else none

def toNat (id : EntityId) : Nat := id.raw.toNat

instance : ToString EntityId := ⟨fun id => toString id.raw.toNat⟩

/-- The first id that is handed out. -/
def first : EntityId := ⟨1, by decide⟩

/-- The following id, if there is one. -/
def next? (id : EntityId) : Option EntityId := ofRaw? (id.raw + 1)

end EntityId

/-- A shape and the material that covers it. -/
structure Entity where
  id : EntityId
  shape : Shape Word
  material : Material (Term Word)

structure Scene where
  entities : List Entity
  camera : Camera (Term Word)
  /-- The medium around all entities; its colour is the radiance of rays that leave the scene. -/
  air : Material (Term Word)

namespace Scene

/-- Nothing but plain air before the standard camera. -/
def empty : Scene := ⟨[], .standard, .plain⟩

/-- The entity of the given id. -/
def entity? (scene : Scene) (id : EntityId) : Option Entity :=
  scene.entities.find? (·.id = id)

/-- The same scene with its entities listed the other way round. -/
def reversed (scene : Scene) : Scene := { scene with entities := scene.entities.reverse }

end Scene

/-- A scene under construction, and the id of its next entity. -/
structure SceneBuilder where
  nextId : EntityId
  scene : Scene

namespace SceneBuilder

def start : SceneBuilder := ⟨.first, .empty⟩

/-- Adds an entity and says what its id is; there is none once no id remains for a later entity. -/
def push? (builder : SceneBuilder) (shape : Shape Word) (material : Material (Term Word)) :
    Option (EntityId × SceneBuilder) :=
  match builder.nextId.next? with
  | none => none
  | some next =>
    let entity : Entity := ⟨builder.nextId, shape, material⟩
    some (builder.nextId,
      ⟨next, { builder.scene with entities := builder.scene.entities ++ [entity] }⟩)

def withCamera (builder : SceneBuilder) (camera : Camera (Term Word)) : SceneBuilder :=
  { builder with scene := { builder.scene with camera } }

def withAir (builder : SceneBuilder) (air : Material (Term Word)) : SceneBuilder :=
  { builder with scene := { builder.scene with air } }

end SceneBuilder

/-- The scene of a list of entities, whose ids count from one. -/
def Scene.ofEntities? (entities : List (Shape Word × Material (Term Word))) : Option SceneBuilder :=
  entities.foldlM (fun builder entity => (builder.push? entity.1 entity.2).map (·.2)) .start

end SphereTracer
