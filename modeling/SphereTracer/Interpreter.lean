import SphereTracer.Program

/-!
# Interpretation

What a kernel's generated procedures compute, evaluated directly.  An interpreter keeps one table of
slots, which every question overwrites.
-/

namespace SphereTracer

/-- The inputs of a frame that terms may read. -/
structure Environment (S : Type) where
  mouse : Vec2 S
  time : S

/-- The nearest entity; the id is zero if nothing is in range. -/
structure Closest (S : Type) where
  id : UInt32
  distance : S

/-- A material at one point. -/
structure Surface (S : Type) where
  transmittance : S
  smoothness : S
  refraction : S
  scatter : S
  color : Vec3 S
  emissivity : Vec3 S

/-- The camera and the air of one frame. -/
structure Frame (S : Type) where
  eye : Vec3 S
  lookAt : Vec3 S
  upHint : Vec3 S
  fieldOfView : S
  aperture : S
  focalFactor : S
  air : Surface S

variable {S : Type} [Scalar S]

@[specialize] def Closest.none : Closest S := ⟨0, maxDistance⟩

/-- Takes over a nearer candidate; of equal ones the first stays. -/
@[specialize] def Closest.offer (closest : Closest S) (id : UInt32) (distance : S) : Closest S :=
  if Scalar.lt distance closest.distance then ⟨id, distance⟩ else closest

/-- What an unknown id looks like: black, dark and opaque. -/
@[specialize] def Surface.absorber : Surface S := ⟨0.0, 1.0, 1.0, maxDistance, .zero, .zero⟩

/-- A surface from the values of a material's nodes. -/
@[specialize] def Surface.ofMaterial (m : Material (Vec3 S)) : Surface S :=
  ⟨m.transmittance.x, m.smoothness.x, m.refraction.x, m.scatter.x, m.color, m.emissivity⟩

/-- A frame from the values of the camera's and the air's nodes. -/
@[specialize] def Frame.ofValues (camera : Camera (Vec3 S)) (air : Material (Vec3 S)) :
    Frame S where
  eye := camera.eye
  lookAt := camera.target
  upHint := camera.up
  fieldOfView := camera.fieldOfView.x
  aperture := camera.aperture.x
  focalFactor := camera.focalFactor.x
  air := .ofMaterial air

/-- A program, the inputs of its frame and a slot for each of its nodes. -/
structure Interpreter (S : Type) where
  program : Program
  environment : Environment S
  slots : Slots S

/-- The directions of the four-tap gradient. -/
@[specialize] def cheapTaps : List (Vec3 S) :=
  [⟨1.0, -1.0, -1.0⟩, ⟨-1.0, -1.0, 1.0⟩, ⟨-1.0, 1.0, -1.0⟩, .one]

namespace Interpreter

@[specialize] def new (program : Program) (environment : Environment S) : Interpreter S :=
  ⟨program, environment, .blank program.nodes.size⟩

/-- The values of all variables at a point. -/
@[specialize] def bindings (environment : Environment S) (position normal direction : Vec3 S) :
    Bindings S :=
  ⟨position, normal, direction, environment.mouse, environment.time⟩

@[specialize] def run (it : Interpreter S) (order : Array Handle) (b : Bindings S) :
    Interpreter S :=
  match it with
  | ⟨program, environment, slots⟩ => ⟨program, environment, slots.run program.nodes order b⟩

/-- The signed distance from `p` to an entity. -/
@[specialize] def distance (it : Interpreter S) (entity : EntityProgram) (p : Vec3 S) :
    S × Interpreter S :=
  let it := it.run entity.distanceOrder (bindings it.environment p .zero .zero)
  ((it.slots.get entity.distance).x, it)

/-- The entity of the least absolute distance below `maxDistance`; of equal ones the lower id. -/
@[specialize] def closest (it : Interpreter S) (p : Vec3 S) : Closest S × Interpreter S :=
  it.program.entities.foldl (fun (best, it) entity =>
    let (d, it) := it.distance entity p
    (best.offer entity.id.raw (Scalar.abs d), it)) (Closest.none, it)

/-- The gradient of an entity's distance from four corners of a cube of half width `h`. -/
@[specialize] def cheapGradient (it : Interpreter S) (entity : EntityProgram) (h : S) (p : Vec3 S) :
    Vec3 S × Interpreter S :=
  cheapTaps.foldl (fun (gradient, it) tap =>
    let (d, it) := it.distance entity (p + .scale h tap)
    (gradient + .scale d tap, it)) (Vec3.zero, it)

/-- The gradient of an entity's distance from central differences along the axes. -/
@[specialize] def centralGradient (it : Interpreter S) (entity : EntityProgram) (h : S)
    (p : Vec3 S) : Vec3 S × Interpreter S :=
  [Vec3.unitX, Vec3.unitY, Vec3.unitZ].foldl (fun (gradient, it) axis =>
    let e := Vec3.scale h axis
    let (ahead, it) := it.distance entity (p + e)
    let (behind, it) := it.distance entity (p - e)
    (gradient + .scale (ahead - behind) axis, it)) (Vec3.zero, it)

/-- The unit gradient of an entity's distance, zero for an unknown id. -/
@[specialize] def normal (it : Interpreter S) (id : UInt32) (p : Vec3 S) : Vec3 S × Interpreter S :=
  match it.program.entity? id with
  | none => (.zero, it)
  | some entity =>
    let h := Scalar.ofWord it.program.options.normalEpsilon
    let (gradient, it) :=
      if it.program.options.cheapNormals then it.cheapGradient entity h p
      else it.centralGradient entity h p
    (gradient.normalize, it)

/-- The material of an entity at a point, for a normal and the direction of the incoming ray. -/
@[specialize] def material (it : Interpreter S) (id : UInt32) (p n d : Vec3 S) :
    Surface S × Interpreter S :=
  match it.program.entity? id with
  | none => (.absorber, it)
  | some entity =>
    let it := it.run entity.materialOrder (bindings it.environment p n d)
    (.ofMaterial (entity.material.map it.slots.get), it)

@[specialize] def frame (it : Interpreter S) : Frame S × Interpreter S :=
  let program := it.program.frame
  let it := it.run program.order (bindings it.environment .zero .zero .zero)
  (.ofValues (program.camera.map it.slots.get) (program.air.map it.slots.get), it)

end Interpreter

end SphereTracer
