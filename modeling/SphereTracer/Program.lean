import Std.Data.HashSet
import SphereTracer.Scene
import SphereTracer.Options

/-!
# Programs

A scene as plain data: one arena, and for every procedure of the kernel the nodes it needs in an
order in which they can be evaluated.
-/

namespace SphereTracer

/-- The procedures that are generated from a scene's terms. -/
inductive ProcedureName where
  | distance (id : EntityId)
  | material (id : EntityId)
  | frame
  deriving DecidableEq, Repr

namespace ProcedureName

def describe : ProcedureName → String
  | distance id => "distance" ++ toString id
  | material id => "material" ++ toString id
  | frame => "the camera or air material"

/-- The variables that a procedure may read. -/
def scope : ProcedureName → List Var
  | distance _ => [.position, .time, .mouse]
  | material _ => [.position, .normal, .direction, .time, .mouse]
  | frame => [.time, .mouse]

end ProcedureName

/-- Why a scene has no program. -/
inductive CompileError where
  | graph (e : GraphError)
  | unbound (v : Var) (procedure : ProcedureName)
  /-- The named constant is infinite or not a number. -/
  | nonFinite (name : String)
  /-- Two different nodes have the name. -/
  | collision (name : String)
  | duplicate (id : EntityId)
  | option (e : OptionError)
  deriving DecidableEq, Repr

def CompileError.message : CompileError → String
  | graph e => e.message
  | unbound v procedure => "`" ++ v.name ++ "` is not available in " ++ procedure.describe
  | nonFinite name => "constant " ++ name ++ " is not finite"
  | collision name => "distinct expressions share the name " ++ name
  | duplicate id => "entity " ++ toString id ++ " appears more than once"
  | option e => e.message

/-- An entity's nodes: its distance and its material. -/
structure EntityRoots where
  id : EntityId
  distance : Handle
  material : Material Handle
  deriving DecidableEq, Repr

/-- An entity whose two procedures have been put in order. -/
structure EntityProgram extends EntityRoots where
  distanceOrder : Array Handle
  materialOrder : Array Handle
  deriving DecidableEq, Repr

/-- What is computed once per frame: the camera and the air. -/
structure FrameProgram where
  order : Array Handle
  camera : Camera Handle
  air : Material Handle
  deriving DecidableEq, Repr

/-- A scene in a form that can be evaluated and printed.  The entities are sorted by id. -/
structure Program where
  nodes : Array Node
  entities : Array EntityProgram
  frame : FrameProgram
  options : Options Word

namespace Program

/-- Looks for an id among the entities from `low` up to `high`, by halving. -/
def search (entities : Array EntityProgram) (id : UInt32) (low high : Nat) : Option EntityProgram :=
  if low < high then
    let middle := (low + high) / 2
    match entities[middle]? with
    | none => none
    | some e =>
      if e.id.raw = id then some e
      else if e.id.raw < id then search entities id (middle + 1) high
      else search entities id low middle
  else none
termination_by high - low

def entity? (program : Program) (id : UInt32) : Option EntityProgram :=
  search program.entities id 0 program.entities.size

end Program

/-- All of a scene's roots. -/
structure SceneRoots where
  entities : List EntityRoots
  camera : Camera Handle
  air : Material Handle

namespace Scene

/-- Builds an entity's distance at `p`, then its material. -/
def buildEntity (p : Handle) (entity : Entity) : Build EntityRoots := do
  let distance ← entity.shape.buildAt p
  let material ← entity.material.mapM (Term.build (.outer p))
  return ⟨entity.id, distance, material⟩

/-- Builds every entity in turn, then the camera and the air. -/
def build (scene : Scene) : Build SceneRoots := do
  let p ← Build.var .position
  let entities ← scene.entities.mapM (buildEntity p)
  let camera ← scene.camera.mapM (Term.build (.outer p))
  let air ← scene.air.mapM (Term.build (.outer p))
  return ⟨entities, camera, air⟩

end Scene

namespace Program

/-- Nodes are called by their hashes and constants are written as numbers: no hash may occur twice,
and every constant has to be finite. -/
def checkNames (nodes : List Node) (seen : Std.HashSet UInt64) : Except CompileError Unit :=
  match nodes with
  | [] => .ok ()
  | node :: rest =>
    -- Equal operations are one node, so a hash that comes again belongs to another operation.
    if seen.contains node.hash then .error (.collision node.name)
    else
      match node.op.constant? with
      | some c =>
        if c.x.isFinite && c.y.isFinite && c.z.isFinite then
          checkNames rest (seen.insert node.hash)
        else .error (.nonFinite node.name)
      | none => checkNames rest (seen.insert node.hash)

/-- The variable that a node reads. -/
def varOf (nodes : Array Node) (h : Handle) : Option Var :=
  match nodes[h.index]? with
  | some ⟨.var v, _⟩ => some v
  | _ => none

/-- The first variable of an order that is out of a procedure's scope is an error. -/
def checkScope (nodes : Array Node) (procedure : ProcedureName) (order : Array Handle) :
    Except CompileError Unit :=
  match (order.toList.filterMap (varOf nodes)).find? (! procedure.scope.contains ·) with
  | some v => .error (.unbound v procedure)
  | none => .ok ()

/-- The order in which a procedure evaluates what its roots need. -/
def arrange (nodes : Array Node) (procedure : ProcedureName) (roots : List Handle) :
    Except CompileError (Array Handle) := do
  let order ← (flatten nodes roots).mapError CompileError.graph
  checkScope nodes procedure order
  return order

/-- The first entity of a sorted list whose id follows immediately once more. -/
def repeated? : List EntityRoots → Option EntityId
  | a :: b :: rest => if a.id = b.id then some a.id else repeated? (b :: rest)
  | _ => none

def ofEntity (nodes : Array Node) (roots : EntityRoots) : Except CompileError EntityProgram := do
  let distanceOrder ← arrange nodes (.distance roots.id) [roots.distance]
  let materialOrder ← arrange nodes (.material roots.id) roots.material.toList
  return { roots with distanceOrder, materialOrder }

/-- Puts the procedures of a built scene in order, entities by ascending id. -/
def ofRoots (nodes : Array Node) (roots : SceneRoots) (options : Options Word) :
    Except CompileError Program := do
  checkNames nodes.toList ∅
  let sorted := roots.entities.mergeSort fun a b => a.id.raw ≤ b.id.raw
  match repeated? sorted with
  | some id => throw (.duplicate id)
  | none => pure ()
  let entities ← sorted.mapM (ofEntity nodes)
  let order ← arrange nodes .frame (roots.camera.toList ++ roots.air.toList)
  return ⟨nodes, entities.toArray, ⟨order, roots.camera, roots.air⟩, options⟩

def ofScene (scene : Scene) (options : Options Word) : Except CompileError Program := do
  options.validate.mapError CompileError.option
  let (roots, arena) := scene.build.run ∅
  ofRoots arena.nodes roots options

end Program

end SphereTracer
