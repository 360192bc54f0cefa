import SphereTracer.Shader.Expression
import SphereTracer.Program

/-!
# Generated functions

The functions that a program turns into.  Every node becomes one binding named by its hash, so an
expression that is used several times is computed once.
-/

namespace SphereTracer.Shader

/-- `p: vec3<f32>` and the like. -/
def vectorParameter (name : String) : Parameter := ⟨name, "vec3<f32>"⟩

def nodeIdent (nodes : Array Node) (h : Handle) : Ident := .node (Arena.hashOf nodes h)

def nodeCode (nodes : Array Node) (h : Handle) : Code := .name (nodeIdent nodes h)

/-- The binding of a node. -/
def binding (nodes : Array Node) (h : Handle) : Line :=
  let code :=
    match nodes[h.index]? with
    | some node => opCode (nodeCode nodes) node.op
    | none => nodeCode nodes h
  ⟨1, .bind (nodeIdent nodes h) code⟩

/-- The bindings of an order. -/
def bindings (nodes : Array Node) (order : Array Handle) : List Line :=
  order.toList.map (binding nodes)

/-- A material from its nodes. -/
def materialCode (nodes : Array Node) (m : Material Handle) : Code :=
  .builtin .material [(nodeCode nodes m.transmittance).first, (nodeCode nodes m.smoothness).first,
    (nodeCode nodes m.refraction).first, (nodeCode nodes m.scatter).first,
    nodeCode nodes m.color, nodeCode nodes m.emissivity]

/-- A frame from its nodes. -/
def frameCode (nodes : Array Node) (camera : Camera Handle) (air : Material Handle) : Code :=
  .builtin .frame [nodeCode nodes camera.eye, nodeCode nodes camera.target, nodeCode nodes camera.up,
    (nodeCode nodes camera.fieldOfView).first, (nodeCode nodes camera.aperture).first,
    (nodeCode nodes camera.focalFactor).first, materialCode nodes air]

def distanceFunction (nodes : Array Node) (e : EntityProgram) : Function where
  name := .distance e.id
  parameters := [vectorParameter "p"]
  result := "f32"
  body := bindings nodes e.distanceOrder ++
    [⟨1, .giveBack (nodeCode nodes e.distance).first⟩]

/-- The distance to an entity at a point. -/
def distanceAt (id : EntityId) (point : Code) : Code := .call (.generated (.distance id)) [point]

/-- One term of the four-tap gradient. -/
def cheapTap (id : EntityId) (lanes after : String) : Line :=
  let k : Code := .access (.named "k") lanes
  let step : Code := .operation .mul k (.named "NORMAL_EPSILON")
  ⟨2, .part "" (.operation .mul k (distanceAt id (.operation .add (.named "p") step))) after⟩

/-- One lane of the central differences. -/
def centralDifference (id : EntityId) (lanes after : String) : Line :=
  let e : Code := .access (.named "e") lanes
  ⟨2, .part "" (.operation .sub (distanceAt id (.operation .add (.named "p") e))
    (distanceAt id (.operation .sub (.named "p") e))) after⟩

/-- The unit gradient of an entity's distance. -/
def normalFunction (cheap : Bool) (id : EntityId) : Function where
  name := .normal id
  parameters := [vectorParameter "p"]
  result := "vec3<f32>"
  body :=
    if cheap then
      [⟨1, .bind (.named "k") (.builtin .vec2 [.float 1.0, .float (-1.0)])⟩,
        ⟨1, .raw "return normalize("⟩,
        cheapTap id "xyy" " +", cheapTap id "yyx" " +", cheapTap id "yxy" " +",
        cheapTap id "xxx" ");"]
    else
      [⟨1, .bind (.named "e") (.builtin .vec2 [.named "NORMAL_EPSILON", .float 0.0])⟩,
        ⟨1, .raw "return normalize(vec3<f32>("⟩,
        centralDifference id "xyy" ",", centralDifference id "yxy" ",",
        centralDifference id "yyx" "));"]

/-- The parameters of a material: point, normal and direction. -/
def materialParameters : List Parameter :=
  [vectorParameter "p", vectorParameter "n", vectorParameter "d"]

def materialFunction (nodes : Array Node) (e : EntityProgram) : Function where
  name := .material e.id
  parameters := materialParameters
  result := "Material"
  body := bindings nodes e.materialOrder ++
    [⟨1, .giveBack (materialCode nodes e.material)⟩]

def frameFunction (nodes : Array Node) (frame : FrameProgram) : Function where
  name := .frameSetup
  parameters := []
  result := "Frame"
  body := bindings nodes frame.order ++
    [⟨1, .giveBack (frameCode nodes frame.camera frame.air)⟩]

def closing : Line := ⟨1, .raw "\x7d"⟩

/-- Compares one entity with the nearest so far. -/
def closestCase (id : EntityId) : List Line :=
  let d : Ident := .named ("d" ++ toString id)
  [⟨1, .bind d (.builtin .abs [distanceAt id (.named "p")])⟩,
    ⟨1, .part "if (" (.operation .less (.name d) (.access (.named "closest") "dist")) ") \x7b"⟩,
    ⟨2, .part "closest = " (.builtin .closest [.int id.raw, .name d]) ";"⟩,
    closing]

/-- The nearest entity. -/
def closestFunction (ids : List EntityId) : Function where
  name := .calculateClosest
  parameters := [vectorParameter "p"]
  result := "Closest"
  body := ⟨1, .part "var closest = " (.builtin .closest [.int 0, .named "MAX_VALUE"]) ";"⟩ ::
    ids.flatMap closestCase ++ [⟨1, .giveBack (.named "closest")⟩]

/-- Answers for one entity by a function of its own. -/
def idCase (callee : EntityId → FunctionName) (arguments : List Code) (id : EntityId) : List Line :=
  [⟨1, .part "if (" (.operation .equal (.named "id") (.int id.raw)) ") \x7b"⟩,
    ⟨2, .giveBack (.call (.generated (callee id)) arguments)⟩,
    closing]

/-- The normal of an entity by its id. -/
def normalDispatch (ids : List EntityId) : Function where
  name := .calculateNormal
  parameters := [⟨"id", "i32"⟩, vectorParameter "p"]
  result := "vec3<f32>"
  body := ids.flatMap (idCase .normal [.named "p"]) ++ [⟨1, .giveBack (.splat (.float 0.0))⟩]

/-- The material of an entity by its id. -/
def materialDispatch (ids : List EntityId) : Function where
  name := .calculateMaterial
  parameters := ⟨"id", "i32"⟩ :: materialParameters
  result := "Material"
  body := ids.flatMap (idCase .material [.named "p", .named "n", .named "d"]) ++
    [⟨1, .giveBack (.builtin .material [.float 0.0, .float 1.0, .float 1.0, .named "MAX_VALUE",
      .splat (.float 0.0), .splat (.float 0.0)])⟩]

def mandelbulbFunction (n : UInt32) : Function where
  name := .mandelbulb n
  parameters := [vectorParameter "p", ⟨"power", "f32"⟩]
  result := "f32"
  body :=
    [⟨1, .raw "var z = p;"⟩,
      ⟨1, .raw "var dr = 1.0;"⟩,
      ⟨1, .raw "var r = 0.0;"⟩,
      ⟨1, .raw ("for (var i = 0u; i < " ++ toString n.toNat ++ "u; i++) \x7b")⟩,
      ⟨2, .raw "r = length(z);"⟩,
      ⟨2, .part "if (r > " (.float (.ofFloat Intrinsic.bailout)) ") \x7b"⟩,
      ⟨3, .raw "break;"⟩,
      ⟨2, .raw "\x7d"⟩,
      ⟨2, .raw "let safe_r = max(r, 1e-6);"⟩,
      ⟨2, .raw "let theta = acos(clamp(z.z / safe_r, -1.0, 1.0)) * power;"⟩,
      ⟨2, .raw "let phi = atan2(z.y, z.x) * power;"⟩,
      ⟨2, .raw "dr = pow(safe_r, power - 1.0) * power * dr + 1.0;"⟩,
      ⟨2, .raw ("z = pow(safe_r, power) * vec3<f32>(sin(theta) * cos(phi), sin(phi) * sin(theta), " ++
        "cos(theta)) + p;")⟩,
      closing,
      ⟨1, .raw "return 0.5 * log(max(r, 1e-6)) * r / dr;"⟩]

def foldFunction (n : UInt32) : Function where
  name := .fold n
  parameters := [vectorParameter "p"]
  result := "vec3<f32>"
  body :=
    let (n₁, n₂, n₃) := (Intrinsic.foldNormals : Vec3 Float32 × Vec3 Float32 × Vec3 Float32)
    [⟨1, .bind (.named "n1") (.vector n₁.toWords)⟩,
      ⟨1, .bind (.named "n2") (.vector n₂.toWords)⟩,
      ⟨1, .bind (.named "n3") (.vector n₃.toWords)⟩,
      ⟨1, .raw "var q = p;"⟩,
      ⟨1, .raw ("for (var i = 0u; i < " ++ toString n.toNat ++ "u; i++) \x7b")⟩,
      ⟨2, .raw "q = q - 2.0 * min(0.0, dot(q, n1)) * n1;"⟩,
      ⟨2, .raw "q = q - 2.0 * min(0.0, dot(q, n2)) * n2;"⟩,
      ⟨2, .raw "q = q - 2.0 * min(0.0, dot(q, n3)) * n3;"⟩,
      ⟨2, .part "q = q * 2.0 - " (.vector (Intrinsic.foldOffset : Vec3 Float32).toWords) ";"⟩,
      closing,
      ⟨1, .raw "return q;"⟩]

/-- The counts that occur among the operations of some nodes, each once, in ascending order. -/
def counts (nodes : Array Node) (count? : GraphOp → Option UInt32) : List UInt32 :=
  ((nodes.toList.filterMap fun node => count? node.op).eraseDups).mergeSort (· ≤ ·)

def mandelbulbCount? {α : Type} : Op Word α → Option UInt32
  | .mandelbulb _ _ n => some n
  | _ => none

def foldCount? {α : Type} : Op Word α → Option UInt32
  | .fold _ n => some n
  | _ => none

/-- One function for each number of rounds in use. -/
def helpers (nodes : Array Node) : List Function :=
  (counts nodes mandelbulbCount?).map mandelbulbFunction ++
    (counts nodes foldCount?).map foldFunction

def entityFunctions (program : Program) (e : EntityProgram) : List Function :=
  [distanceFunction program.nodes e, normalFunction program.options.cheapNormals e.id,
    materialFunction program.nodes e]

/-- The functions that follow the helpers. -/
def procedures (program : Program) : List Function :=
  let ids := program.entities.toList.map (·.id)
  program.entities.toList.flatMap (entityFunctions program) ++
    [closestFunction ids, normalDispatch ids, materialDispatch ids,
      frameFunction program.nodes program.frame]

end SphereTracer.Shader
