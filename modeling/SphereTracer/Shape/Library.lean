import SphereTracer.Shape.Basic

/-!
# Shapes made of shapes

Solids, rounded boxes, twists, a random tiling and a branching tree, all of them composed from the
basic shapes.
-/

namespace SphereTracer.Shape

section
variable {κ : Type} [OfScientific κ] [Neg κ]

/-- Empty space. -/
def empty : Shape κ := field (.splat maxDistance)

/-- Solid everywhere. -/
def solid : Shape κ := field (.splat (-maxDistance))

/-- Rotation about +x: a quarter turn carries +y onto +z. -/
def rotateX (angle : Term κ) (a : Shape κ) : Shape κ := rotate (.constant (Axis.unit .x)) angle a

/-- Rotation about +y: a quarter turn carries +z onto +x. -/
def rotateY (angle : Term κ) (a : Shape κ) : Shape κ := rotate (.constant (Axis.unit .y)) angle a

/-- Rotation about +z: a quarter turn carries +x onto +y. -/
def rotateZ (angle : Term κ) (a : Shape κ) : Shape κ := rotate (.constant (Axis.unit .z)) angle a

/-- Turns each slice across an axis by `rate` radians per unit along that axis. -/
def twist (axis : Axis) (rate : Term κ) (a : Shape κ) : Shape κ :=
  rotate (.constant axis.unit) (.component .here axis * rate) a

/-- The box of the given full dimensions whose edges are rounded by `radius`. -/
def smoothBox (dimensions radius : Term κ) : Shape κ :=
  let inset := dimensions - radius
  let corner := .after inset (0.5 * inset)
  mirror (.constant (Axis.unit .x)) <| mirror (.constant (Axis.unit .y)) <|
    mirror (.constant (Axis.unit .z)) <|
      translate corner (clampPositive (scale radius (sphere 0.5)))

/-- The points on the inner side of a plane at distance one half, for each of the normals. -/
def polyhedron (normals : List (Vec3 κ)) : Shape κ :=
  normals.foldl (fun s n => intersection s (plane (.constant n) (.splat (-0.5)))) solid

/-- The cube of width 1. -/
def cube : Shape κ :=
  polyhedron [⟨1.0, 0.0, 0.0⟩, ⟨-1.0, 0.0, 0.0⟩, ⟨0.0, 1.0, 0.0⟩, ⟨0.0, -1.0, 0.0⟩,
    ⟨0.0, 0.0, 1.0⟩, ⟨0.0, 0.0, -1.0⟩]

end

/-- The polyhedron whose normals have binary32 lanes. -/
private def polyhedronOf (normals : List (Vec3 Float32)) : Shape Word :=
  polyhedron (normals.map Vec3.toWords)

/-- The tetrahedron of circumscribed diameter 1. -/
def tetrahedron : Shape Word :=
  let l : Float32 := 1.0 / Float32.sqrt 3.0
  polyhedronOf [⟨-l, -l, -l⟩, ⟨-l, l, l⟩, ⟨l, -l, l⟩, ⟨l, l, -l⟩]

/-- The octahedron of circumscribed diameter 1. -/
def octahedron : Shape Word :=
  let l : Float32 := 1.0 / Float32.sqrt 3.0
  polyhedronOf <| [l, -l].flatMap fun x => [l, -l].flatMap fun y => [l, -l].map fun z => ⟨x, y, z⟩

/-- The dodecahedron of circumscribed diameter 1. -/
def dodecahedron : Shape Word :=
  let phi : Float32 := 0.5 * (1.0 + Float32.sqrt 5.0)
  let l := Float32.sqrt (phi * phi + 1.0)
  let a := phi / l
  let b := 1.0 / l
  polyhedronOf [⟨a, b, 0.0⟩, ⟨a, -b, 0.0⟩, ⟨0.0, a, b⟩, ⟨0.0, a, -b⟩, ⟨b, 0.0, a⟩, ⟨-b, 0.0, a⟩,
    ⟨-a, b, 0.0⟩, ⟨-a, -b, 0.0⟩, ⟨0.0, -a, b⟩, ⟨0.0, -a, -b⟩, ⟨b, 0.0, -a⟩, ⟨-b, 0.0, -a⟩]

/-- An angle that has been computed. -/
private def angleOf (radians : Float32) : Term Word := .splat (.ofFloat radians)

/-- Cells of quarter tori, each turned at random. -/
def truchet : Shape Word :=
  let quarter : Float32 := Scalar.pi / 2.0
  let threeQuarters : Float32 := 3.0 * Scalar.pi / 2.0
  let ring : Shape Word := torus 0.5 0.1
  let base :=
    intersection cube <|
      union
        (union (translate (.constant ⟨0.5, 0.0, 0.5⟩) ring)
          (translate (.constant ⟨-0.5, 0.5, 0.0⟩) (rotateX (angleOf quarter) ring)))
        (translate (.constant ⟨0.0, -0.5, -0.5⟩) (rotateZ (angleOf quarter) ring))
  let turned := #[base, rotateX (angleOf quarter) base, rotateX (angleOf Scalar.pi) base,
    rotateX (angleOf threeQuarters) base]
  modulate 1.0 0.01 (choose (.random .cell) turned.size fun i => turned[i])

namespace Tree

/-- The deepest tree that is unrolled; each level doubles the nodes. -/
def maxDepth : Nat := 8

def length : Float32 := 1.2

def width : Float32 := 0.1

/-- The scale of a branch against the level below it. -/
def factor : Float32 := 0.58

/-- How far a branch leans, in radians. -/
def lean : Float32 := Scalar.radians 50.0

/-- The trunk segment that trees grow from unless another is given. -/
def bar : Shape Word :=
  smoothBox (.constant (Vec3.toWords ⟨width, length, width⟩)) (.splat (.ofFloat width))

/-- Where a branch leaves the trunk. -/
def fork : Vec3 Float32 :=
  ⟨length * factor / 2.0 * lean.sin, width + length / 2.0 * (1.0 + factor / 2.0 * lean.cos), 0.0⟩

/-- A tree of the given number of levels: two are a trunk and its branches in four directions. -/
def grow (leaf : Shape Word) : Nat → Shape Word
  | 0 => leaf
  | 1 => leaf
  | n + 2 =>
    let trunk := grow leaf (n + 1)
    let s : Float32 := Scalar.invSqrtTwo
    let branch :=
      mirror (.constant (Vec3.toWords ⟨s, 0.0, s⟩)) <|
        mirror (.constant (Vec3.toWords ⟨s, 0.0, -s⟩)) <|
          translate (.constant fork.toWords) <| scale (.splat (.ofFloat factor)) <|
            rotateY (.splat (-0.1)) <| rotateZ (angleOf (-lean)) trunk
    smoothUnion (.splat (.ofFloat (0.15 * Scalar.powi factor (n + 2)))) trunk branch

end Tree

/-- A branching tree grown from `leaf`, which should span the trunk: a bar of half height 1.2 about
the origin.  Levels beyond `Tree.maxDepth` are dropped. -/
def treeWith (levels : UInt32) (leaf : Shape Word) : Shape Word :=
  Tree.grow leaf (min levels.toNat Tree.maxDepth)

/-- A branching tree grown from a rounded bar. -/
def tree (levels : UInt32) : Shape Word := treeWith levels Tree.bar

end SphereTracer.Shape
