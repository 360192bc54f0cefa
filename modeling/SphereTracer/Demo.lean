import SphereTracer.Shape.Library
import SphereTracer.Scene
import SphereTracer.Options

/-!
# Built-in scenes
-/

namespace SphereTracer

inductive Demo where
  /-- Three spheres on a floor under a bright sky. -/
  | spheres
  /-- A mirror ball inside a box of coloured lights. -/
  | mirrorBox
  /-- A glass ball in front of a striped light. -/
  | glass
  /-- Smooth and hard unions side by side. -/
  | blend
  | tree
  | mandelbulb
  | sierpinski
  deriving DecidableEq, Repr, Inhabited

namespace Demo

def all : List Demo := [spheres, mirrorBox, glass, blend, tree, mandelbulb, sierpinski]

/-- What a scene is called on the command line. -/
def name : Demo → String
  | spheres => "spheres"
  | mirrorBox => "mirror-box"
  | glass => "glass"
  | blend => "blend"
  | tree => "tree"
  | mandelbulb => "mandelbulb"
  | sierpinski => "sierpinski"

/-- What a scene is called in messages. -/
def title : Demo → String
  | spheres => "Spheres"
  | mirrorBox => "MirrorBox"
  | glass => "Glass"
  | blend => "Blend"
  | tree => "Tree"
  | mandelbulb => "Mandelbulb"
  | sierpinski => "Sierpinski"

def ofName? (s : String) : Option Demo := all.find? (·.name = s)

/-- The options that a scene renders well with. -/
def options : Demo → Options Word
  | mandelbulb | sierpinski =>
    { Options.standard with steps := 200, stepFactor := 0.6, epsilon := 1e-4 }
  | tree => { Options.standard with steps := 150, stepFactor := 0.8 }
  | glass => { Options.standard with bounces := 12 }
  | spheres | mirrorBox | blend => .standard

/-- A shape and its material, as scenes list them. -/
abbrev Subject := Shape Word × Material (Term Word)

def vec (x y z : Word) : Term Word := .constant ⟨x, y, z⟩

def coloured (x y z : Word) : Material (Term Word) := { Material.plain with color := vec x y z }

/-- A black surface that emits light. -/
def emitting (light : Term Word) : Material (Term Word) :=
  { Material.plain with color := 0.0, emissivity := light }

/-- The half-space below the height `-1`. -/
def floor : Shape Word := .plane (vec 0.0 1.0 0.0) 1.0

/-- A camera that circles the origin, seen a little from above. -/
def orbiting (radius : Word) : Camera (Term Word) :=
  Orbit.toCamera { Orbit.standard with radius := .splat radius, offset := vec 0.0 (-0.3) 0.0 }

/-- A scene of a list of entities. -/
def ofSubjects (subjects : List Subject) (camera : Camera (Term Word))
    (air : Material (Term Word)) : Scene :=
  match Scene.ofEntities? subjects with
  | some builder => ((builder.withCamera camera).withAir air).scene
  | none => ⟨[], camera, air⟩

def spheresScene : Scene :=
  ofSubjects
    [(floor, coloured 0.7 0.7 0.7),
      (.translate (vec (-1.5) 0.0 0.0) (.sphere 1.0), coloured 0.9 0.3 0.2),
      (.sphere 1.0, { Material.plain with smoothness := 1.0 }),
      (.translate (vec 1.5 (-0.5) (-1.0)) (.sphere 0.5), emitting (vec 4.0 3.5 2.5))]
    (orbiting 6.0) (coloured 0.6 0.75 1.0)

/-- A wall that faces the origin from one side. -/
def wall (side : Vec3 Word) (light : Term Word) : Subject :=
  (.plane (.constant ⟨-side.x, -side.y, -side.z⟩) 3.0, emitting light)

def mirrorBoxScene : Scene :=
  ofSubjects
    [wall ⟨1.0, 0.0, 0.0⟩ (vec 1.0 0.2 0.2),
      wall ⟨-1.0, 0.0, 0.0⟩ (vec 0.2 1.0 0.2),
      wall ⟨0.0, 1.0, 0.0⟩ (vec 1.0 1.0 1.0),
      wall ⟨0.0, -1.0, 0.0⟩ (vec 0.3 0.3 0.3),
      wall ⟨0.0, 0.0, 1.0⟩ (vec 0.2 0.2 1.0),
      wall ⟨0.0, 0.0, -1.0⟩ (vec 1.0 1.0 0.2),
      (.sphere 1.2, { Material.plain with smoothness := 1.0 })]
    (orbiting 2.5) .plain

/-- Light in stripes across x. -/
def stripes : Term Word :=
  .select (.unary .fract (.component (.var .position) .x * 0.5)) 0.5 2.0 0.05

def glassScene : Scene :=
  ofSubjects
    [(.plane (vec 0.0 0.0 (-1.0)) 6.0, emitting stripes),
      (.translate (vec 0.0 0.5 0.0) (.sphere 1.5),
        { Material.plain with transmittance := 0.9, smoothness := 1.0, refraction := 1.4 }),
      (floor, coloured 0.5 0.5 0.5)]
    { Camera.standard with eye := vec 0.0 0.5 (-6.0), target := 0.0 } (coloured 0.05 0.05 0.08)

def dome : Spotlight (Term Word) where
  direction := vec 0.3 1.0 (-0.4)
  color := 3.0
  spread := 0.2
  ambient := 0.2

/-- Subjects on a floor under a spotlit dome, seen from a distance. -/
def lit (subjects : List Subject) (distance : Word) : Scene :=
  ofSubjects
    (subjects ++
      [(floor, coloured 0.5 0.5 0.5),
        (.difference (.sphere 40.0) (.sphere 30.0), dome.material)])
    (orbiting distance) .plain

/-- One subject in a light colour. -/
def subject (shape : Shape Word) : List Subject := [(shape, coloured 0.85 0.8 0.75)]

/-- Two balls side by side. -/
def pair (x : Word) : Shape Word × Shape Word :=
  (.translate (vec x 0.0 (-0.45)) (.sphere 0.6), .translate (vec x 0.0 0.45) (.sphere 0.6))

def blendScene : Scene :=
  let (a, b) := pair (-1.2)
  let (c, d) := pair 1.2
  lit [(.smoothUnion 0.4 a b, coloured 0.3 0.6 0.9), (.union c d, coloured 0.9 0.6 0.3)] 5.0

def scene : Demo → Scene
  | spheres => spheresScene
  | mirrorBox => mirrorBoxScene
  | glass => glassScene
  | blend => blendScene
  | tree => lit (subject (.translate (vec 0.0 0.2 0.0) (.tree 6))) 5.0
  | mandelbulb => lit (subject (.translate (vec 0.0 0.2 0.0) (.mandelbulb 8.0 8))) 3.0
  | sierpinski => lit (subject (.sierpinski 8 .tetrahedron)) 3.0

end Demo

end SphereTracer
