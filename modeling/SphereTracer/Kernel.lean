import SphereTracer.Shader.Functions
import SphereTracer.Shader.Prelude
import SphereTracer.Shader.EntryPoint

/-!
# Kernels

A compiled scene: the text of a compute shader, the program it was written from, and a hash of the
text to tell kernels apart.
-/

namespace SphereTracer

namespace Shader

/-- The side of the square of pixels that a workgroup covers. -/
def workgroupSize : UInt32 := 8

/-- A line that defines a constant. -/
def constantLine (name type value : String) : String :=
  "const " ++ name ++ ": " ++ type ++ " = " ++ value ++ ";\n"

/-- The options as constants. -/
def constants (o : Options Word) : String :=
  constantLine "MAX_VALUE" "f32" (Word.text maxDistance) ++
    constantLine "EPSILON" "f32" o.epsilon.text ++
    constantLine "NORMAL_EPSILON" "f32" o.normalEpsilon.text ++
    constantLine "STEPS" "i32" (toString o.steps.toNat) ++
    constantLine "BOUNCES" "i32" (toString o.bounces.toNat) ++
    constantLine "ITERATIONS" "i32" (toString o.iterations.toNat) ++
    constantLine "STEP_FACTOR" "f32" o.stepFactor.text ++
    constantLine "MEMORY" "f32" o.memory.text ++ "\n"

def functionsText (functions : List Function) : String := String.join (functions.map Function.text)

/-- The complete compute shader of a program. -/
def moduleText (program : Program) : String :=
  constants program.options ++ prelude ++ functionsText (helpers program.nodes) ++
    functionsText (procedures program) ++ "\n" ++ entryPoint

end Shader

structure Kernel where
  source : String
  program : Program
  /-- FNV-1a of the source. -/
  hash : UInt64

namespace Kernel

def ofProgram (program : Program) : Kernel :=
  let source := Shader.moduleText program
  ⟨source, program, Fnv.hashText source⟩

def ofScene (scene : Scene) (options : Options Word) : Except CompileError Kernel :=
  (Program.ofScene scene options).map ofProgram

end Kernel

end SphereTracer
