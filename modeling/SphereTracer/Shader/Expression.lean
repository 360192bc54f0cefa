import SphereTracer.Shader.Code

/-!
# Operations as code

The expression that computes one operation from the names of its operands.
-/

namespace SphereTracer.Shader

def varCode : Var → Code
  | .position => .named "p"
  | .normal => .named "n"
  | .direction => .named "d"
  | .mouse => .builtin .vec3 [.access (.named "uniforms") "mouse", .float 0.0]
  | .time => .splat (.access (.named "uniforms") "time")

def unaryCode : Unary → Code → Code
  | .neg, a => .neg a
  | .abs, a => .builtin .abs [a]
  | .floor, a => .builtin .floor [a]
  | .fract, a => .builtin .fract [a]
  | .sin, a => .builtin .sin [a]
  | .cos, a => .builtin .cos [a]
  | .asin, a => .builtin .asin [a]
  | .acos, a => .builtin .acos [a]
  | .exp, a => .builtin .exp [a]
  | .log, a => .builtin .log [a]
  | .sqrt, a => .builtin .sqrt [a]
  | .normalize, a => .builtin .normalize [a]
  | .length, a => .splat (.builtin .length [a])

def binaryCode : Binary → Code → Code → Code
  | .add, a, b => .operation .add a b
  | .sub, a, b => .operation .sub a b
  | .mul, a, b => .operation .mul a b
  | .div, a, b => .operation .div a b
  | .min, a, b => .builtin .min [a, b]
  | .max, a, b => .builtin .max [a, b]
  | .mod, a, b =>
    .operation .sub a (.operation .mul b (.builtin .floor [.operation .div a b]))
  | .dot, a, b => .splat (.builtin .dot [a, b])
  | .cross, a, b => .builtin .cross [a, b]
  | .pow, a, b => .builtin .pow [a, b]

/-- The code of an operation whose operands have the code that `operand` gives. -/
def opCode {α : Type} (operand : α → Code) : Op Word α → Code
  | .var v => varCode v
  | .constant c => .vector c
  | .unary f a => unaryCode f (operand a)
  | .binary f a b => binaryCode f (operand a) (operand b)
  | .clamp value low high => .builtin .clamp [operand value, operand low, operand high]
  | .mix a b t => .builtin .mix [operand a, operand b, operand t]
  -- The language's `select` takes the value for false first.
  | .select lhs rhs below otherwise =>
    .builtin .select [operand otherwise, operand below,
      .operation .less (operand lhs).first (operand rhs).first]
  | .component a axis => .splat (.access (operand a) axis.letter.toString)
  | .compose x y z => .builtin .vec3 [(operand x).first, (operand y).first, (operand z).first]
  | .rotate point axis angle =>
    .builtin .rotateAxis [operand point, operand axis, (operand angle).first]
  | .random seed => .splat (.builtin .hashNoise [operand seed])
  | .mandelbulb point power n =>
    .splat (.call (.generated (.mandelbulb n)) [operand point, (operand power).first])
  | .fold point n => .call (.generated (.fold n)) [operand point]

end SphereTracer.Shader
