import SphereTracer.Decimal.Style
import SphereTracer.Scene

/-!
# Shader code

The part of WGSL that kernels are generated in, as data: expressions, statements and functions, and
their text.
-/

namespace SphereTracer.Shader

/-- The functions of a kernel that are generated. -/
inductive FunctionName where
  | distance (id : EntityId)
  | normal (id : EntityId)
  | material (id : EntityId)
  | mandelbulb (iterations : UInt32)
  | fold (iterations : UInt32)
  | calculateClosest
  | calculateNormal
  | calculateMaterial
  | frameSetup
  deriving DecidableEq, Repr

def FunctionName.text : FunctionName → String
  | distance id => "distance" ++ toString id
  | normal id => "normal" ++ toString id
  | material id => "material" ++ toString id
  | mandelbulb n => "mandelbulb_" ++ toString n.toNat
  | fold n => "sierpinski_fold_" ++ toString n.toNat
  | calculateClosest => "calculateClosest"
  | calculateNormal => "calculateNormal"
  | calculateMaterial => "calculateMaterial"
  | frameSetup => "frame_setup"

/-- Functions of the language, constructors, and functions that every kernel contains. -/
inductive Builtin where
  | abs
  | floor
  | fract
  | sin
  | cos
  | asin
  | acos
  | exp
  | log
  | sqrt
  | normalize
  | length
  | min
  | max
  | dot
  | cross
  | pow
  | clamp
  | mix
  | select
  | vec2
  | vec3
  | rotateAxis
  | hashNoise
  | closest
  | material
  | frame
  deriving DecidableEq, Repr

def Builtin.text : Builtin → String
  | abs => "abs"
  | floor => "floor"
  | fract => "fract"
  | sin => "sin"
  | cos => "cos"
  | asin => "asin"
  | acos => "acos"
  | exp => "exp"
  | log => "log"
  | sqrt => "sqrt"
  | normalize => "normalize"
  | length => "length"
  | min => "min"
  | max => "max"
  | dot => "dot"
  | cross => "cross"
  | pow => "pow"
  | clamp => "clamp"
  | mix => "mix"
  | select => "select"
  | vec2 => "vec2<f32>"
  | vec3 => "vec3<f32>"
  | rotateAxis => "rotate_axis"
  | hashNoise => "hash_noise"
  | closest => "Closest"
  | material => "Material"
  | frame => "Frame"

inductive Callee where
  | builtin (f : Builtin)
  | generated (f : FunctionName)
  deriving DecidableEq, Repr

def Callee.text : Callee → String
  | builtin f => f.text
  | generated f => f.text

/-- The names of values: nodes by their hashes, and everything else by its own name. -/
inductive Ident where
  | node (hash : UInt64)
  | named (name : String)
  deriving DecidableEq, Repr

def Ident.text : Ident → String
  | node hash => "v" ++ Text.hex 16 hash.toNat
  | named name => name

inductive Operator where
  | add
  | sub
  | mul
  | div
  | less
  | equal
  deriving DecidableEq, Repr

def Operator.text : Operator → String
  | add => " + "
  | sub => " - "
  | mul => " * "
  | div => " / "
  | less => " < "
  | equal => " == "

/-- Expressions.  They are written without parentheses, so operands bind at least as strongly as the
operator around them. -/
inductive Code where
  | name (ident : Ident)
  | float (w : Word)
  | int (n : UInt32)
  /-- Some lanes of a vector, or a member of a structure. -/
  | access (a : Code) (member : String)
  | neg (a : Code)
  | operation (f : Operator) (a b : Code)
  | call (f : Callee) (arguments : List Code)
  deriving Repr

namespace Code

mutual

def text : Code → String
  | name ident => ident.text
  | float w => w.text
  | int n => toString n.toNat
  | access a member => a.text ++ "." ++ member
  | neg a => "-" ++ a.text
  | operation f a b => a.text ++ f.text ++ b.text
  | call f arguments => f.text ++ "(" ++ textList arguments ++ ")"

def textList : List Code → String
  | [] => ""
  | [a] => a.text
  | a :: b :: rest => a.text ++ ", " ++ textList (b :: rest)

end

/-- A value that is not a node. -/
def named (s : String) : Code := name (.named s)

/-- A call of a function that is not generated. -/
def builtin (f : Builtin) (arguments : List Code) : Code := call (.builtin f) arguments

/-- A vector of equal lanes. -/
def splat (a : Code) : Code := builtin .vec3 [a]

def first (a : Code) : Code := access a "x"

/-- A constant vector; equal lanes are written once. -/
def vector (v : Vec3 Word) : Code :=
  if v.x = v.y ∧ v.y = v.z then splat (float v.x)
  else builtin .vec3 [float v.x, float v.y, float v.z]

end Code

/-- Statements, as far as their parts matter. -/
inductive Statement where
  /-- `let name = value;` -/
  | bind (name : Ident) (value : Code)
  /-- `return value;` -/
  | giveBack (value : Code)
  /-- An expression within other text. -/
  | part (before : String) (value : Code) (after : String)
  | raw (text : String)
  deriving Repr

def Statement.text : Statement → String
  | bind name value => "let " ++ name.text ++ " = " ++ value.text ++ ";"
  | giveBack value => "return " ++ value.text ++ ";"
  | part before value after => before ++ value.text ++ after
  | raw text => text

/-- A statement on a line of its own, indented by four blanks per level. -/
structure Line where
  level : Nat
  statement : Statement
  deriving Repr

def Line.text (line : Line) : String :=
  String.ofList (List.replicate (4 * line.level) ' ') ++ line.statement.text ++ "\n"

structure Parameter where
  name : String
  type : String
  deriving DecidableEq, Repr

structure Function where
  name : FunctionName
  parameters : List Parameter
  result : String
  body : List Line

/-- Parts of a list in one text, with a separator between them. -/
def separated (separator : String) (parts : List String) : String := separator.intercalate parts

def Function.text (f : Function) : String :=
  "\nfn " ++ f.name.text ++ "(" ++
    separated ", " (f.parameters.map fun p => p.name ++ ": " ++ p.type) ++
    ") -> " ++ f.result ++ " \x7b\n" ++ String.join (f.body.map Line.text) ++ "\x7d\n"

end SphereTracer.Shader
