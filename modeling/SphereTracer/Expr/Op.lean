import SphereTracer.Binary32
import SphereTracer.Fnv

/-!
# Operations

The vocabulary of expressions.  Every value is a vector of three lanes; an operation whose result is
a number repeats it in all lanes, and an operation that wants a number reads the first, so any
result can feed any operand.

`Op κ α` is one operation with constants of type `κ` and operands of type `α`.  A node of an arena
has handles for operands, and its constants are bit patterns.
-/

namespace SphereTracer

/-- The inputs that a generated procedure may read. -/
inductive Var where
  /-- The point at which a distance or a material is asked for. -/
  | position
  /-- The surface normal; only a material may read it. -/
  | normal
  /-- The direction of the incoming ray; only a material may read it. -/
  | direction
  /-- The pointer, in the plane `z = 0`. -/
  | mouse
  /-- Seconds since the start, in all lanes. -/
  | time
  deriving DecidableEq, Hashable, Repr, Inhabited

namespace Var

/-- All variables, in the order of their tags. -/
def all : List Var := [position, normal, direction, mouse, time]

def name : Var → String
  | position => "position"
  | normal => "normal"
  | direction => "direction"
  | mouse => "mouse"
  | time => "time"

def tag : Var → UInt8
  | position => 0
  | normal => 1
  | direction => 2
  | mouse => 3
  | time => 4

end Var

inductive Axis where
  | x
  | y
  | z
  deriving DecidableEq, Hashable, Repr, Inhabited

namespace Axis

def all : List Axis := [x, y, z]

/-- The place of the lane in a vector, counted from zero. -/
def index : Axis → Nat
  | x => 0
  | y => 1
  | z => 2

/-- The letter that selects the lane. -/
def letter : Axis → Char
  | x => 'x'
  | y => 'y'
  | z => 'z'

def tag : Axis → UInt8
  | x => 0
  | y => 1
  | z => 2

/-- The lane of a vector. -/
@[inline] def lane {α : Type} : Axis → Vec3 α → α
  | x, v => v.x
  | y, v => v.y
  | z, v => v.z

/-- The unit vector along the axis. -/
def unit {κ : Type} [OfScientific κ] : Axis → Vec3 κ
  | x => ⟨1.0, 0.0, 0.0⟩
  | y => ⟨0.0, 1.0, 0.0⟩
  | z => ⟨0.0, 0.0, 1.0⟩

end Axis

/-- Operations on one vector. -/
inductive Unary where
  | neg
  | abs
  | floor
  | fract
  | sin
  | cos
  | asin
  | acos
  | exp
  | log
  | sqrt
  | normalize
  /-- The Euclidean length, in all lanes. -/
  | length
  deriving DecidableEq, Hashable, Repr, Inhabited

def Unary.tag : Unary → UInt8
  | neg => 0
  | abs => 1
  | floor => 2
  | fract => 3
  | sin => 4
  | cos => 5
  | asin => 6
  | acos => 7
  | exp => 8
  | log => 9
  | sqrt => 10
  | normalize => 11
  | length => 12

/-- Operations on two vectors. -/
inductive Binary where
  | add
  | sub
  | mul
  | div
  | min
  | max
  /-- The floored remainder `a - b * floor (a / b)`, which has the sign of `b`. -/
  | mod
  /-- The dot product, in all lanes. -/
  | dot
  | cross
  | pow
  deriving DecidableEq, Hashable, Repr, Inhabited

def Binary.tag : Binary → UInt8
  | add => 0
  | sub => 1
  | mul => 2
  | div => 3
  | min => 4
  | max => 5
  | mod => 6
  | dot => 7
  | cross => 8
  | pow => 9

/-- One operation.  How many operands it has is fixed by its constructor. -/
inductive Op (κ α : Type) where
  | var (v : Var)
  | constant (value : Vec3 κ)
  | unary (f : Unary) (a : α)
  | binary (f : Binary) (a b : α)
  | clamp (value low high : α)
  /-- `a * (1 - t) + b * t`. -/
  | mix (a b t : α)
  /-- `below` when the first lane of `lhs` is less than that of `rhs`, and else `otherwise`. -/
  | select (lhs rhs below otherwise : α)
  /-- One lane, in all lanes. -/
  | component (a : α) (axis : Axis)
  /-- The first lanes of three vectors. -/
  | compose (x y z : α)
  /-- The rotation of `point` about `axis` by the first lane of `angle`, in radians. -/
  | rotate (point axis angle : α)
  /-- A pseudo-random number of `[0, 1)` made from a vector, in all lanes. -/
  | random (seed : α)
  /-- The distance estimate of the mandelbulb of the given power, in all lanes. -/
  | mandelbulb (point power : α) (iterations : UInt32)
  /-- The point after rounds of the tetrahedral fold. -/
  | fold (point : α) (iterations : UInt32)
  deriving DecidableEq, Hashable, Repr, Inhabited

namespace Op

variable {κ α β : Type}

/-- The operands, in the order in which they are evaluated. -/
def operands : Op κ α → List α
  | var _ => []
  | constant _ => []
  | unary _ a => [a]
  | binary _ a b => [a, b]
  | clamp a b c => [a, b, c]
  | mix a b c => [a, b, c]
  | select a b c d => [a, b, c, d]
  | component a _ => [a]
  | compose a b c => [a, b, c]
  | rotate a b c => [a, b, c]
  | random a => [a]
  | mandelbulb a b _ => [a, b]
  | fold a _ => [a]

/-- The same operation on other operands. -/
def map (f : α → β) : Op κ α → Op κ β
  | var v => var v
  | constant c => constant c
  | unary g a => unary g (f a)
  | binary g a b => binary g (f a) (f b)
  | clamp a b c => clamp (f a) (f b) (f c)
  | mix a b c => mix (f a) (f b) (f c)
  | select a b c d => select (f a) (f b) (f c) (f d)
  | component a i => component (f a) i
  | compose a b c => compose (f a) (f b) (f c)
  | rotate a b c => rotate (f a) (f b) (f c)
  | random a => random (f a)
  | mandelbulb a b n => mandelbulb (f a) (f b) n
  | fold a n => fold (f a) n

theorem operands_map (f : α → β) (op : Op κ α) : (op.map f).operands = op.operands.map f := by
  cases op <;> rfl

/-- The value of a constant. -/
def constant? : Op κ α → Option (Vec3 κ)
  | constant c => some c
  | _ => none

/-- Two bytes that tell the kinds of operation apart. -/
def tag : Op κ α → UInt8 × UInt8
  | var v => (0, v.tag)
  | constant _ => (1, 0)
  | unary f _ => (2, f.tag)
  | binary f _ _ => (3, f.tag)
  | clamp .. => (4, 0)
  | mix .. => (5, 0)
  | select .. => (6, 0)
  | component _ i => (7, i.tag)
  | compose .. => (8, 0)
  | rotate .. => (9, 0)
  | random _ => (10, 0)
  | mandelbulb .. => (11, 0)
  | fold .. => (12, 0)

/-- The rounds of an operation that loops. -/
def rounds? : Op κ α → Option UInt32
  | mandelbulb _ _ n => some n
  | fold _ n => some n
  | _ => none

/-- The bytes that identify an operation among all others, given a number for each operand: the tag,
the bits of a constant, the rounds of a loop, and the numbers of the operands in order. -/
def encode (number : α → UInt64) (op : Op Word α) : List UInt8 :=
  [op.tag.1, op.tag.2] ++
    (match op.constant? with
      | some c => bytesOfUInt32 c.x.bits ++ bytesOfUInt32 c.y.bits ++ bytesOfUInt32 c.z.bits
      | none => []) ++
    (match op.rounds? with
      | some n => bytesOfUInt32 n
      | none => []) ++
    op.operands.flatMap fun a => bytesOfUInt64 (number a)

end Op

end SphereTracer
