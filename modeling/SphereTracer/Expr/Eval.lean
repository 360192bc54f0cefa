import SphereTracer.Expr.Arena
import SphereTracer.Intrinsic

/-!
# Evaluation

The meaning of an operation, given the values of its operands, and the evaluation of a flattened
graph into a table with one slot per node.
-/

namespace SphereTracer

/-- Values of the variables. -/
structure Bindings (S : Type) where
  position : Vec3 S
  normal : Vec3 S
  direction : Vec3 S
  mouse : Vec2 S
  time : S

namespace Bindings

variable {S : Type} [Scalar S]

/-- Only the position is not zero. -/
@[specialize] def atPoint (p : Vec3 S) : Bindings S := ⟨p, .zero, .zero, ⟨0.0, 0.0⟩, 0.0⟩

@[specialize] def get (b : Bindings S) : Var → Vec3 S
  | .position => b.position
  | .normal => b.normal
  | .direction => b.direction
  | .mouse => b.mouse.extend 0.0
  | .time => .splat b.time

end Bindings

variable {S : Type} [Scalar S]

@[specialize] def Unary.eval : Unary → Vec3 S → Vec3 S
  | .neg, a => -a
  | .abs, a => a.abs
  | .floor, a => a.floor
  | .fract, a => a - a.floor
  | .sin, a => a.map Scalar.sin
  | .cos, a => a.map Scalar.cos
  | .asin, a => a.map Scalar.asin
  | .acos, a => a.map Scalar.acos
  | .exp, a => a.map Scalar.exp
  | .log, a => a.map Scalar.log
  | .sqrt, a => a.map Scalar.sqrt
  | .normalize, a => a.normalize
  | .length, a => .splat a.length

@[specialize] def Binary.eval : Binary → Vec3 S → Vec3 S → Vec3 S
  | .add, a, b => a + b
  | .sub, a, b => a - b
  | .mul, a, b => a * b
  | .div, a, b => a / b
  | .min, a, b => a.min b
  | .max, a, b => a.max b
  | .mod, a, b => a - b * (a / b).floor
  | .dot, a, b => .splat (a.dot b)
  | .cross, a, b => a.cross b
  | .pow, a, b => a.zipWith Scalar.pow b

/-- The value of an operation whose operands have the values that `read` gives. -/
@[specialize] def Op.eval {κ α : Type} (number : κ → S) (read : α → Vec3 S)
    (bindings : Bindings S) : Op κ α → Vec3 S
  | .var v => bindings.get v
  | .constant c => c.map number
  | .unary f a => f.eval (read a)
  | .binary f a b => f.eval (read a) (read b)
  -- The upper bound acts last and prevails where the bounds are out of order.
  | .clamp value low high => ((read value).max (read low)).min (read high)
  | .mix a b t => read a * (.one - read t) + read b * read t
  | .select lhs rhs below otherwise =>
    if Scalar.lt (read lhs).x (read rhs).x then read below else read otherwise
  | .component a axis => .splat (axis.lane (read a))
  | .compose x y z => ⟨(read x).x, (read y).x, (read z).x⟩
  | .rotate point axis angle => Intrinsic.rotate (read point) (read axis) (read angle).x
  | .random seed => .splat (Intrinsic.noise (read seed))
  | .mandelbulb point power n => .splat (Intrinsic.mandelbulb (read point) (read power).x n)
  | .fold point n => Intrinsic.foldPoint n.toNat (read point)

/-- An operation reads its operands and no others. -/
theorem Op.eval_congr {κ α : Type} {number : κ → S} {read read' : α → Vec3 S}
    {bindings : Bindings S} {op : Op κ α} (h : ∀ a ∈ op.operands, read a = read' a) :
    op.eval number read bindings = op.eval number read' bindings := by
  cases op <;> simp_all [Op.operands, Op.eval]

/-- One value for each node of an arena. -/
abbrev Slots (S : Type) := Array (Vec3 S)

namespace Slots

@[specialize] def blank (size : Nat) : Slots S := Array.replicate size .zero

@[inline] def get (slots : Slots S) (h : Handle) : Vec3 S := slots.getD h.index .zero

/-- Evaluates one node from the slots of its operands. -/
@[inline] def fill (nodes : Array Node) (bindings : Bindings S) (slots : Slots S) (h : Handle) :
    Slots S :=
  match nodes[h.index]? with
  | none => slots
  | some node =>
    let value := node.op.eval Scalar.ofWord slots.get bindings
    slots.setIfInBounds h.index value

/-- Evaluates the nodes of `order` one after the other. -/
@[specialize] def run (nodes : Array Node) (order : Array Handle) (bindings : Bindings S)
    (slots : Slots S) : Slots S :=
  order.foldl (fill nodes bindings) slots

end Slots

end SphereTracer
