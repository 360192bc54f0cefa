import Std.Data.HashMap
import SphereTracer.Expr.Op
import SphereTracer.Text

/-!
# Arenas

An expression graph without repetition.  An operation that is already present is answered by its
handle, so equal expressions are one node however often they are built.  A node carries the hash of
its content, which does not depend on when or beside what it was built.
-/

namespace SphereTracer

/-- The place of a node in its arena. -/
structure Handle where
  raw : UInt32
  deriving DecidableEq, Hashable, Repr, Inhabited

@[inline] def Handle.index (h : Handle) : Nat := h.raw.toNat

/-- An operation of an arena: constants by their bits, operands by their handles. -/
abbrev GraphOp := Op Word Handle

structure Node where
  op : GraphOp
  /-- FNV-1a of the operation and of its operands' hashes. -/
  hash : UInt64
  deriving Repr, Inhabited

/-- What the node is called in generated code. -/
def Node.name (node : Node) : String := "v" ++ Text.hex 16 node.hash.toNat

/-- Nodes in the order of their creation, and the handle of each operation that is among them. -/
structure Arena where
  nodes : Array Node
  interned : Std.HashMap GraphOp Handle

namespace Arena

def empty : Arena := ⟨#[], ∅⟩

instance : EmptyCollection Arena := ⟨empty⟩
instance : Inhabited Arena := ⟨empty⟩

def size (arena : Arena) : Nat := arena.nodes.size

def node? (arena : Arena) (h : Handle) : Option Node := arena.nodes[h.index]?

/-- The content hash of a node, and zero for a handle without one. -/
def hashOf (nodes : Array Node) (h : Handle) : UInt64 :=
  match nodes[h.index]? with
  | some node => node.hash
  | none => 0

/-- The hash that an operation has over the given nodes. -/
def contentHash (nodes : Array Node) (op : GraphOp) : UInt64 := Fnv.hash (op.encode (hashOf nodes))

/-- The handle of an operation; it becomes a new node if it is not among the nodes yet. -/
def intern (op : GraphOp) (arena : Arena) : Handle × Arena :=
  match arena.interned[op]? with
  | some h => (h, arena)
  | none =>
    let h : Handle := ⟨UInt32.ofNat arena.nodes.size⟩
    let node : Node := ⟨op, contentHash arena.nodes op⟩
    (h, ⟨arena.nodes.push node, arena.interned.insert op h⟩)

theorem isPrefix_intern (op : GraphOp) (arena : Arena) :
    arena.nodes.toList <+: (intern op arena).2.nodes.toList := by
  unfold intern
  split
  · exact List.prefix_rfl
  · rw [Array.toList_push]
    exact List.prefix_append _ _

end Arena

/-- Something that makes operations, one after the other, out of operands of type `α`. -/
class Builder (M : Type → Type) (α : outParam Type) where
  op : Op Word α → M α
  /-- What a node that an arena contains already stands for. -/
  captured : Handle → α

/-- A construction in an arena.  It may add nodes, and leaves those that are there as they are. -/
structure Build (α : Type) where
  run : Arena → α × Arena
  grows : ∀ arena, arena.nodes.toList <+: (run arena).2.nodes.toList

namespace Build

instance : Monad Build where
  pure a := ⟨fun arena => (a, arena), fun _ => List.prefix_rfl⟩
  bind m f := ⟨fun arena => let built := m.run arena; (f built.1).run built.2,
    fun arena => (m.grows arena).trans ((f _).grows _)⟩

/-- An operation is interned. -/
instance : Builder Build Handle where
  op operation := ⟨Arena.intern operation, Arena.isPrefix_intern operation⟩
  captured h := h

variable {M : Type → Type} {α : Type} [Builder M α]

def op (operation : Op Word α) : M α := Builder.op operation

def var (v : Var) : M α := op (.var v)

def constant (value : Vec3 Word) : M α := op (.constant value)

/-- A number in all lanes. -/
def splat (value : Word) : M α := constant (.splat value)

def unary (f : Unary) (a : α) : M α := op (.unary f a)

def binary (f : Binary) (a b : α) : M α := op (.binary f a b)

def add : α → α → M α := binary .add
def sub : α → α → M α := binary .sub
def mul : α → α → M α := binary .mul
def div : α → α → M α := binary .div
def min : α → α → M α := binary .min
def max : α → α → M α := binary .max
def modulo : α → α → M α := binary .mod
def dot : α → α → M α := binary .dot
def neg : α → M α := unary .neg
def abs : α → M α := unary .abs
def floor : α → M α := unary .floor
def length : α → M α := unary .length

def component (a : α) (axis : Axis) : M α := op (.component a axis)

def compose (x y z : α) : M α := op (.compose x y z)

def clamp (value low high : α) : M α := op (.clamp value low high)

def mix (a b t : α) : M α := op (.mix a b t)

def select (lhs rhs below otherwise : α) : M α := op (.select lhs rhs below otherwise)

def rotate (point axis angle : α) : M α := op (.rotate point axis angle)

def random (seed : α) : M α := op (.random seed)

section
variable [Monad M]

/-- The three lanes joined by an operation, the last two first. -/
def lanes (f : Binary) (a : α) : M α := do
  let x ← component a .x
  let y ← component a .y
  let z ← component a .z
  let yz ← binary f y z
  binary f x yz

/-- The least lane, in all lanes. -/
def minComponent : α → M α := lanes .min

/-- The greatest lane, in all lanes. -/
def maxComponent : α → M α := lanes .max

end

end Build

end SphereTracer
