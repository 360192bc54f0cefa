import SphereTracer.Expr.Eval

/-!
# Expressions as trees

An operation whose operands are written out in full.  A tree has a value and a content hash of its
own, without an arena and without any sharing; two nodes that stand for one tree have both in
common.
-/

namespace SphereTracer

namespace Op

variable {κ α β γ : Type}

@[simp] theorem map_id (op : Op κ α) : op.map (fun a => a) = op := by
  cases op <;> rfl

@[simp] theorem map_map (f : α → β) (g : β → γ) (op : Op κ α) :
    (op.map f).map g = op.map (fun a => g (f a)) := by
  cases op <;> rfl

@[simp] theorem tag_map (f : α → β) (op : Op κ α) : (op.map f).tag = op.tag := by
  cases op <;> rfl

@[simp] theorem constant?_map (f : α → β) (op : Op κ α) : (op.map f).constant? = op.constant? := by
  cases op <;> rfl

@[simp] theorem rounds?_map (f : α → β) (op : Op κ α) : (op.map f).rounds? = op.rounds? := by
  cases op <;> rfl

/-- The kind of an operation and its operands determine it. -/
theorem eq_of_map_eq {f : α → γ} {op op' : Op κ α} (h : op.map f = op'.map f)
    (hinj : ∀ a ∈ op.operands, ∀ b ∈ op'.operands, f a = f b → a = b) : op = op' := by
  cases op <;> cases op' <;> simp only [map, reduceCtorEq] at h <;> simp_all [operands]

theorem encode_map (f : α → β) (number : β → UInt64) (op : Op Word α) :
    (op.map f).encode number = op.encode (fun a => number (f a)) := by
  simp only [encode, tag_map, constant?_map, rounds?_map, operands_map, List.flatMap_map]

theorem encode_congr {number number' : α → UInt64} {op : Op Word α}
    (h : ∀ a ∈ op.operands, number a = number' a) : op.encode number = op.encode number' := by
  unfold encode
  congr 1
  rw [List.flatMap_def, List.flatMap_def, List.map_congr_left fun a ha => by rw [h a ha]]

theorem eval_map {S : Type} [Scalar S] (number : κ → S) (read : β → Vec3 S) (bindings : Bindings S)
    (f : α → β) (op : Op κ α) :
    (op.map f).eval number read bindings = op.eval number (fun a => read (f a)) bindings := by
  cases op <;> rfl

end Op

/-- An operation on trees; constants are given by their bits. -/
inductive Tree where
  | node (op : Op Word Tree)
  deriving Inhabited

namespace Tree

def op : Tree → Op Word Tree
  | node op => op

/-- To prove something of all trees, prove it of an operation whose operands have it. -/
@[induction_eliminator]
theorem induct {motive : Tree → Prop}
    (node : ∀ op : Op Word Tree, (∀ t ∈ op.operands, motive t) → motive (.node op)) (t : Tree) :
    motive t := by
  -- The auxiliary motives say of an operation that its operands are fine, one for each number of
  -- them.
  refine @Tree.rec motive (fun op => ∀ t ∈ op.operands, motive t)
    node ?_ ?_ ?_ ?_ ?_ ?_ ?_ ?_ ?_ ?_ ?_ ?_ ?_ t <;>
    simp_all [Op.operands]

/-- What an operation gives whose operands have been dealt with already, from the leaves up. -/
def fold {β : Type} (f : Op Word β → β) : Tree → β
  | node (.var v) => f (.var v)
  | node (.constant c) => f (.constant c)
  | node (.unary g a) => f (.unary g (a.fold f))
  | node (.binary g a b) => f (.binary g (a.fold f) (b.fold f))
  | node (.clamp a b c) => f (.clamp (a.fold f) (b.fold f) (c.fold f))
  | node (.mix a b c) => f (.mix (a.fold f) (b.fold f) (c.fold f))
  | node (.select a b c d) => f (.select (a.fold f) (b.fold f) (c.fold f) (d.fold f))
  | node (.component a i) => f (.component (a.fold f) i)
  | node (.compose a b c) => f (.compose (a.fold f) (b.fold f) (c.fold f))
  | node (.rotate a b c) => f (.rotate (a.fold f) (b.fold f) (c.fold f))
  | node (.random a) => f (.random (a.fold f))
  | node (.mandelbulb a b n) => f (.mandelbulb (a.fold f) (b.fold f) n)
  | node (.fold a n) => f (.fold (a.fold f) n)

theorem fold_node {β : Type} (f : Op Word β → β) (op : Op Word Tree) :
    (node op).fold f = f (op.map (fold f)) := by
  cases op <;> rfl

def hash : Tree → UInt64 := fold fun op => Fnv.hash (op.encode id)

theorem hash_node (op : Op Word Tree) : (node op).hash = Fnv.hash (op.encode hash) := by
  rw [hash, fold_node, Op.encode_map]
  rfl

variable {S : Type} [Scalar S]

/-- The value, by recursion over the tree. -/
def eval (bindings : Bindings S) : Tree → Vec3 S := fold fun op => op.eval Scalar.ofWord id bindings

@[simp] theorem eval_node (bindings : Bindings S) (op : Op Word Tree) :
    (node op).eval bindings = op.eval Scalar.ofWord (eval bindings) bindings := by
  rw [eval, fold_node, Op.eval_map]
  rfl

end Tree

end SphereTracer
