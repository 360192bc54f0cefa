import SphereTracer.Expr.Arena

/-!
# Flattening

The nodes that some roots need, each once, operands before users.  The walk keeps its pending
entries in an explicit stack, so a deep graph costs memory and not recursion; the stack has a limit.
Graphs with cycles or with handles that lead nowhere are refused.
-/

namespace SphereTracer

/-- Structural faults of an expression graph. -/
inductive GraphError where
  | cycle (h : Handle)
  | depthExceeded (limit : Nat)
  | unknownNode (h : Handle)
  deriving DecidableEq, Repr

def GraphError.message : GraphError → String
  | cycle h => "expression graph contains a cycle through node " ++ toString h.raw.toNat
  | depthExceeded limit =>
    "expression graph exceeds the traversal limit of " ++ toString limit ++ " pending nodes"
  | unknownNode h =>
    "expression handle " ++ toString h.raw.toNat ++ " does not belong to this context"

/-- How many entries may be pending during a walk. -/
def maxTraversal : Nat := 1048576

/-- What the walk knows of a node. -/
inductive Mark where
  | unvisited
  /-- Below this node, operands are still being walked. -/
  | active
  /-- The node and all it needs are in the order. -/
  | done
  deriving DecidableEq, Repr, Inhabited

/-- A stack entry: a node to be visited, or one whose operands have been walked when it comes up. -/
structure Pending where
  handle : Handle
  expanded : Bool
  deriving DecidableEq, Repr, Inhabited

/-- The state of a walk. -/
structure Walk where
  marks : Array Mark
  order : Array Handle
  stack : Array Pending

namespace Walk

/-- The walk before its first root. -/
def start (size : Nat) : Walk := ⟨Array.replicate size .unvisited, #[], #[]⟩

def unvisited (walk : Walk) : Nat := walk.marks.countP (· == .unvisited)

/-- Puts one operand on the stack, unless all it needs is in the order already. -/
def pushOperand (marks : Array Mark) (stack : Array Pending) (h : Handle) :
    Except GraphError (Array Pending) :=
  match marks[h.index]? with
  | none => .error (.unknownNode h)
  -- An active operand lies below its user on the stack: the walk has come back to it.
  | some .active => .error (.cycle h)
  | some .done => .ok stack
  | some .unvisited => .ok (stack.push ⟨h, false⟩)

/-- Puts the operands that still have to be visited on the stack, the first one on top. -/
def pushOperands (marks : Array Mark) (operands : List Handle) (stack : Array Pending) :
    Except GraphError (Array Pending) :=
  operands.reverse.foldlM (pushOperand marks) stack

/-- Takes the top entry, `top`, off the stack and acts on it. -/
def step (nodes : Array Node) (walk : Walk) (top : Pending) : Except GraphError Walk :=
  match walk with
  | ⟨marks, order, stack⟩ =>
    let rest := stack.pop
    match nodes[top.handle.index]? with
    | none => .error (.unknownNode top.handle)
    | some node =>
      if top.expanded then
        .ok ⟨marks.setIfInBounds top.handle.index .done, order.push top.handle, rest⟩
      else
        match marks[top.handle.index]? with
        | none => .error (.unknownNode top.handle)
        | some .done => .ok ⟨marks, order, rest⟩
        | some .active => .error (.cycle top.handle)
        | some .unvisited =>
          -- The node stays below its operands and comes up again behind them.
          let marks := marks.setIfInBounds top.handle.index .active
          match pushOperands marks node.op.operands (rest.push ⟨top.handle, true⟩) with
          | .error e => .error e
          | .ok stack =>
            if stack.size > maxTraversal then .error (.depthExceeded maxTraversal)
            else .ok ⟨marks, order, stack⟩

theorem countP_set_le (marks : Array Mark) (i : Nat) {m : Mark} (hm : m ≠ .unvisited) :
    (marks.setIfInBounds i m).countP (· == .unvisited) ≤ marks.countP (· == .unvisited) := by
  unfold Array.setIfInBounds
  split
  · rw [Array.countP_set]
    simp [hm]
  · exact Nat.le_refl _

theorem countP_set_lt {marks : Array Mark} {i : Nat} {m : Mark}
    (hi : marks[i]? = some .unvisited) (hm : m ≠ .unvisited) :
    (marks.setIfInBounds i m).countP (· == .unvisited) < marks.countP (· == .unvisited) := by
  obtain ⟨hlt, hget⟩ := Array.getElem?_eq_some_iff.1 hi
  have hpos : 0 < marks.countP (· == .unvisited) :=
    Array.countP_pos_iff.2 ⟨marks[i], Array.getElem_mem hlt, by simp [hget]⟩
  have hold : (marks[i] == Mark.unvisited) = true := by simp [hget]
  have hnew : (m == Mark.unvisited) = false := by simp [hm]
  rw [Array.setIfInBounds, dif_pos hlt, Array.countP_set, hold, hnew]
  simp only [if_true, Bool.false_eq_true, if_false]
  omega

/-- Each step leaves fewer nodes unvisited, or as many and a shorter stack. -/
theorem step_decreases {nodes : Array Node} {walk next : Walk} {top : Pending}
    (htop : walk.stack.back? = some top) (hstep : walk.step nodes top = .ok next) :
    Prod.Lex (· < ·) (· < ·) (next.unvisited, next.stack.size)
      (walk.unvisited, walk.stack.size) := by
  have hsize : walk.stack.pop.size < walk.stack.size := by
    have : walk.stack.size ≠ 0 := by
      intro h
      simp [Array.eq_empty_of_size_eq_zero h] at htop
    simp only [Array.size_pop]
    omega
  have shorter {w : Walk} (hle : w.unvisited ≤ walk.unvisited) (hs : w.stack = walk.stack.pop) :
      Prod.Lex (· < ·) (· < ·) (w.unvisited, w.stack.size) (walk.unvisited, walk.stack.size) := by
    rcases Nat.lt_or_eq_of_le hle with hlt | heq
    · exact .left _ _ hlt
    · rw [heq, hs]
      exact .right _ hsize
  obtain ⟨marks, order, stack⟩ := walk
  unfold step at hstep
  dsimp only at hstep
  split at hstep
  · cases hstep
  split at hstep
  · cases hstep
    exact shorter (countP_set_le _ _ (by decide)) rfl
  split at hstep
  · cases hstep
  · cases hstep
    exact shorter (Nat.le_refl _) rfl
  · cases hstep
  · rename_i hmark
    split at hstep
    · cases hstep
    split at hstep
    · cases hstep
    · cases hstep
      exact .left _ _ (countP_set_lt hmark (by decide))

/-- Acts on entries until none is pending. -/
def run (nodes : Array Node) (walk : Walk) : Except GraphError Walk :=
  match _ : walk.stack.back? with
  | none => .ok walk
  | some top =>
    match _ : walk.step nodes top with
    | .error e => .error e
    | .ok next => run nodes next
termination_by (walk.unvisited, walk.stack.size)
decreasing_by exact step_decreases ‹_› ‹_›

/-- Walks everything that one more root needs. -/
def visit (nodes : Array Node) (walk : Walk) (root : Handle) : Except GraphError Walk :=
  match walk with
  | ⟨marks, order, stack⟩ => run nodes ⟨marks, order, stack.push ⟨root, false⟩⟩

end Walk

/-- Every node that the roots need, each once, operands before users. -/
def flatten (nodes : Array Node) (roots : List Handle) : Except GraphError (Array Handle) := do
  let walk ← roots.foldlM (Walk.visit nodes) (Walk.start nodes.size)
  return walk.order

end SphereTracer
