import SphereTracer.Proofs.Graph.Walk

/-!
# The invariant of a walk

Three marks against one stack.  The finished nodes are those in the order; the open nodes are those
whose expanded entry is still on the stack, and every entry above such an entry is below that node
in the graph.  So an open node that comes up again lies on a cycle, although a node may be pending
many times over.
-/

namespace SphereTracer

theorem Handle.index_inj {a b : Handle} (h : a.index = b.index) : a = b := by
  cases a
  cases b
  simp only [Handle.index] at h
  rw [UInt32.toNat.inj h]

namespace Walk

open Relation SphereTracer.Graph

variable {nodes : Array Node} {roots : List Handle}

@[simp] theorem todo_push (marks : Array Mark) (order : Array Handle) (rest : Array Pending)
    (e : Pending) : todo ⟨marks, order, rest.push e⟩ = e :: todo ⟨marks, order, rest⟩ := by
  simp [todo]

theorem todo_expand (marks marks' : Array Mark) (order : Array Handle) (rest : Array Pending)
    (h : Handle) (entries : List Pending) :
    todo ⟨marks', order, rest.push ⟨h, true⟩ ++ entries.reverse.toArray⟩ =
      entries ++ ⟨h, true⟩ :: todo ⟨marks, order, rest⟩ := by
  simp [todo]

theorem getElem?_mark (marks : Array Mark) (h b : Handle) (m : Mark) :
    (marks.setIfInBounds h.index m)[b.index]? =
      if h = b then (marks[b.index]?).map fun _ => m else marks[b.index]? := by
  rw [Array.getElem?_setIfInBounds]
  by_cases heq : h = b
  · subst heq
    rw [if_pos rfl, if_pos rfl]
    by_cases hlt : h.index < marks.size
    · rw [if_pos hlt, Array.getElem?_eq_getElem hlt]
      rfl
    · rw [if_neg hlt, Array.getElem?_eq_none (Nat.le_of_not_lt hlt)]
      rfl
  · rw [if_neg heq, if_neg fun hindex => heq (Handle.index_inj hindex)]

theorem getElem?_opened (marks : Array Mark) (h b : Handle) :
    (opened marks h)[b.index]? =
      if h = b then (marks[b.index]?).map fun _ => .active else marks[b.index]? :=
  getElem?_mark marks h b .active

/-- What holds of every state that a walk over the roots comes by. -/
structure Inv (nodes : Array Node) (roots : List Handle) (state : List Handle × Walk) : Prop where
  marks_size : state.2.marks.size = nodes.size
  /-- The roots to come are among the roots. -/
  pending_roots : state.1 ⊆ roots
  /-- The finished nodes are those in the order. -/
  done_iff : ∀ h, state.2.marks[h.index]? = some .done ↔ h ∈ state.2.order.toList
  /-- An open node has its expanded entry on the stack. -/
  active_mem : ∀ h, state.2.marks[h.index]? = some .active → ⟨h, true⟩ ∈ state.2.todo
  /-- Only what the roots need is pending. -/
  reachable : ∀ e ∈ state.2.todo, Reachable nodes roots e.handle
  /-- The entries above an open node are for nodes that it needs. -/
  path : state.2.todo.Pairwise fun above below =>
    below.expanded = true → TransGen (Uses nodes) below.handle above.handle

theorem Inv.start (nodes : Array Node) (roots : List Handle) :
    Inv nodes roots (roots, .start nodes.size) where
  marks_size := by simp [Walk.start]
  pending_roots := List.Subset.refl _
  done_iff h := by
    simp only [Walk.start, List.not_mem_nil, iff_false]
    rw [Array.getElem?_replicate]
    split <;> simp
  active_mem h := by
    simp only [Walk.start]
    rw [Array.getElem?_replicate]
    split <;> simp
  reachable := by simp [Walk.start, todo]
  path := by simp [Walk.start, todo]

theorem mem_fresh {marks : Array Mark} {operands : List Handle} {e : Pending} :
    e ∈ fresh marks operands ↔
      e.handle ∈ operands ∧ marks[e.handle.index]? = some .unvisited ∧ e.expanded = false := by
  obtain ⟨h, expanded⟩ := e
  simp [fresh, and_assoc, eq_comm]

section
variable {pending : List Handle} {marks : Array Mark} {order : Array Handle}
  {rest : Array Pending} {h : Handle} {node : Node}

/-- A node whose operands are done joins the order. -/
theorem Inv.finish (hinv : Inv nodes roots (pending, ⟨marks, order, rest.push ⟨h, true⟩⟩))
    (hnode : nodes[h.index]? = some node) :
    Inv nodes roots (pending, ⟨marks.setIfInBounds h.index .done, order.push h, rest⟩) := by
  obtain ⟨hsize, hpending, hdone, hactive, hreach, hpath⟩ := hinv
  simp only [todo_push, List.forall_mem_cons, List.pairwise_cons] at *
  have hlt : h.index < marks.size := by
    rw [hsize]
    exact (Array.getElem?_eq_some_iff.1 hnode).1
  have hset (b : Handle) : (marks.setIfInBounds h.index .done)[b.index]? =
      if h = b then some .done else marks[b.index]? := by
    rw [getElem?_mark]
    by_cases heq : h = b
    · subst heq
      rw [if_pos rfl, if_pos rfl, Array.getElem?_eq_getElem hlt]
      rfl
    · rw [if_neg heq, if_neg heq]
  refine ⟨by simpa using hsize, hpending, fun b => ?_, fun b hb => ?_, hreach.2, hpath.2⟩
  · simp only [hset, Array.toList_push, List.mem_append, List.mem_singleton]
    by_cases heq : h = b
    · simp [heq]
    · simp [heq, hdone, Ne.symm heq]
  · simp only [hset] at hb
    by_cases heq : h = b
    · simp [heq] at hb
    · rw [if_neg heq] at hb
      rcases List.mem_cons.1 (hactive b hb) with hself | hrest
      · cases hself
        exact absurd rfl heq
      · exact hrest

/-- An entry that is not expanded may go: it holds the place of no open node. -/
theorem Inv.drop (hinv : Inv nodes roots (pending, ⟨marks, order, rest.push ⟨h, false⟩⟩)) :
    Inv nodes roots (pending, ⟨marks, order, rest⟩) := by
  obtain ⟨hsize, hpending, hdone, hactive, hreach, hpath⟩ := hinv
  simp only [todo_push, List.forall_mem_cons, List.pairwise_cons] at *
  refine ⟨hsize, hpending, hdone, fun b hb => ?_, hreach.2, hpath.2⟩
  simpa using hactive b hb

/-- A node is opened: it stays, expanded, below the entries of its operands. -/
theorem Inv.expand (hinv : Inv nodes roots (pending, ⟨marks, order, rest.push ⟨h, false⟩⟩))
    (hnode : nodes[h.index]? = some node) (hmark : marks[h.index]? = some .unvisited) :
    Inv nodes roots (pending, ⟨opened marks h, order,
      rest.push ⟨h, true⟩ ++ (fresh (opened marks h) node.op.operands).reverse.toArray⟩) := by
  obtain ⟨hsize, hpending, hdone, hactive, hreach, hpath⟩ := hinv
  simp only [todo_push, List.forall_mem_cons, List.pairwise_cons] at *
  have hbelow {e : Pending} (he : e ∈ fresh (opened marks h) node.op.operands) :
      Uses nodes h e.handle := (uses_iff hnode).2 (mem_fresh.1 he).1
  refine ⟨by simpa [opened] using hsize, hpending, fun b => ?_, fun b hb => ?_, ?_, ?_⟩
  · simp only [getElem?_opened]
    by_cases heq : h = b
    · subst heq
      rw [if_pos rfl, ← hdone h, hmark]
      simp
    · rw [if_neg heq, hdone b]
  · rw [todo_expand marks]
    simp only [getElem?_opened] at hb
    by_cases heq : h = b
    · simp [heq]
    · rw [if_neg heq] at hb
      have hmem := hactive b hb
      simp only [List.mem_cons, Pending.mk.injEq, Bool.true_eq_false, and_false, false_or] at hmem
      exact List.mem_append_right _ (List.mem_cons_of_mem _ hmem)
  · intro e he
    rw [todo_expand marks, List.mem_append, List.mem_cons] at he
    rcases he with he | rfl | he
    · exact hreach.1.step (hbelow he)
    · exact hreach.1
    · exact hreach.2 e he
  · rw [todo_expand marks, List.pairwise_append]
    refine ⟨?_, List.pairwise_cons.2 hpath, fun e he below hbel hexp => ?_⟩
    · refine List.pairwise_of_forall_mem_list fun a _ b hb hexp => ?_
      rw [(mem_fresh.1 hb).2.2] at hexp
      cases hexp
    -- An operand is needed by `h` directly, and through `h` by what needs `h`.
    · rcases List.mem_cons.1 hbel with rfl | hrest
      · exact .single (hbelow he)
      · exact (hpath.1 below hrest hexp).tail (hbelow he)

end

theorem Inv.move {pending : List Handle} {walk next : Walk} (hinv : Inv nodes roots (pending, walk))
    (hmove : Move nodes walk next) : Inv nodes roots (pending, next) := by
  cases hmove with
  | finish hnode => exact hinv.finish hnode
  | drop => exact hinv.drop
  | expand hnode hmark => exact hinv.expand hnode hmark

theorem Inv.advance {state next : List Handle × Walk} (hinv : Inv nodes roots state)
    (h : Advance nodes state next) : Inv nodes roots next := by
  cases h with
  | move hmove => exact hinv.move hmove
  | @root r rest marks order =>
    obtain ⟨hsize, hpending, hdone, hactive, _, _⟩ := hinv
    rw [List.cons_subset] at hpending
    refine ⟨hsize, hpending.2, hdone, fun b hb => ?_, ?_, by simp [todo]⟩
    -- Between two roots nothing is pending, so no node can be open.
    · have hmem := hactive b hb
      simp [todo] at hmem
    · intro e he
      simp only [todo, List.reverse_singleton, List.mem_singleton] at he
      rw [he]
      exact Reachable.of_mem hpending.1

theorem Inv.of_reaches {state : List Handle × Walk} (h : Reaches nodes roots state) :
    Inv nodes roots state := by
  induction h with
  | refl => exact Inv.start nodes roots
  | tail _ hadvance ih => exact ih.advance hadvance

end Walk

end SphereTracer
