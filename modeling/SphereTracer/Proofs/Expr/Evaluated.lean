import Mathlib.Data.List.Induction
import SphereTracer.Proofs.Expr.WellFormed
import SphereTracer.Proofs.Graph.Flattened

/-!
# Evaluating an order

The slots of a table against the values of trees.  Where operands come before their users, every
slot that has been filled holds the value of the tree that its node stands for; it does not matter
what the table held before.
-/

namespace SphereTracer

open SphereTracer.Graph

theorem Arena.Founded.flatten_ok {arena : Arena} (hf : arena.Founded) {roots : List Handle}
    (hroots : ∀ r ∈ roots, r.index < arena.nodes.size)
    (hwithin : ¬ Walk.Exceeds arena.nodes roots) :
    ∃ order, flatten arena.nodes roots = .ok order := by
  apply Walk.flatten_ok _ hwithin
  intro h hh
  exact ⟨hf.not_onCycle, hf.reachable_lt hroots hh⟩

/-- Too many pending entries are the only fault that its nodes can have. -/
theorem Arena.Founded.flatten_error_iff {arena : Arena} (hf : arena.Founded) {roots : List Handle}
    (hroots : ∀ r ∈ roots, r.index < arena.nodes.size) {e : GraphError} :
    flatten arena.nodes roots = .error e ↔
      e = .depthExceeded maxTraversal ∧ Walk.Exceeds arena.nodes roots := by
  constructor
  · intro h
    by_cases hwithin : Walk.Exceeds arena.nodes roots
    · have hdeep := Walk.flatten_depthExceeded_iff.2 ⟨rfl, hwithin⟩
      cases h.symm.trans hdeep
      exact ⟨rfl, hwithin⟩
    · obtain ⟨order, horder⟩ := hf.flatten_ok hroots hwithin
      cases h.symm.trans horder
  · rintro ⟨rfl, hdeep⟩
    exact Walk.flatten_depthExceeded_iff.2 ⟨rfl, hdeep⟩

/-- The operation of a node computes the value of its tree from those of its operands. -/
theorem Denotes.eval_op {S : Type} [Scalar S] {nodes : Array Node} {bindings : Bindings S}
    {read : Handle → Vec3 S} {h : Handle} {node : Node} {t : Tree} (ht : Denotes nodes h t)
    (hnode : nodes[h.index]? = some node)
    (hready : ∀ a ∈ node.op.operands, ∀ t', Denotes nodes a t' → read a = t'.eval bindings) :
    node.op.eval Scalar.ofWord read bindings = t.eval bindings := by
  cases ht with
  | node op hnode' hop hoperands =>
    rw [hnode] at hnode'
    cases hnode'
    rw [hop, Tree.eval_node, Op.eval_map, Op.eval_map]
    refine Op.eval_congr fun a ha => hready a.1 ?_ a.2 (hoperands a ha)
    rw [hop, Op.operands_map]
    exact List.mem_map_of_mem ha

namespace Slots

variable {S : Type} [Scalar S] {nodes : Array Node} {bindings : Bindings S} {slots : Slots S}

theorem get_set {a b : Handle} {v : Vec3 S} (ha : a.index < slots.size) :
    get (slots.setIfInBounds a.index v) b = if a = b then v else slots.get b := by
  unfold get
  rw [Array.getD_eq_getD_getElem?, Array.getD_eq_getD_getElem?, Array.getElem?_setIfInBounds]
  by_cases hab : a = b
  · rw [hab] at ha ⊢
    rw [if_pos rfl, if_pos rfl, if_pos ha]
    rfl
  · rw [if_neg fun hindex => hab (Handle.index_inj hindex), if_neg hab]

theorem size_fill (h : Handle) : (fill nodes bindings slots h).size = slots.size := by
  unfold fill
  split
  · rfl
  · exact Array.size_setIfInBounds

theorem size_foldl_fill (order : List Handle) :
    (order.foldl (fill nodes bindings) slots).size = slots.size := by
  induction order generalizing slots with
  | nil => rfl
  | cons h rest ih =>
    rw [List.foldl_cons, ih]
    exact size_fill h

theorem get_fill {h b : Handle} {t : Tree} (hsize : slots.size = nodes.size)
    (ht : Denotes nodes h t)
    (hready : ∀ a, Uses nodes h a → ∀ t', Denotes nodes a t' → slots.get a = t'.eval bindings) :
    (fill nodes bindings slots h).get b = if h = b then t.eval bindings else slots.get b := by
  have hlt : h.index < slots.size := hsize ▸ ht.index_lt
  have hnode := Array.getElem?_eq_getElem ht.index_lt
  unfold fill
  rw [hnode]
  dsimp only
  rw [get_set hlt, ht.eval_op hnode fun a ha => hready a ((uses_iff hnode).2 ha)]

/-- Once an order has been run, its slots hold the values of their trees. -/
theorem get_run {order : Array Handle} (hsize : slots.size = nodes.size)
    (hfirst : OperandsFirst nodes order.toList)
    (hdenotes : ∀ h ∈ order.toList, ∃ t, Denotes nodes h t) {h : Handle} (hh : h ∈ order.toList)
    {t : Tree} (ht : Denotes nodes h t) :
    (run nodes order bindings slots).get h = t.eval bindings := by
  unfold run
  rw [← Array.foldl_toList]
  generalize order.toList = l at hfirst hdenotes hh
  -- The induction takes the last node off: its operands are all among those before it.
  induction l using List.reverseRecOn generalizing h t with
  | nil => exact absurd hh List.not_mem_nil
  | append_singleton l a ih =>
    have hfirst' : OperandsFirst nodes l := by
      intro before b after heq
      apply hfirst before b (after ++ [a])
      rw [heq, List.append_assoc]
      rfl
    have hdenotes' : ∀ b ∈ l, ∃ t, Denotes nodes b t := by
      intro b hb
      exact hdenotes b (List.mem_append_left _ hb)
    have hdone {b : Handle} (hb : b ∈ l) {t' : Tree} (ht' : Denotes nodes b t') :
        (l.foldl (fill nodes bindings) slots).get b = t'.eval bindings :=
      ih ht' hfirst' hdenotes' hb
    obtain ⟨s, hs⟩ := hdenotes a (List.mem_append_right _ List.mem_cons_self)
    rw [List.foldl_append, List.foldl_cons, List.foldl_nil, get_fill _ hs]
    · by_cases hah : a = h
      · rw [if_pos hah, hs.unique (hah ▸ ht)]
      · rw [if_neg hah]
        have hmem : h ∈ l := by
          rcases List.mem_append.1 hh with hl | hlast
          · exact hl
          · exact absurd (List.mem_singleton.1 hlast).symm hah
        exact hdone hmem ht
    · intro b huse t' ht'
      exact hdone (hfirst l a [] rfl b huse) ht'
    · rw [size_foldl_fill, hsize]

end Slots

/-- Once the order of some roots has been run, its nodes have the values of their trees. -/
theorem Arena.Founded.get_run {arena : Arena} (hf : arena.Founded) {roots : List Handle}
    {order : Array Handle} (horder : flatten arena.nodes roots = .ok order) {S : Type} [Scalar S]
    (bindings : Bindings S) {slots : Slots S} (hsize : slots.size = arena.size) {h : Handle}
    (hh : h ∈ order.toList) {t : Tree} (ht : Denotes arena.nodes h t) :
    (Slots.run arena.nodes order bindings slots).get h = t.eval bindings := by
  have hpost := Walk.flatten_postOrder horder
  refine Slots.get_run hsize (hpost.operandsFirst .nil) (fun a ha => hf.denotes ?_) hh ht
  exact (hpost.sound (hpost.mem_iff.1 ha)).2

/-- Flattened and evaluated, in any table that has a slot for each node, a node has the value of its
tree, unless too many entries are pending at once. -/
theorem Denotes.run_flatten {arena : Arena} (hw : arena.WellFormed) {root : Handle} {t : Tree}
    (ht : Denotes arena.nodes root t) (hwithin : ¬ Walk.Exceeds arena.nodes [root]) :
    ∃ order, flatten arena.nodes [root] = .ok order ∧
      ∀ {S : Type} [Scalar S] (bindings : Bindings S) (slots : Slots S), slots.size = arena.size →
        (Slots.run arena.nodes order bindings slots).get root = t.eval bindings := by
  obtain ⟨order, horder⟩ :=
    hw.founded.flatten_ok (List.forall_mem_singleton.2 ht.index_lt) hwithin
  refine ⟨order, horder, fun bindings slots hsize => ?_⟩
  apply hw.founded.get_run horder bindings hsize _ ht
  exact (Walk.flatten_postOrder horder).mem_iff.2 (.of_mem List.mem_cons_self)

end SphereTracer
