import SphereTracer.Proofs.Expr.Tree
import SphereTracer.Proofs.Graph.Invariant

/-!
# What the nodes of an arena stand for

A handle unfolds to the tree that its node makes of the trees of its operands.  There is at most one
such tree, and later nodes do not change it.
-/

namespace SphereTracer

/-- Operations over pairs are equal on one side if they are on the other and the pairs agree. -/
theorem Op.map_snd_eq {κ α β : Type} {op op' : Op κ (α × β)}
    (hfst : op.map Prod.fst = op'.map Prod.fst)
    (hpairs : ∀ a ∈ op.operands, ∀ b ∈ op'.operands, a.1 = b.1 → a.2 = b.2) :
    op.map Prod.snd = op'.map Prod.snd := by
  have heq : op = op' := by
    apply Op.eq_of_map_eq hfst
    intro a ha b hb hab
    exact Prod.ext hab (hpairs a ha b hb hab)
  rw [heq]

theorem Op.map_fst_eq {κ α β : Type} {op op' : Op κ (α × β)}
    (hsnd : op.map Prod.snd = op'.map Prod.snd)
    (hpairs : ∀ a ∈ op.operands, ∀ b ∈ op'.operands, a.2 = b.2 → a.1 = b.1) :
    op.map Prod.fst = op'.map Prod.fst := by
  have heq : op = op' := by
    apply Op.eq_of_map_eq hsnd
    intro a ha b hb hab
    exact Prod.ext (hpairs a ha b hb hab) hab
  rw [heq]

/-- The handle leads to a node whose operands, written out in full, make the tree. -/
inductive Denotes (nodes : Array Node) : Handle → Tree → Prop where
  | node {h : Handle} {node : Node} (op : Op Word (Handle × Tree))
      (hnode : nodes[h.index]? = some node) (hop : node.op = op.map Prod.fst)
      (hoperands : ∀ a ∈ op.operands, Denotes nodes a.1 a.2) :
      Denotes nodes h (.node (op.map Prod.snd))

theorem getElem?_of_isPrefix {nodes nodes' : Array Node} (hle : nodes.toList <+: nodes'.toList)
    {i : Nat} {node : Node} (hnode : nodes[i]? = some node) : nodes'[i]? = some node := by
  rw [← Array.getElem?_toList] at hnode ⊢
  obtain ⟨hlt, -⟩ := List.getElem?_eq_some_iff.1 hnode
  rw [List.prefix_iff_getElem?.1 hle i hlt, ← hnode, List.getElem?_eq_getElem hlt]

namespace Denotes

variable {nodes nodes' : Array Node} {h h' : Handle} {t t' : Tree}

theorem mono (hle : nodes.toList <+: nodes'.toList) (ht : Denotes nodes h t) :
    Denotes nodes' h t := by
  induction ht with
  | node op hnode hop _ ih => exact node op (getElem?_of_isPrefix hle hnode) hop ih

theorem index_lt (ht : Denotes nodes h t) : h.index < nodes.size := by
  cases ht with
  | node op hnode => exact (Array.getElem?_eq_some_iff.1 hnode).1

theorem unique (ht : Denotes nodes h t) (ht' : Denotes nodes h t') : t = t' := by
  induction ht generalizing t' with
  | node op hnode hop _ ih =>
    cases ht' with
    | node op' hnode' hop' hoperands' =>
      rw [hnode] at hnode'
      cases hnode'
      congr 1
      apply Op.map_snd_eq (hop.symm.trans hop')
      intro a ha b hb hab
      exact ih a ha (hab ▸ hoperands' b hb)

theorem operand (ht : Denotes nodes h t) {b : Handle} (hb : Graph.Uses nodes h b) :
    ∃ t', Denotes nodes b t' := by
  cases ht with
  | node op hnode hop hoperands =>
    rw [Graph.uses_iff hnode, hop, Op.operands_map] at hb
    obtain ⟨a, ha, rfl⟩ := List.mem_map.1 hb
    exact ⟨a.2, hoperands a ha⟩

/-- A node stands for a tree if all of its operands do: for the one made of theirs. -/
theorem of_operands {node : Node} (hnode : nodes[h.index]? = some node)
    (hoperands : ∀ a ∈ node.op.operands, ∃ t, Denotes nodes a t) : ∃ t, Denotes nodes h t := by
  choose! tree htree using hoperands
  refine ⟨_, .node (node.op.map fun a => (a, tree a)) hnode ?_ ?_⟩
  · rw [Op.map_map]
    exact (Op.map_id _).symm
  · rw [Op.operands_map]
    intro a ha
    obtain ⟨b, hb, rfl⟩ := List.mem_map.1 ha
    exact htree b hb

end Denotes

/-- The handle of a place. -/
def Handle.ofIndex (i : Nat) : Handle := ⟨UInt32.ofNat i⟩

theorem Handle.index_ofIndex {i : Nat} (hi : i < UInt32.size) : (Handle.ofIndex i).index = i :=
  UInt32.toNat_ofNat_of_lt hi

/-- No place has a number greater than itself, even where there are more places than handles. -/
theorem Handle.index_ofIndex_le (i : Nat) : (Handle.ofIndex i).index ≤ i := by
  unfold index ofIndex
  rw [UInt32.toNat_ofNat']
  exact Nat.mod_le _ _

/-- The tree is among those that the arena's nodes stand for. -/
def Arena.Holds (arena : Arena) (t : Tree) : Prop := ∃ h, Denotes arena.nodes h t

end SphereTracer
