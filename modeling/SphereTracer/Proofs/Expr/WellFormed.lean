import Mathlib.Data.List.FinRange
import SphereTracer.Proofs.Expr.Founded

/-!
# Well-formed arenas

As long as every node has a handle of its own, no two handles lead to the same tree: the arena is
the set of its trees, numbered in the order in which they were made.  Interning an operation adds
the tree that it makes, if that is not there yet, and nothing else.
-/

namespace SphereTracer

/-- The node has the hash of the tree, and its operation is that of the tree but for the
operands. -/
def Node.StandsFor (node : Node) (t : Tree) : Prop :=
  node.hash = t.hash ∧ ∃ op : Op Word (Handle × Tree),
    node.op = op.map Prod.fst ∧ t = .node (op.map Prod.snd)

namespace Arena

/-- What every arena satisfies into which operations have been interned whose operands it held. -/
structure WellFormed (arena : Arena) : Prop where
  /-- Every node has a handle of its own. -/
  size_le : arena.nodes.size ≤ UInt32.size
  operands_lt : ∀ {h : Handle} {node : Node}, arena.nodes[h.index]? = some node →
    ∀ a ∈ node.op.operands, a.index < h.index
  hash_eq : ∀ {h : Handle} {node : Node}, arena.nodes[h.index]? = some node →
    node.hash = contentHash arena.nodes node.op
  /-- The table lists the operations of all nodes. -/
  interned_iff : ∀ {op : GraphOp} {h : Handle}, arena.interned[op]? = some h ↔
    (arena.nodes[h.index]?).map Node.op = some op

theorem wellFormed_empty : WellFormed ∅ where
  size_le := Nat.zero_le _
  operands_lt := founded_empty.operands_lt
  hash_eq := founded_empty.hash_eq
  interned_iff {op h} := by
    change (∅ : Std.HashMap GraphOp Handle)[op]? = _ ↔ ((#[] : Array Node)[h.index]?).map _ = _
    simp

namespace WellFormed

variable {arena : Arena} {h h' : Handle} {t : Tree}

theorem index_ofIndex (hw : arena.WellFormed) {i : Nat} (hi : i < arena.nodes.size) :
    (Handle.ofIndex i).index = i :=
  Handle.index_ofIndex (Nat.lt_of_lt_of_le hi hw.size_le)

theorem founded (hw : arena.WellFormed) : arena.Founded where
  operands_lt {i node} hnode := by
    have hindex := hw.index_ofIndex (Array.getElem?_eq_some_iff.1 hnode).1
    rw [← hindex] at hnode ⊢
    exact hw.operands_lt hnode
  hash_eq {i node} hnode := by
    rw [← hw.index_ofIndex (Array.getElem?_eq_some_iff.1 hnode).1] at hnode
    exact hw.hash_eq hnode
  interned_lt hop := by
    obtain ⟨node, hnode, -⟩ := Option.map_eq_some_iff.1 (hw.interned_iff.1 hop)
    exact (Array.getElem?_eq_some_iff.1 hnode).1

theorem handle_unique (hw : arena.WellFormed) (ht : Denotes arena.nodes h t)
    (ht' : Denotes arena.nodes h' t) : h = h' := by
  induction ht generalizing h' with
  | @node h node op hnode hop _ ih =>
    generalize heq : Tree.node (op.map Prod.snd) = t at ht'
    cases ht' with
    | @node _ node' op' hnode' hop' hoperands' =>
      -- By induction the operands have the same handles; so the table has one entry for both nodes.
      have hops : node.op = node'.op := by
        rw [hop, hop']
        apply Op.map_fst_eq (Tree.node.inj heq)
        intro a ha b hb hab
        exact ih a ha (hab ▸ hoperands' b hb)
      have hfound : arena.interned[node.op]? = some h := by
        rw [hw.interned_iff, hnode]
        rfl
      have hfound' : arena.interned[node.op]? = some h' := by
        rw [hw.interned_iff, hnode', hops]
        rfl
      exact Option.some.inj (hfound.symm.trans hfound')

theorem standsFor (hw : arena.WellFormed) (ht : Denotes arena.nodes h t) {node : Node}
    (hnode : arena.nodes[h.index]? = some node) : node.StandsFor t := by
  refine ⟨?_, ?_⟩
  · rw [← hw.founded.hashOf_eq ht, hashOf, hnode]
  · cases ht with
    | node op hnode' hop =>
      cases hnode.symm.trans hnode'
      exact ⟨op, hop, rfl⟩

/-- The trees of the arena in the order of its nodes, each once. -/
theorem exists_trees (hw : arena.WellFormed) :
    ∃ trees : List Tree, trees.Nodup ∧ List.Forall₂ Node.StandsFor arena.nodes.toList trees ∧
      ∀ t, t ∈ trees ↔ arena.Holds t := by
  have hindex (i : Fin arena.nodes.size) : (Handle.ofIndex i).index = i := hw.index_ofIndex i.isLt
  have hdenotes (i : Fin arena.nodes.size) : ∃ t, Denotes arena.nodes (.ofIndex i) t :=
    hw.founded.denotes (by rw [hindex]; exact i.isLt)
  choose tree htree using hdenotes
  refine ⟨List.ofFn tree, ?_, ?_, fun t => ?_⟩
  · apply List.nodup_ofFn.2
    intro i j hij
    have hhandle := hw.handle_unique (htree i) (hij ▸ htree j)
    apply Fin.ext
    rw [← hindex i, ← hindex j, hhandle]
  · apply List.forall₂_iff_get.2
    refine ⟨List.length_ofFn.symm, fun i hi _ => ?_⟩
    rw [List.get_ofFn]
    apply hw.standsFor (htree _)
    rw [hindex]
    exact Array.getElem?_eq_getElem hi
  · rw [List.mem_ofFn]
    constructor
    · rintro ⟨i, rfl⟩
      exact ⟨_, htree i⟩
    · rintro ⟨h, ht⟩
      have heq : Handle.ofIndex h.index = h :=
        Handle.index_inj (hw.index_ofIndex ht.index_lt)
      refine ⟨⟨h.index, ht.index_lt⟩, ?_⟩
      have hfound := htree ⟨h.index, ht.index_lt⟩
      rw [show Handle.ofIndex (⟨h.index, ht.index_lt⟩ : Fin arena.nodes.size) = h from heq]
        at hfound
      exact hfound.unique ht

theorem size_le_of_holds (hw : arena.WellFormed) {trees : List Tree}
    (hall : ∀ t, arena.Holds t → t ∈ trees) : arena.nodes.size ≤ trees.length := by
  obtain ⟨held, hnodup, hnodes, hheld⟩ := hw.exists_trees
  rw [← Array.length_toList, hnodes.length_eq]
  apply (List.subperm_of_subset hnodup _).length_le
  intro t ht
  exact hall t ((hheld t).1 ht)

/-- The table finds the operation of every tree that the arena holds. -/
theorem interned_of_holds (hw : arena.WellFormed) {op : Op Word (Handle × Tree)}
    (hoperands : ∀ a ∈ op.operands, Denotes arena.nodes a.1 a.2)
    (hheld : arena.Holds (.node (op.map Prod.snd))) :
    ∃ h, arena.interned[op.map Prod.fst]? = some h := by
  obtain ⟨h, hh⟩ := hheld
  generalize heq : Tree.node (op.map Prod.snd) = t at hh
  cases hh with
  | @node _ node op' hnode hop hoperands' =>
    refine ⟨h, hw.interned_iff.2 ?_⟩
    rw [hnode, Option.map_some, hop]
    congr 1
    apply Op.map_fst_eq (Tree.node.inj heq).symm
    intro a ha b hb hab
    exact hw.handle_unique (hoperands' a ha) (hab ▸ hoperands b hb)

end WellFormed

/-! ## Interning -/

variable {arena : Arena} {op : GraphOp}

theorem index_nextHandle (hsize : arena.nodes.size < UInt32.size) :
    arena.nextHandle.index = arena.nodes.size :=
  Handle.index_ofIndex hsize

theorem WellFormed.push (hw : arena.WellFormed) (hnew : arena.interned[op]? = none)
    (hoperands : ∀ a ∈ op.operands, a.index < arena.nodes.size)
    (hsize : arena.nodes.size < UInt32.size) : (arena.push op).WellFormed where
  size_le := by
    rw [size_push]
    omega
  operands_lt := (hw.founded.push hoperands).operands_lt
  hash_eq := (hw.founded.push hoperands).hash_eq
  interned_iff {op' h} := by
    rw [getElem?_push]
    change (arena.interned.insert op arena.nextHandle)[op']? = _ ↔ _
    rw [Std.HashMap.getElem?_insert]
    by_cases hindex : h.index = arena.nodes.size
    · have hnext : h = arena.nextHandle :=
        Handle.index_inj (hindex.trans (index_nextHandle hsize).symm)
      rw [if_pos hindex]
      by_cases hop : op = op'
      · simp [hop, hnext]
      · have hold : arena.interned[op']? ≠ some h := by
          rw [Ne, hw.interned_iff, hindex]
          simp
        simp [hop, hold]
    · rw [if_neg hindex, ← hw.interned_iff]
      by_cases hop : op = op'
      · have hnext : arena.nextHandle ≠ h := by
          rintro rfl
          exact hindex (index_nextHandle hsize)
        simp [← hop, hnew, hnext]
      · simp [hop]

/-- The trees to list are those that the arena holds and the one that the operation makes. -/
theorem WellFormed.size_intern_le_length (hw : arena.WellFormed) (op : Op Word (Handle × Tree))
    (hoperands : ∀ a ∈ op.operands, Denotes arena.nodes a.1 a.2) {trees : List Tree}
    (hall : ∀ t, arena.Holds t ∨ t = .node (op.map Prod.snd) → t ∈ trees) :
    (intern (op.map Prod.fst) arena).2.size ≤ trees.length := by
  cases hop : arena.interned[op.map Prod.fst]? with
  | some h =>
    rw [intern_of_mem hop]
    exact hw.size_le_of_holds fun t ht => hall t (.inl ht)
  | none =>
    obtain ⟨held, hnodup, hnodes, hheld⟩ := hw.exists_trees
    have hnew : Tree.node (op.map Prod.snd) ∉ held := by
      intro hmem
      obtain ⟨h, hfound⟩ := hw.interned_of_holds hoperands ((hheld _).1 hmem)
      cases hop.symm.trans hfound
    rw [intern_of_new hop, size, size_push, ← Array.length_toList, hnodes.length_eq,
      ← List.length_cons]
    apply (List.subperm_of_subset (List.nodup_cons.2 ⟨hnew, hnodup⟩) _).length_le
    intro t ht
    rcases List.mem_cons.1 ht with rfl | hmem
    · exact hall _ (.inr rfl)
    · exact hall t (.inl ((hheld t).1 hmem))

/-- Interning an operation over trees that the arena holds adds the tree which the operation makes,
and no other. -/
theorem WellFormed.intern (hw : arena.WellFormed) (op : Op Word (Handle × Tree))
    (hoperands : ∀ a ∈ op.operands, Denotes arena.nodes a.1 a.2)
    (hsize : (intern (op.map Prod.fst) arena).2.size ≤ UInt32.size) :
    (intern (op.map Prod.fst) arena).2.WellFormed ∧
      Denotes (intern (op.map Prod.fst) arena).2.nodes (intern (op.map Prod.fst) arena).1
        (.node (op.map Prod.snd)) ∧
      ∀ t, (intern (op.map Prod.fst) arena).2.Holds t ↔
        arena.Holds t ∨ t = .node (op.map Prod.snd) := by
  cases hop : arena.interned[op.map Prod.fst]? with
  | some h =>
    rw [intern_of_mem hop]
    obtain ⟨node, hnode, hnodeop⟩ := Option.map_eq_some_iff.1 (hw.interned_iff.1 hop)
    have hdenotes : Denotes arena.nodes h (.node (op.map Prod.snd)) :=
      .node op hnode hnodeop hoperands
    refine ⟨hw, hdenotes, fun t => ?_⟩
    constructor
    · exact Or.inl
    · rintro (ht | rfl)
      · exact ht
      · exact ⟨h, hdenotes⟩
  | none =>
    rw [intern_of_new hop] at hsize ⊢
    have hlt : arena.nodes.size < UInt32.size := by
      simp only [size, size_push] at hsize
      omega
    have hle := isPrefix_push arena (op.map Prod.fst)
    have hbelow : ∀ a ∈ (op.map Prod.fst).operands, a.index < arena.nodes.size := by
      rw [Op.operands_map]
      intro a ha
      obtain ⟨b, hb, rfl⟩ := List.mem_map.1 ha
      exact (hoperands b hb).index_lt
    have hnode := @getElem?_push arena (op.map Prod.fst) arena.nextHandle.index
    rw [if_pos (index_nextHandle hlt)] at hnode
    have hdenotes : Denotes (arena.push (op.map Prod.fst)).nodes arena.nextHandle
        (.node (op.map Prod.snd)) :=
      .node op hnode rfl fun a ha => (hoperands a ha).mono hle
    refine ⟨hw.push hop hbelow hlt, hdenotes, fun t => ?_⟩
    constructor
    -- An old handle leads to the tree that it led to before; the only other one is the new handle.
    · rintro ⟨h, ht⟩
      by_cases hold : h.index < arena.nodes.size
      · exact .inl ⟨h, hw.founded.denotes_of_lt hle hold ht⟩
      · have hindex : h.index = arena.nodes.size := by
          have hnew := ht.index_lt
          rw [size_push] at hnew
          omega
        have hnext : h = arena.nextHandle :=
          Handle.index_inj (hindex.trans (index_nextHandle hlt).symm)
        rw [hnext] at ht
        exact .inr (ht.unique hdenotes)
    · rintro (⟨h, ht⟩ | rfl)
      · exact ⟨h, ht.mono hle⟩
      · exact ⟨_, hdenotes⟩

end Arena

end SphereTracer
