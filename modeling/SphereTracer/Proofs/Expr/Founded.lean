import SphereTracer.Proofs.Expr.Denotes
import SphereTracer.Proofs.Expr.Simulation

/-!
# Founded arenas

What holds of every arena into which only operations over its own nodes have been interned, however
many there are: operands come before their users, so that every node unfolds to a tree, and a
content hash belongs to that tree and not to its place.
-/

namespace SphereTracer

open Relation SphereTracer.Graph

namespace Arena

/-! ## One operation -/

/-- The handle that the next new node gets. -/
def nextHandle (arena : Arena) : Handle := .ofIndex arena.nodes.size

/-- The arena with one node more. -/
def push (arena : Arena) (op : GraphOp) : Arena :=
  ⟨arena.nodes.push ⟨op, contentHash arena.nodes op⟩, arena.interned.insert op arena.nextHandle⟩

variable {arena : Arena} {op : GraphOp}

theorem intern_of_mem {h : Handle} (hop : arena.interned[op]? = some h) :
    intern op arena = (h, arena) := by
  unfold intern
  rw [hop]

theorem intern_of_new (hop : arena.interned[op]? = none) :
    intern op arena = (arena.nextHandle, arena.push op) := by
  unfold intern
  rw [hop]
  rfl

theorem isPrefix_push (arena : Arena) (op : GraphOp) :
    arena.nodes.toList <+: (arena.push op).nodes.toList := by
  rw [push, Array.toList_push]
  exact List.prefix_append _ _

theorem size_push (arena : Arena) (op : GraphOp) :
    (arena.push op).nodes.size = arena.nodes.size + 1 :=
  Array.size_push _

theorem getElem?_push (op : GraphOp) (i : Nat) : (arena.push op).nodes[i]? =
    if i = arena.nodes.size then some ⟨op, contentHash arena.nodes op⟩ else arena.nodes[i]? :=
  Array.getElem?_push

theorem contentHash_push {op' : GraphOp}
    (hoperands : ∀ a ∈ op'.operands, a.index < arena.nodes.size) :
    contentHash (arena.push op).nodes op' = contentHash arena.nodes op' := by
  unfold contentHash
  congr 1
  apply Op.encode_congr
  intro a ha
  -- A new node stands behind all operands, so none of their hashes changes.
  have hne : a.index ≠ arena.nodes.size := Nat.ne_of_lt (hoperands a ha)
  rw [hashOf, hashOf, getElem?_push, if_neg hne]

/-! ## The invariant -/

/-- What holds of an arena whose operations are all over its own nodes. -/
structure Founded (arena : Arena) : Prop where
  operands_lt : ∀ {i : Nat} {node : Node}, arena.nodes[i]? = some node →
    ∀ a ∈ node.op.operands, a.index < i
  hash_eq : ∀ {i : Nat} {node : Node}, arena.nodes[i]? = some node →
    node.hash = contentHash arena.nodes node.op
  /-- The table leads to nodes only. -/
  interned_lt : ∀ {op : GraphOp} {h : Handle}, arena.interned[op]? = some h →
    h.index < arena.nodes.size

theorem founded_empty : Founded ∅ where
  operands_lt {i _} hnode := by
    change (#[] : Array Node)[i]? = _ at hnode
    simp at hnode
  hash_eq {i _} hnode := by
    change (#[] : Array Node)[i]? = _ at hnode
    simp at hnode
  interned_lt {op _} hop := by
    change (∅ : Std.HashMap GraphOp Handle)[op]? = _ at hop
    simp at hop

namespace Founded

theorem push (hf : arena.Founded) (hoperands : ∀ a ∈ op.operands, a.index < arena.nodes.size) :
    (arena.push op).Founded where
  operands_lt {i node} hnode := by
    rw [getElem?_push] at hnode
    split at hnode
    · rename_i hindex
      cases hnode
      intro a ha
      rw [hindex]
      exact hoperands a ha
    · exact hf.operands_lt hnode
  hash_eq {i node} hnode := by
    rw [getElem?_push] at hnode
    split at hnode
    · cases hnode
      dsimp only
      rw [contentHash_push hoperands]
    · have hlt := (Array.getElem?_eq_some_iff.1 hnode).1
      rw [hf.hash_eq hnode, contentHash_push]
      intro a ha
      exact Nat.lt_trans (hf.operands_lt hnode a ha) hlt
  interned_lt {op' h} hop := by
    change (arena.interned.insert op arena.nextHandle)[op']? = some h at hop
    rw [Std.HashMap.getElem?_insert] at hop
    rw [size_push]
    split at hop
    · cases hop
      exact Nat.lt_succ_of_le (Handle.index_ofIndex_le _)
    · exact Nat.lt_succ_of_lt (hf.interned_lt hop)

theorem intern (hf : arena.Founded) (hoperands : ∀ a ∈ op.operands, a.index < arena.nodes.size) :
    (intern op arena).2.Founded ∧ (intern op arena).1.index < (intern op arena).2.nodes.size := by
  cases hop : arena.interned[op]? with
  | some h =>
    rw [intern_of_mem hop]
    exact ⟨hf, hf.interned_lt hop⟩
  | none =>
    rw [intern_of_new hop, size_push]
    exact ⟨hf.push hoperands, Nat.lt_succ_of_le (Handle.index_ofIndex_le _)⟩

variable {h : Handle} {t : Tree}

theorem denotes (hf : arena.Founded) (hlt : h.index < arena.nodes.size) :
    ∃ t, Denotes arena.nodes h t := by
  -- Operands have smaller numbers, so the tree of a node can be put together from theirs.
  induction hn : h.index using Nat.strongRecOn generalizing h with
  | ind n ih =>
    have hnode := Array.getElem?_eq_getElem hlt
    have hoperands : ∀ a ∈ (arena.nodes[h.index]).op.operands, ∃ t, Denotes arena.nodes a t := by
      intro a ha
      have hless := hf.operands_lt hnode a ha
      exact ih a.index (hn ▸ hless) (Nat.lt_trans hless hlt) rfl
    exact Denotes.of_operands hnode hoperands

/-- What a grown arena says of the old handles. -/
theorem denotes_of_lt (hf : arena.Founded) {nodes : Array Node}
    (hle : arena.nodes.toList <+: nodes.toList) (hlt : h.index < arena.nodes.size)
    (ht : Denotes nodes h t) : Denotes arena.nodes h t := by
  obtain ⟨t', ht'⟩ := hf.denotes hlt
  rw [ht.unique (ht'.mono hle)]
  exact ht'

theorem hashOf_eq (hf : arena.Founded) (ht : Denotes arena.nodes h t) :
    hashOf arena.nodes h = t.hash := by
  induction ht with
  | node op hnode hop _ ih =>
    rw [hashOf, hnode]
    change Node.hash _ = _
    rw [hf.hash_eq hnode, contentHash, hop, Op.encode_map, Tree.hash_node, Op.encode_map,
      Op.encode_congr ih]

/-! ## The graph -/

variable {a b : Handle} {roots : List Handle}

theorem index_lt_of_transGen (hf : arena.Founded) (hpath : TransGen (Uses arena.nodes) a b) :
    b.index < a.index := by
  have huses {a b : Handle} (huse : Uses arena.nodes a b) : b.index < a.index := by
    obtain ⟨node, hnode, hb⟩ := huse.exists_node
    exact hf.operands_lt hnode b hb
  induction hpath with
  | single huse => exact huses huse
  | tail _ huse ih => exact Nat.lt_trans (huses huse) ih

theorem not_onCycle (hf : arena.Founded) : ¬ OnCycle arena.nodes a := by
  intro hcycle
  exact Nat.lt_irrefl _ (hf.index_lt_of_transGen hcycle)

theorem reachable_lt (hf : arena.Founded) (hroots : ∀ r ∈ roots, r.index < arena.nodes.size)
    (ha : Reachable arena.nodes roots a) : a.index < arena.nodes.size := by
  apply ha.of_closed hroots
  intro a b hlt huse
  exact Nat.lt_trans (hf.index_lt_of_transGen (.single huse)) hlt

end Founded

/-- The handle leads to a node. -/
def InRange (arena : Arena) : Reading := fun h _ => h.index < arena.nodes.size

end Arena

/-- Arenas stay founded, and all handles lead to nodes. -/
def Simulation.founded : Simulation where
  Rel {α β} known m m' R :=
    ∀ arena : Arena, arena.Founded → (∀ h t, known h t → arena.InRange h t) →
    (m.run arena).2.Founded ∧ R (m.run arena).2.InRange (m.run arena).1 m'.result
  weaken hsub hm arena hf hknown := hm arena hf fun h t ht => hknown h t (hsub h t ht)
  pure hR arena hf hknown := ⟨hf, hR _ hknown⟩
  bind {_ _ _ _ _ _ _ m m' f f'} hm hf' arena hf hknown := by
    obtain ⟨hf₁, hR⟩ := hm arena hf hknown
    have hstill : ∀ h t, arena.InRange h t → (m.run arena).2.InRange h t :=
      fun h t hlt => Nat.lt_of_lt_of_le hlt (m.grows arena).length_le
    exact hf' _ _ (fun h t ht => hstill h t (hknown h t ht)) hR _ hf₁ fun _ _ hlt => hlt
  op o ho arena hf hknown := by
    apply hf.intern
    rw [Op.operands_map]
    intro a ha
    obtain ⟨b, hb, rfl⟩ := List.mem_map.1 ha
    exact hknown b.1 b.2 (ho b hb)

end SphereTracer
