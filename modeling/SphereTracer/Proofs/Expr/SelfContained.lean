import SphereTracer.Proofs.Expr.Encoded
import SphereTracer.Proofs.Expr.Founded

/-!
# Self-contained arenas

Arenas that are made of nothing but operations over their own handles, however many there are of
them.  Every operation is there once, so two nodes have one hash only if two different strings of
bytes have it.
-/

namespace SphereTracer

open Relation (ReflTransGen)

namespace Arena

/-- One more operation, over handles of the arena. -/
inductive Interns (arena : Arena) : Arena → Prop where
  | intern {op : GraphOp} (hop : ∀ a ∈ op.operands, a.index < arena.nodes.size) :
    Interns arena (intern op arena).2

/-- Any number of operations from nothing, each over handles of what is there. -/
def SelfContained (arena : Arena) : Prop := ReflTransGen Interns ∅ arena

/-- Every operation is there once, and the table knows it. -/
structure Listed (arena : Arena) : Prop where
  known : ∀ {i : ℕ} {node : Node}, arena.nodes[i]? = some node → arena.interned[node.op]? ≠ none
  op_inj : ∀ {i j : ℕ} {node node' : Node}, arena.nodes[i]? = some node →
    arena.nodes[j]? = some node' → node.op = node'.op → i = j

variable {arena next : Arena}

theorem listed_empty : Listed ∅ where
  known {i _} hnode := by
    change (#[] : Array Node)[i]? = _ at hnode
    simp at hnode
  op_inj {i _ _ _} hnode := by
    change (#[] : Array Node)[i]? = _ at hnode
    simp at hnode

theorem Listed.push (hl : arena.Listed) {op : GraphOp} (hnew : arena.interned[op]? = none) :
    (arena.push op).Listed where
  known {i node} hnode := by
    change (arena.interned.insert op arena.nextHandle)[node.op]? ≠ none
    rw [Std.HashMap.getElem?_insert]
    split
    · exact Option.some_ne_none _
    · next hother =>
      rw [getElem?_push] at hnode
      split at hnode
      · cases hnode
        exact absurd (beq_self_eq_true op) hother
      · exact hl.known hnode
  op_inj {i j node node'} hnode hnode' hop := by
    rw [getElem?_push] at hnode hnode'
    split at hnode <;> split at hnode'
    · next hi hj => rw [hi, hj]
    · cases hnode
      exact absurd (hop ▸ hnew) (hl.known hnode')
    · cases hnode'
      exact absurd (hop ▸ hnew) (hl.known hnode)
    · exact hl.op_inj hnode hnode' hop

theorem Interns.listed (h : Interns arena next) (hl : arena.Listed) : next.Listed := by
  obtain @⟨op, -⟩ := h
  cases hop : arena.interned[op]? with
  | some a =>
    rw [intern_of_mem hop]
    exact hl
  | none =>
    rw [intern_of_new hop]
    exact hl.push hop

theorem Interns.founded (h : Interns arena next) (hf : arena.Founded) : next.Founded := by
  obtain ⟨hop⟩ := h
  exact (hf.intern hop).1

theorem SelfContained.listed (h : arena.SelfContained) : arena.Listed := by
  induction h with
  | refl => exact listed_empty
  | tail _ hstep ih => exact hstep.listed ih

theorem SelfContained.founded (h : arena.SelfContained) : arena.Founded := by
  induction h with
  | refl => exact founded_empty
  | tail _ hstep ih => exact hstep.founded ih

/-! ## Hashed strings -/

/-- The bytes that the hash of a node is taken of. -/
def encoded (arena : Arena) (node : Node) : List UInt8 := node.op.encode (hashOf arena.nodes)

/-- Different strings that are hashed for nodes have different hashes. -/
def Separated (arena : Arena) : Prop := ∀ node ∈ arena.nodes, ∀ node' ∈ arena.nodes,
  Fnv.hash (arena.encoded node) = Fnv.hash (arena.encoded node') →
    arena.encoded node = arena.encoded node'

/-- Two nodes have the name, though their hashes are of different strings. -/
def Collides (arena : Arena) (name : String) : Prop := ∃ node ∈ arena.nodes, ∃ node' ∈ arena.nodes,
  node.name = name ∧ node'.name = name ∧ arena.encoded node ≠ arena.encoded node' ∧
    Fnv.hash (arena.encoded node) = Fnv.hash (arena.encoded node')

theorem Separated.not_collides {name : String} (hs : arena.Separated) : ¬ arena.Collides name := by
  rintro ⟨node, hnode, node', hnode', -, -, hne, hhash⟩
  exact hne (hs node hnode node' hnode' hhash)

variable {i j : ℕ} {node node' : Node}

theorem hashOf_of_getElem? {h : Handle} (hnode : arena.nodes[h.index]? = some node) :
    hashOf arena.nodes h = node.hash := by
  rw [hashOf, hnode]

/-- Nodes of one string are one node, if their operands can be told apart by their hashes. -/
theorem Listed.index_eq_of_encoded_eq (hl : arena.Listed) (hf : arena.Founded)
    (hnode : arena.nodes[i]? = some node) (hnode' : arena.nodes[j]? = some node')
    (hinj : ∀ a b : Handle, a.index < i → b.index < j →
      hashOf arena.nodes a = hashOf arena.nodes b → a = b)
    (heq : arena.encoded node = arena.encoded node') : i = j := by
  refine hl.op_inj hnode hnode' (Op.eq_of_map_eq (Op.encode_eq_iff.1 heq) fun a ha b hb => ?_)
  exact hinj a b (hf.operands_lt hnode a ha) (hf.operands_lt hnode' b hb)

theorem Separated.index_eq (hs : arena.Separated) (hl : arena.Listed) (hf : arena.Founded)
    (hnode : arena.nodes[i]? = some node) (hnode' : arena.nodes[j]? = some node')
    (hhash : node.hash = node'.hash) : i = j := by
  -- Equal strings are of one operation if operands of one hash are one node: they are earlier ones.
  induction i using Nat.strongRecOn generalizing j node node' with
  | ind i ih =>
    have hstrings : Fnv.hash (arena.encoded node) = Fnv.hash (arena.encoded node') := by
      rw [hf.hash_eq hnode, hf.hash_eq hnode'] at hhash
      exact hhash
    refine hl.index_eq_of_encoded_eq hf hnode hnode' (fun a b ha hb hab => ?_)
      (hs node (Array.mem_of_getElem? hnode) node' (Array.mem_of_getElem? hnode') hstrings)
    have hlt := Nat.lt_trans ha (Array.getElem?_eq_some_iff.1 hnode).1
    have hlt' := Nat.lt_trans hb (Array.getElem?_eq_some_iff.1 hnode').1
    have hnodeA := Array.getElem?_eq_getElem hlt
    have hnodeB := Array.getElem?_eq_getElem hlt'
    rw [hashOf_of_getElem? hnodeA, hashOf_of_getElem? hnodeB] at hab
    exact Handle.index_inj (ih a.index ha hnodeA hnodeB hab)

/-- No two nodes collide exactly if no two strings do. -/
theorem SelfContained.separated_iff (h : arena.SelfContained) :
    arena.Separated ↔ (arena.nodes.toList.map Node.hash).Nodup := by
  constructor
  · intro hs
    refine List.nodup_iff_injective_getElem.2 fun i j hij => Fin.ext ?_
    have hi : i < arena.nodes.size := by simpa using i.isLt
    have hj : j < arena.nodes.size := by simpa using j.isLt
    simp only [List.getElem_map, Array.getElem_toList] at hij
    exact hs.index_eq h.listed h.founded (Array.getElem?_eq_getElem hi)
      (Array.getElem?_eq_getElem hj) hij
  · intro hhashes node hnode node' hnode' hstrings
    obtain ⟨i, hi⟩ := Array.getElem?_of_mem hnode
    obtain ⟨j, hj⟩ := Array.getElem?_of_mem hnode'
    have hhash : node.hash = node'.hash := by
      rw [h.founded.hash_eq hi, h.founded.hash_eq hj]
      exact hstrings
    rw [List.inj_on_of_nodup_map hhashes (Array.mem_toList_iff.2 hnode)
      (Array.mem_toList_iff.2 hnode') hhash]

end Arena

/-! ## Constructions -/

open Arena in
/-- A construction over handles that lead to nodes is a number of operations over such handles. -/
def Simulation.interning : Simulation where
  Rel {α β} known m m' R := Simulation.founded.Rel known m m' R ∧
    ∀ arena : Arena, arena.Founded → (∀ h t, known h t → arena.InRange h t) →
      ReflTransGen Interns arena (m.run arena).2
  weaken hsub hm := ⟨Simulation.founded.weaken hsub hm.1, fun arena hf hknown =>
    hm.2 arena hf fun h t ht => hknown h t (hsub h t ht)⟩
  pure hR := ⟨Simulation.founded.pure hR, fun _ _ _ => .refl⟩
  bind {_ _ _ _ _ _ _ m m' f f'} hm hf' := by
    refine ⟨Simulation.founded.bind hm.1 fun a reading hsub ha => (hf' a reading hsub ha).1,
      fun arena hf hknown => ?_⟩
    obtain ⟨hf₁, hR⟩ := hm.1 arena hf hknown
    have hstill : ∀ h t, arena.InRange h t → (m.run arena).2.InRange h t :=
      fun h t hlt => Nat.lt_of_lt_of_le hlt (m.grows arena).length_le
    have hnext := hf' _ _ (fun h t ht => hstill h t (hknown h t ht)) hR
    exact (hm.2 arena hf hknown).trans (hnext.2 _ hf₁ fun _ _ hlt => hlt)
  op o ho := by
    refine ⟨Simulation.founded.op o ho, fun arena hf hknown => .single (.intern ?_)⟩
    rw [Op.operands_map]
    intro a ha
    obtain ⟨b, hb, rfl⟩ := List.mem_map.1 ha
    exact hknown b.1 b.2 (ho b hb)

end SphereTracer
