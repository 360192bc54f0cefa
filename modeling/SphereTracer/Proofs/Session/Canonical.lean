import SphereTracer.Proofs.Expr.Grown
import SphereTracer.Proofs.Session.Steps

/-!
# Interning is canonical

In a session every expression has one handle, and keeps it.
-/

namespace SphereTracer

open Relation (ReflTransGen)

/-- Every expression is there once: as an operation among the nodes, and in the table. -/
structure Arena.Canonical (arena : Arena) : Prop where
  op_inj : ∀ {i j : Nat} {node node' : Node}, arena.nodes[i]? = some node →
    arena.nodes[j]? = some node' → node.op = node'.op → i = j
  operands_lt : ∀ {i : Nat} {node : Node}, arena.nodes[i]? = some node →
    ∀ a ∈ node.op.operands, a.index < i
  interned_eq : ∀ {i : Nat} {node : Node}, arena.nodes[i]? = some node →
    ∃ h, arena.interned[node.op]? = some h ∧ h.index = i
  tree : ∀ {h : Handle}, h.index < arena.size → ∃! t, Denotes arena.nodes h t
  eq_iff : ∀ {a b : Handle} {s t : Tree}, Denotes arena.nodes a s → Denotes arena.nodes b t →
    (a = b ↔ s = t)

theorem Arena.WellFormed.canonical {arena : Arena} (hw : arena.WellFormed) : arena.Canonical := by
  have hlookup {i : Nat} {node : Node} (hnode : arena.nodes[i]? = some node) :
      ∃ h, arena.interned[node.op]? = some h ∧ h.index = i := by
    have hindex := hw.index_ofIndex (Array.getElem?_eq_some_iff.1 hnode).1
    refine ⟨.ofIndex i, hw.interned_iff.2 ?_, hindex⟩
    rw [hindex, hnode]
    rfl
  constructor
  · intro i j node node' hnode hnode' hop
    obtain ⟨h, hfound, rfl⟩ := hlookup hnode
    obtain ⟨h', hfound', rfl⟩ := hlookup hnode'
    rw [hop] at hfound
    rw [Option.some.inj (hfound.symm.trans hfound')]
  · exact hw.founded.operands_lt
  · exact hlookup
  · intro h hlt
    obtain ⟨t, ht⟩ := hw.founded.denotes hlt
    exact ⟨t, ht, fun _ ht' => ht'.unique ht⟩
  · intro a b s t hs ht
    constructor
    · rintro rfl
      exact hs.unique ht
    · rintro rfl
      exact hw.handle_unique hs ht

namespace Session

/-- Whatever has been called, over handles that were returned before, interning is canonical as long
as every node has a handle of its own; and whatever is called later, the nodes that are there stay
what they are, are put in the same order and get the same values. -/
theorem interning_canonical {s later : Session} (hs : Reached s)
    (hlater : ReflTransGen Step s later) :
    (s.arena.size ≤ UInt32.size → s.arena.Canonical) ∧
    (∀ a ∈ s.returned, a.index < s.arena.size) ∧ s.returned ⊆ later.returned ∧
    s.arena.nodes.toList <+: later.arena.nodes.toList ∧ s.arena.Persists later.arena := by
  have hkept := kept_of_steps hlater
  have hsound := hs.sound
  refine ⟨fun hsize => (hs.wellFormed hsize).canonical, hsound.returned_lt, hkept.returned,
    hkept.nodes, ?_⟩
  exact hsound.founded.persists (sound_of_steps hlater hsound).founded hkept.nodes

def pointed : Session := start.after (Call.var .position).perform

def position : Handle := ((Build.var .position : Build Handle).run ∅).1

/-- The position, its length and its greatest lane. -/
def measured : Session :=
  (pointed.after (Call.unary .length position).perform).after (Call.maxComponent position).perform

theorem pointed_reached : Reached pointed := .single (.call _ (by simp [Call.operands]))

theorem position_mem_measured : position ∈ measured.returned :=
  List.mem_cons_of_mem _ (List.mem_cons_of_mem _ List.mem_cons_self)

theorem pointed_steps_measured : ReflTransGen Step pointed measured := by
  refine .tail (.single (.call _ ?_)) (.call _ ?_)
  · exact List.forall_mem_singleton.2 List.mem_cons_self
  · exact List.forall_mem_singleton.2 (List.mem_cons_of_mem _ List.mem_cons_self)

theorem measured_reached : Reached measured := pointed_reached.trans pointed_steps_measured

theorem size_pointed_le : pointed.arena.size ≤ 5 := (Call.var .position).size_perform_le ∅

theorem size_measured_le : measured.arena.size ≤ 15 := by
  have hlength := (Call.unary .length position).size_perform_le pointed.arena
  have hlane := (Call.maxComponent position).size_perform_le
    (pointed.after (Call.unary .length position).perform).arena
  have hpointed := size_pointed_le
  exact Nat.le_trans hlane (Nat.add_le_add_right (Nat.le_trans hlength (by omega)) 5)

/-- Asked for once more, the length adds nothing that was not there, and all stays as it is. -/
theorem interning_canonical_measured :
    let again := measured.after (Call.unary .length position).perform
    Reached measured ∧ Step measured again ∧ measured.arena.size ≤ UInt32.size ∧
      measured.arena.Canonical ∧ measured.arena.Persists again.arena := by
  have hstep : Step measured (measured.after (Call.unary .length position).perform) :=
    .call _ (List.forall_mem_singleton.2 position_mem_measured)
  have hsize : measured.arena.size ≤ UInt32.size := Nat.le_trans size_measured_le (by decide)
  obtain ⟨hcanonical, -, -, -, hpersists⟩ := interning_canonical measured_reached (.single hstep)
  exact ⟨measured_reached, hstep, hsize, hcanonical hsize, hpersists⟩

end Session

end SphereTracer
