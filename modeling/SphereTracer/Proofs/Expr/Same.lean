import SphereTracer.Proofs.Expr.WellFormed
import SphereTracer.Proofs.Graph.Alike

/-!
# The same tree in two arenas

Nodes of two well-formed arenas correspond if they stand for the same tree.  Then their operands
correspond as well, so the two arenas are alike as graphs, however differently they are numbered.
-/

namespace SphereTracer

open List (Forall₂)

namespace Arena

/-- The handle of the one arena and that of the other lead to the same tree. -/
def Same (arena arena' : Arena) (h h' : Handle) : Prop :=
  ∃ t, Denotes arena.nodes h t ∧ Denotes arena'.nodes h' t

variable {arena arena' : Arena}

/-- Handles for the same trees, in the same order, correspond. -/
theorem same_of_pairs {pairs pairs' : List (Handle × Tree)}
    (heq : pairs.map Prod.snd = pairs'.map Prod.snd)
    (hpairs : ∀ a ∈ pairs, Denotes arena.nodes a.1 a.2)
    (hpairs' : ∀ a ∈ pairs', Denotes arena'.nodes a.1 a.2) :
    Forall₂ (Same arena arena') (pairs.map Prod.fst) (pairs'.map Prod.fst) := by
  rw [List.forall₂_map_left_iff, List.forall₂_map_right_iff]
  rw [← List.forall₂_eq_eq_eq, List.forall₂_map_left_iff, List.forall₂_map_right_iff] at heq
  induction heq with
  | nil => exact .nil
  | @cons a b _ _ hab _ ih =>
    refine .cons ⟨a.2, hpairs a List.mem_cons_self, ?_⟩ (ih ?_ ?_)
    · rw [hab]
      exact hpairs' b List.mem_cons_self
    · exact fun c hc => hpairs c (List.mem_cons_of_mem _ hc)
    · exact fun c hc => hpairs' c (List.mem_cons_of_mem _ hc)

theorem map_eq_of_same {β : Type} {f f' : Handle → β} {g : Tree → β}
    (hf : ∀ {h t}, Denotes arena.nodes h t → f h = g t)
    (hf' : ∀ {h t}, Denotes arena'.nodes h t → f' h = g t) {l l' : List Handle}
    (h : Forall₂ (Same arena arena') l l') : l.map f = l'.map f' := by
  apply map_eq_of_forall₂ _ h
  rintro a b ⟨t, ha, hb⟩
  rw [hf ha, hf' hb]

theorem WellFormed.alike (hw : arena.WellFormed) (hw' : arena'.WellFormed) :
    Graph.Alike arena.nodes arena'.nodes (Same arena arena') where
  biUnique := by
    constructor
    · rintro a c b ⟨t, ha, hb⟩ ⟨s, hc, hb'⟩
      rw [hb'.unique hb] at hc
      exact hw.handle_unique ha hc
    · rintro a b c ⟨t, ha, hb⟩ ⟨s, ha', hc⟩
      rw [ha'.unique ha] at hc
      exact hw'.handle_unique hb hc
  operands := by
    rintro a b ⟨t, ha, hb⟩
    cases ha with
    | @node _ node op hnode hop hoperands =>
      generalize heq : Tree.node (op.map Prod.snd) = t at hb
      cases hb with
      | @node _ node' op' hnode' hop' hoperands' =>
        refine ⟨node, node', hnode, hnode', ?_⟩
        rw [hop, hop', Op.operands_map, Op.operands_map]
        apply same_of_pairs _ hoperands hoperands'
        rw [← Op.operands_map, ← Op.operands_map, Tree.node.inj heq]

end Arena

end SphereTracer
