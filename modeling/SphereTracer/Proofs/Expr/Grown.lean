import SphereTracer.Proofs.Expr.Evaluated
import SphereTracer.Proofs.Graph.Alike

/-!
# Grown arenas

Nodes that come later are out of reach of those that were there before.  So the old nodes are put in
the same order, have the same names and get the same values as ever.
-/

namespace SphereTracer

open SphereTracer.Graph

/-- What the nodes of an arena are is still so in a later one. -/
structure Arena.Persists (arena later : Arena) : Prop where
  node?_eq : ∀ h, h.index < arena.size → later.node? h = arena.node? h
  flatten_eq : ∀ roots : List Handle, (∀ r ∈ roots, r.index < arena.size) →
    flatten later.nodes roots = flatten arena.nodes roots
  /-- The nodes of an order get the same values, in any tables that have a slot for each node. -/
  get_run_eq : ∀ {roots : List Handle} {order : Array Handle}, (∀ r ∈ roots, r.index < arena.size) →
    flatten arena.nodes roots = .ok order →
    ∀ {S : Type} [Scalar S] (bindings : Bindings S) (slots slots' : Slots S),
      slots.size = arena.size → slots'.size = later.size →
      ∀ h ∈ order, (Slots.run later.nodes order bindings slots').get h =
        (Slots.run arena.nodes order bindings slots).get h

namespace Arena.Founded

variable {arena later : Arena}

/-- The old nodes are the same graph in both arenas, each under the number that it has. -/
theorem alike_of_isPrefix (hf : arena.Founded) (hle : arena.nodes.toList <+: later.nodes.toList) :
    Alike arena.nodes later.nodes fun a b => a = b ∧ a.index < arena.nodes.size where
  biUnique := by
    constructor
    · rintro a b c ⟨rfl, -⟩ ⟨rfl, -⟩
      rfl
    · rintro a b c ⟨rfl, -⟩ ⟨rfl, -⟩
      rfl
  operands := by
    rintro a _ ⟨rfl, hlt⟩
    have hnode := Array.getElem?_eq_getElem hlt
    refine ⟨_, _, hnode, getElem?_of_isPrefix hle hnode, List.forall₂_same.2 fun b hb => ?_⟩
    exact ⟨rfl, Nat.lt_trans (hf.operands_lt hnode b hb) hlt⟩

theorem flatten_of_isPrefix (hf : arena.Founded) (hle : arena.nodes.toList <+: later.nodes.toList)
    {roots : List Handle} (hroots : ∀ r ∈ roots, r.index < arena.nodes.size) :
    flatten later.nodes roots = flatten arena.nodes roots := by
  have halike := hf.alike_of_isPrefix hle
  have hsame : List.Forall₂ (fun a b => a = b ∧ a.index < arena.nodes.size) roots roots :=
    List.forall₂_same.2 fun r hr => ⟨rfl, hroots r hr⟩
  cases h : flatten arena.nodes roots with
  | ok order =>
    obtain ⟨order', horder', hforall⟩ := flatten_alike halike hsame h
    have heq : order.toList = order'.toList := by
      rw [← List.forall₂_eq_eq_eq]
      exact hforall.imp fun _ _ hab => hab.1
    rw [horder', Array.toList_inj.1 heq]
  | error e =>
    -- The only possible error is the limit, and the walk over there meets it as well.
    obtain ⟨rfl, hdeep⟩ := (hf.flatten_error_iff hroots).1 h
    exact Walk.flatten_depthExceeded_iff.2 ⟨rfl, hdeep.alike halike hsame⟩

theorem persists (hf : arena.Founded) (hf' : later.Founded)
    (hle : arena.nodes.toList <+: later.nodes.toList) : arena.Persists later where
  node?_eq h hlt := by
    have hnode := Array.getElem?_eq_getElem hlt
    rw [node?, node?, hnode, getElem?_of_isPrefix hle hnode]
  flatten_eq roots hroots := hf.flatten_of_isPrefix hle hroots
  get_run_eq {roots order} hroots horder {S _} bindings slots slots' hsize hsize' h hh := by
    have horder' := (hf.flatten_of_isPrefix hle hroots).trans horder
    have hlt : h.index < arena.nodes.size := by
      have hpost := Walk.flatten_postOrder horder
      exact (hpost.sound (hpost.mem_iff.1 (Array.mem_toList_iff.2 hh))).2
    obtain ⟨t, ht⟩ := hf.denotes hlt
    rw [hf.get_run horder bindings hsize (Array.mem_toList_iff.2 hh) ht,
      hf'.get_run horder' bindings hsize' (Array.mem_toList_iff.2 hh) (ht.mono hle)]

end Arena.Founded

end SphereTracer
