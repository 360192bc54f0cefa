import Mathlib.Data.List.Sort
import SphereTracer.Kernel
import SphereTracer.Proofs.Program.Same

/-!
# Code by content

What a kernel says about a node depends on the tree that the node stands for, and not on its number
or on what else is in the arena: names are content hashes, and operands are called by their names.
The helpers depend on the set of trees that the arena holds.
-/

namespace SphereTracer.Shader

open List (Forall₂)

variable {arena arena' : Arena}

/-! ## Lines -/

theorem opCode_map {α β : Type} (operand : β → Code) (f : α → β) (op : Op Word α) :
    opCode operand (op.map f) = opCode (fun a => operand (f a)) op := by
  cases op <;> rfl

theorem opCode_congr {α : Type} {operand operand' : α → Code} {op : Op Word α}
    (h : ∀ a ∈ op.operands, operand a = operand' a) : opCode operand op = opCode operand' op := by
  cases op <;> simp_all [Op.operands, opCode]

/-- What a tree is called. -/
def treeCode (t : Tree) : Code := .name (.node t.hash)

/-- The line that binds the value of a tree to its name. -/
def treeLine : Tree → Line
  | .node op => ⟨1, .bind (.node (Tree.node op).hash) (opCode treeCode op)⟩

theorem nodeCode_eq (hw : arena.WellFormed) {h : Handle} {t : Tree} (ht : Denotes arena.nodes h t) :
    nodeCode arena.nodes h = treeCode t := by
  rw [nodeCode, nodeIdent, hw.founded.hashOf_eq ht]
  rfl

theorem binding_eq (hw : arena.WellFormed) {h : Handle} {t : Tree} (ht : Denotes arena.nodes h t) :
    binding arena.nodes h = treeLine t := by
  have hhash := hw.founded.hashOf_eq ht
  cases ht with
  | node op hnode hop hoperands =>
    rw [binding, hnode, nodeIdent, hhash, treeLine]
    simp only
    rw [hop, opCode_map, opCode_map]
    -- Operands enter the line by their names only, and these are the hashes of their trees.
    congr 2
    exact opCode_congr fun a ha => nodeCode_eq hw (hoperands a ha)

theorem bindings_eq_of_same (hw : arena.WellFormed) (hw' : arena'.WellFormed)
    {order order' : Array Handle} (h : Forall₂ (arena.Same arena') order.toList order'.toList) :
    bindings arena.nodes order = bindings arena'.nodes order' :=
  Arena.map_eq_of_same (binding_eq hw) (binding_eq hw') h

theorem nodeCode_eq_of_same (hw : arena.WellFormed) (hw' : arena'.WellFormed) {h h' : Handle}
    (hh : arena.Same arena' h h') : nodeCode arena.nodes h = nodeCode arena'.nodes h' := by
  obtain ⟨t, ht, ht'⟩ := hh
  rw [nodeCode_eq hw ht, nodeCode_eq hw' ht']

theorem materialCode_eq_of_same (hw : arena.WellFormed) (hw' : arena'.WellFormed)
    {m m' : Material Handle} (h : Forall₂ (arena.Same arena') m.toList m'.toList) :
    materialCode arena.nodes m = materialCode arena'.nodes m' := by
  have hmap := Arena.map_eq_of_same (nodeCode_eq hw) (nodeCode_eq hw') h
  simp only [Material.toList, List.map_cons, List.map_nil, List.cons.injEq, and_true] at hmap
  obtain ⟨h₁, h₂, h₃, h₄, h₅, h₆⟩ := hmap
  rw [materialCode, materialCode, h₁, h₂, h₃, h₄, h₅, h₆]

theorem frameCode_eq_of_same (hw : arena.WellFormed) (hw' : arena'.WellFormed)
    {c c' : Camera Handle} {m m' : Material Handle}
    (hc : Forall₂ (arena.Same arena') c.toList c'.toList)
    (hm : Forall₂ (arena.Same arena') m.toList m'.toList) :
    frameCode arena.nodes c m = frameCode arena'.nodes c' m' := by
  have hmap := Arena.map_eq_of_same (nodeCode_eq hw) (nodeCode_eq hw') hc
  simp only [Camera.toList, List.map_cons, List.map_nil, List.cons.injEq, and_true] at hmap
  obtain ⟨h₁, h₂, h₃, h₄, h₅, h₆⟩ := hmap
  rw [frameCode, frameCode, h₁, h₂, h₃, h₄, h₅, h₆, materialCode_eq_of_same hw hw' hm]

/-! ## Helpers -/

theorem nodup_eraseDups {α : Type} [BEq α] [LawfulBEq α] (l : List α) : l.eraseDups.Nodup := by
  induction hn : l.length using Nat.strongRecOn generalizing l with
  | ind n ih =>
    cases l with
    | nil => exact List.nodup_nil
    | cons a rest =>
      rw [List.eraseDups_cons, List.nodup_cons, List.mem_eraseDups]
      refine ⟨by simp, ih _ ?_ _ rfl⟩
      have hle := List.length_filter_le (fun b => !b == a) rest
      rw [List.length_cons] at hn
      omega

theorem pairwise_counts (nodes : Array Node) (count? : GraphOp → Option UInt32) :
    (counts nodes count?).Pairwise (· < ·) := by
  have hsorted : (counts nodes count?).Pairwise fun a b => decide (a ≤ b) = true := by
    apply List.pairwise_mergeSort
    · intro a b c hab hbc
      rw [decide_eq_true_eq] at *
      exact UInt32.le_trans hab hbc
    · intro a b
      rw [Bool.or_eq_true, decide_eq_true_eq, decide_eq_true_eq]
      exact UInt32.le_total a b
  have hnodup : (counts nodes count?).Nodup :=
    (List.mergeSort_perm _ _).nodup_iff.2 (nodup_eraseDups _)
  refine (hsorted.and hnodup).imp fun {a b} hab => ?_
  exact UInt32.lt_of_le_of_ne (of_decide_eq_true hab.1) hab.2

/-- The counts in use are those of the trees that the arena holds. -/
theorem mem_counts (hw : arena.WellFormed) (count? : {α : Type} → Op Word α → Option UInt32)
    (hcount : ∀ {α β : Type} (f : α → β) (op : Op Word α), count? (op.map f) = count? op)
    {n : UInt32} :
    n ∈ counts arena.nodes count? ↔ ∃ op, arena.Holds (.node op) ∧ count? op = some n := by
  obtain ⟨trees, -, hnodes, htrees⟩ := hw.exists_trees
  rw [counts, List.mem_mergeSort, List.mem_eraseDups, List.mem_filterMap]
  constructor
  · rintro ⟨node, hmem, hn⟩
    obtain ⟨t, ht, -, op, hop, rfl⟩ := exists_left_of_mem hnodes.flip hmem
    refine ⟨_, (htrees _).1 ht, ?_⟩
    rw [← hn, hop, hcount, hcount]
  · rintro ⟨o, ho, hn⟩
    obtain ⟨node, hmem, -, op, hop, heq⟩ := exists_left_of_mem hnodes ((htrees _).2 ho)
    refine ⟨node, hmem, ?_⟩
    rw [← hn, hop, Tree.node.inj heq, hcount, hcount]

theorem counts_congr (hw : arena.WellFormed) (hw' : arena'.WellFormed)
    (hholds : ∀ t, arena.Holds t ↔ arena'.Holds t) (count? : {α : Type} → Op Word α → Option UInt32)
    (hcount : ∀ {α β : Type} (f : α → β) (op : Op Word α), count? (op.map f) = count? op) :
    counts arena.nodes count? = counts arena'.nodes count? := by
  apply (pairwise_counts _ _).eq_of_mem_iff (pairwise_counts _ _)
  intro n
  simp only [mem_counts hw count? hcount, mem_counts hw' count? hcount, hholds]

theorem helpers_congr (hw : arena.WellFormed) (hw' : arena'.WellFormed)
    (hholds : ∀ t, arena.Holds t ↔ arena'.Holds t) :
    helpers arena.nodes = helpers arena'.nodes := by
  rw [helpers, helpers,
    counts_congr hw hw' hholds mandelbulbCount? fun f op => by cases op <;> rfl,
    counts_congr hw hw' hholds foldCount? fun f op => by cases op <;> rfl]

/-! ## Functions and modules -/

theorem distanceFunction_eq_of_same (hw : arena.WellFormed) (hw' : arena'.WellFormed)
    {e e' : EntityProgram} (he : e.Same arena arena' e') :
    distanceFunction arena.nodes e = distanceFunction arena'.nodes e' := by
  rw [distanceFunction, distanceFunction, he.id, bindings_eq_of_same hw hw' he.distanceOrder,
    nodeCode_eq_of_same hw hw' he.distance]

theorem materialFunction_eq_of_same (hw : arena.WellFormed) (hw' : arena'.WellFormed)
    {e e' : EntityProgram} (he : e.Same arena arena' e') :
    materialFunction arena.nodes e = materialFunction arena'.nodes e' := by
  rw [materialFunction, materialFunction, he.id, bindings_eq_of_same hw hw' he.materialOrder,
    materialCode_eq_of_same hw hw' he.material]

theorem entityFunctions_eq_of_same (hw : arena.WellFormed) (hw' : arena'.WellFormed)
    {program program' : Program} (hnodes : program.nodes = arena.nodes)
    (hnodes' : program'.nodes = arena'.nodes)
    (hnormals : program.options.cheapNormals = program'.options.cheapNormals)
    {e e' : EntityProgram} (he : e.Same arena arena' e') :
    entityFunctions program e = entityFunctions program' e' := by
  rw [entityFunctions, entityFunctions, hnodes, hnodes', hnormals, he.id,
    distanceFunction_eq_of_same hw hw' he, materialFunction_eq_of_same hw hw' he]

theorem frameFunction_eq_of_same (hw : arena.WellFormed) (hw' : arena'.WellFormed)
    {frame frame' : FrameProgram}
    (horder : Forall₂ (arena.Same arena') frame.order.toList frame'.order.toList)
    (hcamera : Forall₂ (arena.Same arena') frame.camera.toList frame'.camera.toList)
    (hair : Forall₂ (arena.Same arena') frame.air.toList frame'.air.toList) :
    frameFunction arena.nodes frame = frameFunction arena'.nodes frame' := by
  rw [frameFunction, frameFunction, bindings_eq_of_same hw hw' horder,
    frameCode_eq_of_same hw hw' hcamera hair]

/-- Programs of one scene are written alike. -/
theorem moduleText_eq_of_same (hw : arena.WellFormed) (hw' : arena'.WellFormed)
    (hholds : ∀ t, arena.Holds t ↔ arena'.Holds t) {program program' : Program}
    (h : program.Same arena arena' program') : moduleText program = moduleText program' := by
  have hentities : program.entities.toList.map (entityFunctions program) =
      program'.entities.toList.map (entityFunctions program') := by
    refine map_eq_of_forall₂ (fun e e' he => ?_) h.entities
    exact entityFunctions_eq_of_same hw hw' h.nodes h.nodes' (by rw [h.options]) he
  have hids : program.entities.toList.map (·.id) = program'.entities.toList.map (·.id) :=
    map_eq_of_forall₂ (fun e e' he => he.id) h.entities
  have hframe : frameFunction program.nodes program.frame =
      frameFunction program'.nodes program'.frame := by
    rw [h.nodes, h.nodes']
    exact frameFunction_eq_of_same hw hw' h.order h.camera h.air
  have hprocedures : procedures program = procedures program' := by
    rw [procedures, procedures, List.flatMap_def, List.flatMap_def, hentities, hids, hframe]
  have hhelpers : helpers program.nodes = helpers program'.nodes := by
    rw [h.nodes, h.nodes']
    exact helpers_congr hw hw' hholds
  rw [moduleText, moduleText, hhelpers, hprocedures, h.options]

end SphereTracer.Shader
