import SphereTracer.Proofs.Graph.Depth
import SphereTracer.Proofs.Program.Arranged
import SphereTracer.Proofs.Program.Same

/-!
# Scenes that have a program

A scene has a program exactly if its trees can be named and written, no id occurs twice, no procedure
reads a variable out of its scope, and no order leaves too many entries pending.
-/

namespace SphereTracer

open List (Forall₂)
open Relation (ReflTransGen)
open SphereTracer.Graph

def Tree.vars : Tree → List Var := fold fun op => op.var?.toList ++ op.operands.flatten

theorem Tree.vars_node (op : Op Word Tree) :
    (Tree.node op).vars = op.var?.toList ++ op.operands.flatMap Tree.vars := by
  rw [vars, fold_node, Op.var?_map, Op.operands_map]
  rfl

/-- A tree reads the variables that its node needs, directly or through operands. -/
theorem Denotes.mem_vars_iff {nodes : Array Node} {h : Handle} {t : Tree} (ht : Denotes nodes h t)
    {v : Var} : v ∈ t.vars ↔
      ∃ b, ReflTransGen (Uses nodes) h b ∧ Program.varOf nodes b = some v := by
  have hvar := ht.varOf_eq
  induction ht with
  | @node h node op hnode hop hoperands ih =>
    rw [Tree.vars_node, List.mem_append, Option.mem_toList, Op.operands_map, List.mem_flatMap]
    have huses (b : Handle) : Uses nodes h b ↔ ∃ a ∈ op.operands, a.1 = b := by
      rw [uses_iff hnode, hop, Op.operands_map, List.mem_map]
    constructor
    · rintro (hself | ⟨t, ht, hv⟩)
      · exact ⟨h, .refl, hvar.trans hself⟩
      · obtain ⟨a, ha, rfl⟩ := List.mem_map.1 ht
        obtain ⟨b, hpath, hb⟩ := (ih a ha (hoperands a ha).varOf_eq).1 hv
        exact ⟨b, .head ((huses _).2 ⟨a, ha, rfl⟩) hpath, hb⟩
    · rintro ⟨b, hpath, hb⟩
      rcases hpath.cases_head with rfl | ⟨c, huse, hrest⟩
      · exact .inl (hvar.symm.trans hb)
      · obtain ⟨a, ha, rfl⟩ := (huses c).1 huse
        refine .inr ⟨a.2, List.mem_map_of_mem ha, ?_⟩
        exact (ih a ha (hoperands a ha).varOf_eq).2 ⟨b, hrest, hb⟩

namespace Program

variable {arena : Arena}

/-- Roots can be put in order for a procedure exactly if their trees read no variable out of its scope
and few enough entries are pending at once. -/
theorem exists_arrange_iff (hw : arena.WellFormed) (procedure : ProcedureName)
    {roots : List Handle} {trees : List Tree} (hroots : Forall₂ (Denotes arena.nodes) roots trees) :
    (∃ order, arrange arena.nodes procedure roots = .ok order) ↔
      ¬ Walk.Exceeds arena.nodes roots ∧ ∀ t ∈ trees, ∀ v ∈ t.vars, v ∈ procedure.scope := by
  have hrange : ∀ r ∈ roots, r.index < arena.nodes.size := by
    intro r hr
    obtain ⟨t, -, hrt⟩ := exists_left_of_mem hroots.flip hr
    exact hrt.index_lt
  have hvars : (∀ h, Reachable arena.nodes roots h → ∀ v, varOf arena.nodes h = some v →
      v ∈ procedure.scope) ↔ ∀ t ∈ trees, ∀ v ∈ t.vars, v ∈ procedure.scope := by
    constructor
    · intro hscope t ht v hv
      obtain ⟨r, hr, hrt⟩ := exists_left_of_mem hroots ht
      obtain ⟨b, hpath, hb⟩ := hrt.mem_vars_iff.1 hv
      exact hscope b ⟨r, hr, hpath⟩ v hb
    · rintro hscope b ⟨r, hr, hpath⟩ v hb
      obtain ⟨t, ht, hrt⟩ := exists_left_of_mem hroots.flip hr
      exact hscope t ht v (hrt.mem_vars_iff.2 ⟨b, hpath, hb⟩)
  have hsound := @exists_arrange_iff_sound arena ⟨procedure, roots⟩ hw.founded hrange
  refine hsound.trans ⟨fun h => ⟨h.within, hvars.1 h.scope⟩, fun h => ⟨h.1, hvars.2 h.2⟩⟩

end Program

/-- The procedures of an entity leave few enough entries pending. -/
structure EntityRoots.Shallow (nodes : Array Node) (roots : EntityRoots) : Prop where
  distance : ¬ Walk.Exceeds nodes [roots.distance]
  material : ¬ Walk.Exceeds nodes roots.material.toList

/-- The trees of an entity read what its procedures may read. -/
structure EntityTrees.InScope (trees : EntityTrees) : Prop where
  distance : ∀ v ∈ trees.distance.vars, v ∈ (ProcedureName.distance trees.id).scope
  material : ∀ t ∈ trees.material.toList, ∀ v ∈ t.vars, v ∈ (ProcedureName.material trees.id).scope

instance (trees : EntityTrees) : Decidable trees.InScope :=
  decidable_of_iff
    ((∀ v ∈ trees.distance.vars, v ∈ (ProcedureName.distance trees.id).scope) ∧
      ∀ t ∈ trees.material.toList, ∀ v ∈ t.vars, v ∈ (ProcedureName.material trees.id).scope)
    ⟨fun h => ⟨h.1, h.2⟩, fun h => ⟨h.distance, h.material⟩⟩

/-- The trees of the camera and the air read what may be read once per frame. -/
def SceneTrees.FrameInScope (trees : SceneTrees) : Prop :=
  ∀ t ∈ trees.camera.toList ++ trees.air.toList, ∀ v ∈ t.vars, v ∈ ProcedureName.frame.scope

instance (trees : SceneTrees) : Decidable trees.FrameInScope :=
  inferInstanceAs (Decidable (∀ t ∈ trees.camera.toList ++ trees.air.toList, _))

theorem exists_forall₂_iff {α β : Type} {R : α → β → Prop} {l : List α} :
    (∃ l', Forall₂ R l l') ↔ ∀ a ∈ l, ∃ b, R a b := by
  constructor
  · rintro ⟨l', h⟩ a ha
    obtain ⟨b, -, hab⟩ := exists_left_of_mem h.flip ha
    exact ⟨b, hab⟩
  · intro h
    induction l with
    | nil => exact ⟨[], .nil⟩
    | cons a rest ih =>
      obtain ⟨b, hb⟩ := h a List.mem_cons_self
      obtain ⟨bs, hbs⟩ := ih fun c hc => h c (List.mem_cons_of_mem _ hc)
      exact ⟨b :: bs, .cons hb hbs⟩

namespace Program

variable {arena : Arena}

theorem exists_ofEntity_iff (hw : arena.WellFormed) {roots : EntityRoots} {trees : EntityTrees}
    (hroots : trees.Describes (Denotes arena.nodes) roots) :
    (∃ e, ofEntity arena.nodes roots = .ok e) ↔ roots.Shallow arena.nodes ∧ trees.InScope := by
  have hdistance := exists_arrange_iff hw (.distance roots.id)
    (.cons hroots.distance .nil)
  have hmaterial := exists_arrange_iff hw (.material roots.id) hroots.material
  rw [hroots.id, List.forall_mem_singleton] at hdistance
  rw [hroots.id] at hmaterial
  have hboth : (∃ e, ofEntity arena.nodes roots = .ok e) ↔
      (∃ order, arrange arena.nodes (.distance trees.id) [roots.distance] = .ok order) ∧
        ∃ order, arrange arena.nodes (.material trees.id) roots.material.toList = .ok order := by
    simp only [ofEntity_eq_ok_iff, hroots.id]
    constructor
    · rintro ⟨e, hd, hm, -⟩
      exact ⟨⟨_, hd⟩, ⟨_, hm⟩⟩
    · rintro ⟨⟨d, hd⟩, ⟨m, hm⟩⟩
      exact ⟨⟨roots, d, m⟩, hd, hm, rfl⟩
  rw [hboth, hdistance, hmaterial]
  constructor
  · rintro ⟨⟨hd, hvd⟩, hm, hvm⟩
    exact ⟨⟨hd, hm⟩, hvd, hvm⟩
  · rintro ⟨⟨hd, hm⟩, hvd, hvm⟩
    exact ⟨⟨hd, hvd⟩, hm, hvm⟩

theorem exists_ofRoots_iff (hw : arena.WellFormed) {roots : SceneRoots} {trees : SceneTrees}
    (hroots : trees.Describes (Denotes arena.nodes) roots) (options : Options Word) :
    (∃ program, ofRoots arena.nodes roots options = .ok program) ↔
      arena.Nameable ∧ (trees.entities.map (·.id)).Nodup ∧
      (∀ r ∈ roots.entities, r.Shallow arena.nodes) ∧ (∀ e ∈ trees.entities, e.InScope) ∧
      ¬ Walk.Exceeds arena.nodes (roots.camera.toList ++ roots.air.toList) ∧
      trees.FrameInScope := by
  have hentities : (∃ entities, Forall₂ (fun r e => ofEntity arena.nodes r = .ok e)
      (inOrder roots.entities) entities) ↔
      (∀ r ∈ roots.entities, r.Shallow arena.nodes) ∧ ∀ e ∈ trees.entities, e.InScope := by
    rw [exists_forall₂_iff]
    simp only [(inOrder_perm roots.entities).mem_iff]
    constructor
    · intro h
      constructor
      · intro r hr
        obtain ⟨e, he, hre⟩ := exists_left_of_mem hroots.entities.flip hr
        exact ((exists_ofEntity_iff hw hre).1 (h r hr)).1
      · intro e he
        obtain ⟨r, hr, hre⟩ := exists_left_of_mem hroots.entities he
        exact ((exists_ofEntity_iff hw hre).1 (h r hr)).2
    · rintro ⟨hshallow, hscope⟩ r hr
      obtain ⟨e, he, hre⟩ := exists_left_of_mem hroots.entities.flip hr
      exact (exists_ofEntity_iff hw hre).2 ⟨hshallow r hr, hscope e he⟩
  have hframe := exists_arrange_iff hw .frame (List.rel_append hroots.camera hroots.air)
  rw [← EntityTrees.map_id_eq hroots.entities, ← checkNames_nodes_iff hw]
  simp only [ofRoots_eq_ok_iff]
  constructor
  · rintro ⟨program, hnames, hnodup, hall, horder, -⟩
    obtain ⟨hshallow, hscope⟩ := hentities.1 ⟨_, hall⟩
    obtain ⟨hwithin, hvars⟩ := hframe.1 ⟨_, horder⟩
    exact ⟨hnames, hnodup, hshallow, hscope, hwithin, hvars⟩
  · rintro ⟨hnames, hnodup, hshallow, hscope, hwithin, hvars⟩
    obtain ⟨entities, hall⟩ := hentities.2 ⟨hshallow, hscope⟩
    obtain ⟨order, horder⟩ := hframe.2 ⟨hwithin, hvars⟩
    exact ⟨⟨arena.nodes, entities.toArray, ⟨order, roots.camera, roots.air⟩, options⟩, hnames, hnodup,
      hall, horder, rfl, rfl, rfl, rfl⟩

end Program

/-- What can be named of the trees that a scene makes can be named in its arena. -/
theorem Scene.build_nameable {scene : Scene} (hscene : scene.Closed)
    (hsize : (scene.build.run ∅).2.size ≤ UInt32.size)
    (hinj : ∀ s ∈ scene.assemble.made, ∀ t ∈ scene.assemble.made, s.hash = t.hash → s = t)
    (hfinite : ∀ t ∈ scene.assemble.made, t.op.Finite) : (scene.build.run ∅).2.Nameable := by
  obtain ⟨-, -, hholds⟩ := build_describes hscene (.inl hsize)
  exact ⟨fun s t hs ht => hinj s ((hholds s).1 hs) t ((hholds t).1 ht),
    fun t ht => hfinite t ((hholds t).1 ht)⟩

/-- A scene that makes few trees has a program if its trees and its ids are in order. -/
theorem Program.exists_ofScene_of_small {scene : Scene} {options : Options Word}
    (hscene : scene.Closed) (hsmall : 4 * scene.assemble.made.length + 1 ≤ maxTraversal)
    (hvalid : options.validate = .ok ())
    (hinj : ∀ s ∈ scene.assemble.made, ∀ t ∈ scene.assemble.made, s.hash = t.hash → s = t)
    (hfinite : ∀ t ∈ scene.assemble.made, t.op.Finite)
    (hids : (scene.assemble.result.entities.map (·.id)).Nodup)
    (hscope : ∀ e ∈ scene.assemble.result.entities, e.InScope)
    (hframe : scene.assemble.result.FrameInScope) :
    ∃ program, ofScene scene options = .ok program := by
  have hmax : maxTraversal ≤ UInt32.size := by decide
  have hempty : (∅ : Arena).size = 0 := rfl
  have hcount := (Scene.assemble_related .counted hscene).1 ∅
  have hsize : (scene.build.run ∅).2.size ≤ UInt32.size := by omega
  obtain ⟨hw, hdescribes, -⟩ := Scene.build_describes hscene (.inl hsize)
  have hshallow (roots : List Handle) : ¬ Walk.Exceeds (scene.build.run ∅).2.nodes roots := by
    apply Walk.not_exceeds_of_size
    change 4 * (scene.build.run ∅).2.size + 1 ≤ maxTraversal
    omega
  obtain ⟨program, hprogram⟩ := (exists_ofRoots_iff hw hdescribes options).2
    ⟨Scene.build_nameable hscene hsize hinj hfinite, hids, fun r _ => ⟨hshallow _, hshallow _⟩,
      hscope, hshallow _, hframe⟩
  exact ⟨program, ofScene_eq_ok_iff.2 ⟨hvalid, hprogram⟩⟩

end SphereTracer
