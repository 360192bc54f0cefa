import SphereTracer.Proofs.Expr.Names
import SphereTracer.Proofs.Graph.Flattened
import SphereTracer.Proofs.Program.Lookup
import SphereTracer.Proofs.Program.Stage

/-!
# What a program is

Whoever has a program may rely on it: its entities are those of the scene by ascending id, its
orders can be evaluated without a check, and everything in it can be named and written.
-/

namespace SphereTracer

open SphereTracer.Graph
open List (Forall₂)

/-- An order in which the nodes of some roots can be evaluated. -/
structure Graph.Evaluable (nodes : Array Node) (roots : List Handle) (order : Array Handle) :
    Prop where
  nodup : order.toList.Nodup
  /-- Every operand of a node is listed, before the node. -/
  operandsFirst : OperandsFirst nodes order.toList
  root_mem : ∀ r ∈ roots, r ∈ order
  index_lt : ∀ h ∈ order, h.index < nodes.size

theorem evaluable_of_flatten {nodes : Array Node} {roots : List Handle} {order : Array Handle}
    (h : flatten nodes roots = .ok order) : Evaluable nodes roots order := by
  have hpost := Walk.flatten_postOrder h
  refine ⟨hpost.nodup .nil .nil, hpost.operandsFirst .nil, fun r hr => ?_, fun a ha => ?_⟩
  · exact Array.mem_toList_iff.1 (hpost.root_mem r hr)
  · exact (hpost.sound (hpost.mem_iff.1 (Array.mem_toList_iff.2 ha))).2

/-! ## What is built -/

theorem Build.getElem?_mapM {ι α : Type} (f : ι → Build α) (l : List ι) (arena : Arena) (i : Nat) :
    ((l.mapM f).run arena).1[i]? =
      (l[i]?).map fun a => ((f a).run (((l.take i).mapM f).run arena).2).1 := by
  -- What comes before `i` grows by the head with each step, and the arena with it.
  induction l generalizing arena i with
  | nil => simp only [List.mapM_nil, List.getElem?_nil, Option.map_none]; rfl
  | cons a rest ih =>
    cases i with
    | zero => rw [List.mapM_cons]; rfl
    | succ i =>
      rw [List.mapM_cons, List.take_succ_cons, List.mapM_cons]
      exact ih ((f a).run arena).2 i

namespace Scene

/-- The position, which is built first. -/
def position : Handle × Arena := (Build.var .position : Build Handle).run ∅

/-- The arena once the position and some entities have been built. -/
def builtBefore (entities : List Entity) : Arena :=
  ((entities.mapM (buildEntity position.1)).run position.2).2

/-- The roots of an entity are what it builds after the entities that are listed before it. -/
theorem getElem?_entities (scene : Scene) (i : Nat) : (scene.build.run ∅).1.entities[i]? =
    (scene.entities[i]?).map fun entity =>
      ((buildEntity position.1 entity).run (builtBefore (scene.entities.take i))).1 :=
  Build.getElem?_mapM _ _ _ i

theorem map_id_entities (scene : Scene) :
    (scene.build.run ∅).1.entities.map (·.id) = scene.entities.map (·.id) := by
  apply List.ext_getElem?
  intro i
  rw [List.getElem?_map, List.getElem?_map, getElem?_entities, Option.map_map]
  rfl

end Scene

namespace Program

/-- The program is made of what the scene builds: every entity is there, and nothing else. -/
structure Of (scene : Scene) (program : Program) : Prop where
  nodes : program.nodes = (scene.build.run ∅).2.nodes
  roots : (program.entities.toList.map (·.toEntityRoots)).Perm (scene.build.run ∅).1.entities
  ids : (program.entities.toList.map (·.id)).Perm (scene.entities.map (·.id))
  camera : program.frame.camera = (scene.build.run ∅).1.camera
  air : program.frame.air = (scene.build.run ∅).1.air

theorem Of.exists_of_id {scene : Scene} {program : Program} (hof : program.Of scene) {id : EntityId}
    (hid : id ∈ scene.entities.map (·.id)) : ∃ e ∈ program.entities, e.id = id := by
  obtain ⟨e, he, heq⟩ := List.mem_map.1 (hof.ids.mem_iff.2 hid)
  exact ⟨e, Array.mem_toList_iff.1 he, heq⟩

theorem Of.entities_eq_empty {scene : Scene} {program : Program} (h : program.Of scene)
    (hscene : scene.entities = []) : program.entities = #[] := by
  have hnil : (program.entities.toList.map (·.id)).Perm [] := by
    simpa only [hscene, List.map_nil] using h.ids
  exact Array.toList_eq_nil_iff.1 (List.map_eq_nil_iff.1 hnil.eq_nil)

/-- The program can be used without further checks. -/
structure WellFormed (program : Program) : Prop where
  ascending : Ascending program.entities
  entity?_iff : ∀ {id : UInt32} {e : EntityProgram},
    program.entity? id = some e ↔ e ∈ program.entities ∧ e.id.raw = id
  distance : ∀ e ∈ program.entities, Evaluable program.nodes [e.distance] e.distanceOrder
  material : ∀ e ∈ program.entities, Evaluable program.nodes e.material.toList e.materialOrder
  frame : Evaluable program.nodes (program.frame.camera.toList ++ program.frame.air.toList)
    program.frame.order
  distance_var : ∀ e ∈ program.entities, ∀ h ∈ e.distanceOrder,
    varOf program.nodes h ≠ some .normal ∧ varOf program.nodes h ≠ some .direction
  frame_var : ∀ h ∈ program.frame.order, varOf program.nodes h ≠ some .position ∧
    varOf program.nodes h ≠ some .normal ∧ varOf program.nodes h ≠ some .direction
  names : (program.nodes.toList.map Node.name).Nodup
  finite : ∀ node ∈ program.nodes, node.op.Finite
  options : program.options.validate = .ok ()

/-- No variable that is out of scope is left over. -/
theorem varOf_ne_of_arrange {nodes : Array Node} {procedure : ProcedureName} {roots : List Handle}
    {order : Array Handle} (h : arrange nodes procedure roots = .ok order) {v : Var}
    (hv : v ∉ procedure.scope) {a : Handle} (ha : a ∈ order) : varOf nodes a ≠ some v := by
  intro hread
  obtain ⟨-, hscope⟩ := arrange_eq_ok_iff.1 h
  exact hv (checkScope_eq_ok_iff.1 hscope v
    (List.mem_filterMap.2 ⟨a, Array.mem_toList_iff.2 ha, hread⟩))

theorem evaluable_of_arrange {nodes : Array Node} {procedure : ProcedureName} {roots : List Handle}
    {order : Array Handle} (h : arrange nodes procedure roots = .ok order) :
    Evaluable nodes roots order :=
  evaluable_of_flatten (arrange_eq_ok_iff.1 h).1

theorem ofEntity_of_mem {nodes : Array Node} {roots : List EntityRoots}
    {entities : Array EntityProgram}
    (h : Forall₂ (fun r e => ofEntity nodes r = .ok e) roots entities.toList) {e : EntityProgram}
    (he : e ∈ entities) : ofEntity nodes e.toEntityRoots = .ok e := by
  obtain ⟨r, -, hr⟩ := exists_left_of_mem h (Array.mem_toList_iff.2 he)
  rw [(ofEntity_eq_ok_iff.1 hr).2.2]
  exact hr

theorem wellFormed_of_ofRoots {nodes : Array Node} {roots : SceneRoots} {options : Options Word}
    {program : Program} (h : ofRoots nodes roots options = .ok program)
    (hvalid : options.validate = .ok ()) : program.WellFormed := by
  have hascending := ascending_of_ofRoots h
  obtain ⟨hnames, -, hentities, hframe, hnodes, hcamera, hair, hoptions⟩ := ofRoots_eq_ok_iff.1 h
  obtain ⟨-, hhashes, hfinite⟩ := checkNames_eq_ok_iff.1 hnames
  subst hnodes
  rw [← hcamera, ← hair] at hframe
  have hentity {e : EntityProgram} (he : e ∈ program.entities) :=
    ofEntity_eq_ok_iff.1 (ofEntity_of_mem hentities he)
  exact {
    ascending := hascending
    entity?_iff := entity?_eq_some_iff hascending
    distance := fun e he => evaluable_of_arrange (hentity he).1
    material := fun e he => evaluable_of_arrange (hentity he).2.1
    frame := evaluable_of_arrange hframe
    distance_var := fun e he a ha =>
      ⟨varOf_ne_of_arrange (hentity he).1 (by simp [ProcedureName.scope]) ha,
        varOf_ne_of_arrange (hentity he).1 (by simp [ProcedureName.scope]) ha⟩
    frame_var := fun a ha =>
      ⟨varOf_ne_of_arrange hframe (by simp [ProcedureName.scope]) ha,
        varOf_ne_of_arrange hframe (by simp [ProcedureName.scope]) ha,
        varOf_ne_of_arrange hframe (by simp [ProcedureName.scope]) ha⟩
    names := Node.nodup_names hhashes
    finite := fun node hnode => hfinite node (Array.mem_toList_iff.2 hnode)
    options := hoptions ▸ hvalid }

theorem of_of_ofRoots {scene : Scene} {options : Options Word} {program : Program}
    (h : ofRoots (scene.build.run ∅).2.nodes (scene.build.run ∅).1 options = .ok program) :
    program.Of scene := by
  obtain ⟨-, -, hentities, -, hnodes, hcamera, hair, -⟩ := ofRoots_eq_ok_iff.1 h
  have hroots : (program.entities.toList.map (·.toEntityRoots)).Perm
      (scene.build.run ∅).1.entities := by
    have hsame : inOrder (scene.build.run ∅).1.entities =
        program.entities.toList.map (·.toEntityRoots) := by
      rw [← List.map_id (inOrder _)]
      refine map_eq_of_forall₂ (fun r e he => ?_) hentities
      exact (ofEntity_eq_ok_iff.1 he).2.2.symm
    rw [← hsame]
    exact inOrder_perm _
  refine ⟨hnodes, hroots, ?_, hcamera, hair⟩
  have hids := hroots.map (·.id)
  rw [List.map_map, Scene.map_id_entities] at hids
  exact hids

theorem spec_of_ofScene {scene : Scene} {options : Options Word} {program : Program}
    (h : ofScene scene options = .ok program) :
    program.WellFormed ∧ program.Of scene ∧ program.options = options := by
  obtain ⟨hvalid, hroots⟩ := ofScene_eq_ok_iff.1 h
  exact ⟨wellFormed_of_ofRoots hroots hvalid, of_of_ofRoots hroots,
    (ofRoots_eq_ok_iff.1 hroots).2.2.2.2.2.2.2⟩

theorem WellFormed.isSome_entity?_iff {scene : Scene} {program : Program} (hw : program.WellFormed)
    (hof : program.Of scene) {id : UInt32} :
    (program.entity? id).isSome ↔ ∃ entity ∈ scene.entities, entity.id.raw = id := by
  have hmem (eid : EntityId) : (∃ e ∈ program.entities, e.id = eid) ↔
      ∃ entity ∈ scene.entities, entity.id = eid := by
    have hperm := hof.ids.mem_iff (a := eid)
    simp only [List.mem_map, Array.mem_toList_iff] at hperm
    exact hperm
  rw [Option.isSome_iff_exists]
  simp only [hw.entity?_iff]
  constructor
  · rintro ⟨e, he, rfl⟩
    obtain ⟨entity, hentity, hid⟩ := (hmem e.id).1 ⟨e, he, rfl⟩
    exact ⟨entity, hentity, congrArg EntityId.raw hid⟩
  · rintro ⟨entity, hentity, rfl⟩
    obtain ⟨e, he, hid⟩ := (hmem entity.id).2 ⟨entity, hentity, rfl⟩
    exact ⟨e, he, congrArg EntityId.raw hid⟩

/-- Every program that a scene has is made of what the scene builds, where the roots of an entity
are those that it builds after the entities before it, with the options that were asked for; and it
is well-formed.  Of every id it finds the one entity that has it, if the scene has one. -/
theorem wellFormed_of_ofScene {scene : Scene} {options : Options Word} {program : Program}
    (h : ofScene scene options = .ok program) :
    program.WellFormed ∧ program.Of scene ∧ program.options = options ∧
      (∀ i : Nat, (scene.build.run ∅).1.entities[i]? = (scene.entities[i]?).map fun entity =>
        ((Scene.buildEntity Scene.position.1 entity).run
          (Scene.builtBefore (scene.entities.take i))).1) ∧
      ∀ id : UInt32,
        (program.entity? id).isSome ↔ ∃ entity ∈ scene.entities, entity.id.raw = id := by
  obtain ⟨hw, hof, hoptions⟩ := spec_of_ofScene h
  exact ⟨hw, hof, hoptions, scene.getElem?_entities, fun _ => hw.isSome_entity?_iff hof⟩

open Kernel in
/-- The ground is listed first, and the ball comes first all the same. -/
theorem wellFormed_of_ofScene_stage :
    ∃ program, ofScene (stage [ground, ball]) .standard = .ok program ∧ program.WellFormed ∧
      program.Of (stage [ground, ball]) ∧
      program.entities.toList.map (·.id) = [ball.id, ground.id] ∧
      (program.entity? 2).isSome ∧ program.entity? 3 = none := by
  obtain ⟨-, program, hprogram⟩ := exists_program_swapped
  obtain ⟨hw, hof, -, -, hsome⟩ := wellFormed_of_ofScene hprogram
  refine ⟨program, hprogram, hw, hof, ?_, (hsome 2).2 ⟨ground, List.mem_cons_self, rfl⟩, ?_⟩
  · have hboth : (program.entities.toList.map (·.id)).Perm [ball.id, ground.id] :=
      hof.ids.trans (.swap _ _ _)
    have hascending : (program.entities.toList.map (·.id)).Pairwise fun a b => a.raw < b.raw :=
      List.pairwise_map.2 hw.ascending
    refine hboth.eq_of_pairwise (fun a b _ _ hab hba => ?_) hascending (by decide)
    exact absurd (UInt32.lt_trans hab hba) (UInt32.lt_irrefl _)
  · rw [← Option.not_isSome_iff_eq_none, hsome]
    decide

end Program

/-- The ball and the ground, where the program of both has them. -/
theorem Kernel.exists_program_entities :
    ∃ program, Program.ofScene (stage [ball, ground]) .standard = .ok program ∧
      ∃ b ∈ program.entities, ∃ g ∈ program.entities, b.id = ball.id ∧ g.id = ground.id := by
  obtain ⟨-, program, hprogram⟩ := exists_program_pair
  obtain ⟨-, hof, -⟩ := Program.spec_of_ofScene hprogram
  obtain ⟨b, hb, hball⟩ := hof.exists_of_id (show ball.id ∈ _ by decide)
  obtain ⟨g, hg, hground⟩ := hof.exists_of_id (show ground.id ∈ _ by decide)
  exact ⟨program, hprogram, b, hb, g, hg, hball, hground⟩

end SphereTracer
