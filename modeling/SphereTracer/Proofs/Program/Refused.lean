import Mathlib.Data.List.Duplicate
import SphereTracer.Proofs.Program.Lowered

/-!
# Scenes that are refused

A scene without a program is refused for the first thing that is wrong with it: an option, the name
of a node, an id, or a procedure.  Each of these has a description of its own here, which does not
mention the checks; and a scene has a program if and only if nothing is wrong.
-/

namespace SphereTracer

open SphereTracer.Graph

/-! ## Names -/

/-- The nodes can be told apart by their hashes, and their constants can be written. -/
structure Named (nodes : List Node) : Prop where
  hashes : (nodes.map Node.hash).Nodup
  finite : ∀ node ∈ nodes, node.op.Finite

/-- What is wrong with a node that comes after others: it repeats a hash of theirs, or else it is a
constant that is not finite. -/
inductive NameFault (before : List Node) (node : Node) : CompileError → Prop where
  | collision (hold : node.hash ∈ before.map Node.hash) :
    NameFault before node (.collision node.name)
  | nonFinite (hnew : node.hash ∉ before.map Node.hash) (hinfinite : ¬ node.op.Finite) :
    NameFault before node (.nonFinite node.name)

theorem named_nil : Named [] := ⟨List.nodup_nil, fun _ h => absurd h List.not_mem_nil⟩

theorem named_concat {before : List Node} {node : Node} : Named (before ++ [node]) ↔
    Named before ∧ node.hash ∉ before.map Node.hash ∧ node.op.Finite := by
  have hhashes : ((before ++ [node]).map Node.hash).Nodup ↔
      node.hash ∉ before.map Node.hash ∧ (before.map Node.hash).Nodup := by
    rw [((List.perm_append_singleton node before).map Node.hash).nodup_iff, List.map_cons,
      List.nodup_cons]
  have hfinite : (∀ n ∈ before ++ [node], n.op.Finite) ↔
      (∀ n ∈ before, n.op.Finite) ∧ node.op.Finite := by
    rw [List.forall_mem_append, List.forall_mem_singleton]
  constructor
  · intro h
    obtain ⟨hnew, hnodup⟩ := hhashes.1 h.hashes
    obtain ⟨hbefore, hnode⟩ := hfinite.1 h.finite
    exact ⟨⟨hnodup, hbefore⟩, hnew, hnode⟩
  · rintro ⟨h, hnew, hnode⟩
    exact ⟨hhashes.2 ⟨hnew, h.hashes⟩, hfinite.2 ⟨h.finite, hnode⟩⟩

theorem Named.of_append {before after : List Node} (h : Named (before ++ after)) :
    Named before where
  hashes := by
    have hall := h.hashes
    rw [List.map_append] at hall
    exact hall.of_append_left
  finite node hnode := h.finite node (List.mem_append_left _ hnode)

namespace Program

theorem fault?_checkNames_eq_none_iff {nodes : List Node} :
    fault? (checkNames nodes ∅) = none ↔ Named nodes := by
  have hpass : (∃ u, checkNames nodes ∅ = .ok u) ↔ checkNames nodes ∅ = .ok () :=
    ⟨fun ⟨_, h⟩ => h, fun h => ⟨(), h⟩⟩
  rw [fault?_eq_none_iff, hpass, checkNames_eq_ok_iff]
  exact ⟨fun h => ⟨h.2.1, h.2.2⟩, fun h => ⟨by simp, h.hashes, h.finite⟩⟩

section
variable {prior rest : List Node} {node : Node} {seen : Std.HashSet UInt64}

theorem checkNames_of_collision (hold : seen.contains node.hash = true) :
    checkNames (node :: rest) seen = .error (.collision node.name) := by
  rw [checkNames, if_pos hold]

theorem checkNames_of_not_finite (hnew : ¬ seen.contains node.hash = true)
    (hinfinite : ¬ node.op.Finite) :
    checkNames (node :: rest) seen = .error (.nonFinite node.name) := by
  rw [checkNames, if_neg hnew]
  cases hc : node.op.constant? with
  | none => exact absurd (fun c hmem => by simp [hc] at hmem) hinfinite
  | some c =>
    have hnumber : ¬ (c.x.isFinite && c.y.isFinite && c.z.isFinite) = true := by
      intro hfinite
      refine hinfinite fun c' hmem => ?_
      rw [hc] at hmem
      cases hmem
      exact hfinite
    exact if_neg hnumber

theorem checkNames_of_pass (hnew : ¬ seen.contains node.hash = true) (hfinite : node.op.Finite) :
    checkNames (node :: rest) seen = checkNames rest (seen.insert node.hash) := by
  rw [checkNames, if_neg hnew]
  cases hc : node.op.constant? with
  | none => rfl
  | some c => exact if_pos (hfinite c hc)

theorem checkNames_cons_eq_error_iff
    (hseen : ∀ x, seen.contains x = true ↔ x ∈ prior.map Node.hash) {e : CompileError} :
    checkNames (node :: rest) seen = .error e ↔ NameFault prior node e ∨
      node.hash ∉ prior.map Node.hash ∧ node.op.Finite ∧
        checkNames rest (seen.insert node.hash) = .error e := by
  by_cases hold : node.hash ∈ prior.map Node.hash
  · rw [checkNames_of_collision ((hseen _).2 hold), Except.error.injEq]
    constructor
    · rintro rfl
      exact .inl (.collision hold)
    · rintro ((_ | ⟨hnew, -⟩) | ⟨hnew, -⟩)
      · rfl
      · exact absurd hold hnew
      · exact absurd hold hnew
  · have hnew : ¬ seen.contains node.hash = true := fun h => hold ((hseen _).1 h)
    by_cases hfinite : node.op.Finite
    · rw [checkNames_of_pass hnew hfinite]
      constructor
      · exact fun h => .inr ⟨hold, hfinite, h⟩
      · rintro ((hmem | ⟨-, hinfinite⟩) | ⟨-, -, h⟩)
        · exact absurd hmem hold
        · exact absurd hfinite hinfinite
        · exact h
    · rw [checkNames_of_not_finite hnew hfinite, Except.error.injEq]
      constructor
      · rintro rfl
        exact .inl (.nonFinite hold hfinite)
      · rintro ((hmem | _) | ⟨-, h, -⟩)
        · exact absurd hmem hold
        · rfl
        · exact absurd h hfinite

end

/-- After nodes that have passed, the first fault of the others is reported. -/
theorem checkNames_eq_error_iff {nodes prior : List Node} {seen : Std.HashSet UInt64}
    (hprior : Named prior) (hseen : ∀ x, seen.contains x = true ↔ x ∈ prior.map Node.hash)
    {e : CompileError} : checkNames nodes seen = .error e ↔
      ∃ before node after, nodes = before ++ node :: after ∧ Named (prior ++ before) ∧
        NameFault (prior ++ before) node e := by
  induction nodes generalizing prior seen with
  | nil => simp [checkNames]
  | cons node rest ih =>
    have hnext (x : UInt64) : (seen.insert node.hash).contains x = true ↔
        x ∈ (prior ++ [node]).map Node.hash := by
      rw [Std.HashSet.contains_insert, Bool.or_eq_true, beq_iff_eq, hseen, List.map_append,
        List.mem_append, List.map_singleton, List.mem_singleton]
      exact or_comm.trans (or_congr_right eq_comm)
    rw [checkNames_cons_eq_error_iff hseen]
    constructor
    · rintro (hfault | ⟨hnew, hfinite, hrest⟩)
      · rw [← List.append_nil prior] at hprior hfault
        exact ⟨[], node, rest, rfl, hprior, hfault⟩
      · obtain ⟨before, n, after, rfl, hnamed, hfault⟩ :=
          (ih (named_concat.2 ⟨hprior, hnew, hfinite⟩) hnext).1 hrest
        rw [← List.append_cons] at hnamed hfault
        exact ⟨node :: before, n, after, rfl, hnamed, hfault⟩
    · rintro ⟨before, n, after, heq, hnamed, hfault⟩
      cases before with
      | nil =>
        cases heq
        rw [List.append_nil] at hfault
        exact .inl hfault
      | cons b before =>
        cases heq
        rw [List.append_cons] at hnamed hfault
        obtain ⟨-, hnew, hfinite⟩ := named_concat.1 hnamed.of_append
        refine .inr ⟨hnew, hfinite, ?_⟩
        exact (ih hnamed.of_append hnext).2 ⟨before, n, after, rfl, hnamed, hfault⟩

end Program

/-! ## Ids -/

namespace Program

/-- Of sorted entities, the least id that occurs twice is found. -/
theorem repeated?_eq_some_iff {entities : List EntityRoots}
    (hsorted : entities.Pairwise fun a b => a.id.raw ≤ b.id.raw) {id : EntityId} :
    repeated? entities = some id ↔ List.Duplicate id (entities.map (·.id)) ∧
      ∀ id', List.Duplicate id' (entities.map (·.id)) → id.raw ≤ id'.raw := by
  induction entities with
  | nil => simp [repeated?]
  | cons a rest ih =>
    cases rest with
    | nil => simp [repeated?]
    | cons b rest =>
      rw [repeated?]
      by_cases heq : a.id = b.id
      · have htwice : List.Duplicate a.id ((a :: b :: rest).map (·.id)) := by
          rw [List.map_cons, List.duplicate_cons_iff]
          exact .inl ⟨rfl, List.mem_cons.2 (.inl heq)⟩
        have hleast (x : EntityId) (hx : x ∈ (a :: b :: rest).map (·.id)) : a.id.raw ≤ x.raw := by
          obtain ⟨c, hc, rfl⟩ := List.mem_map.1 hx
          rcases List.mem_cons.1 hc with rfl | hmem
          · exact UInt32.le_refl _
          · exact List.rel_of_pairwise_cons hsorted hmem
        rw [if_pos heq, Option.some.injEq]
        constructor
        · rintro rfl
          exact ⟨htwice, fun x hx => hleast x hx.mem⟩
        · rintro ⟨hid, hmin⟩
          exact id_eq_iff.2 (UInt32.le_antisymm (hleast id hid.mem) (hmin a.id htwice))
      · have hnot : a.id ∉ (b :: rest).map (·.id) := by
          intro hmem
          obtain ⟨c, hc, hid⟩ := List.mem_map.1 hmem
          have hlt := lt_of_head_ne hsorted heq c hc
          rw [hid] at hlt
          exact UInt32.lt_irrefl _ hlt
        have htwice (x : EntityId) : List.Duplicate x ((a :: b :: rest).map (·.id)) ↔
            List.Duplicate x ((b :: rest).map (·.id)) := by
          rw [List.map_cons, List.duplicate_cons_iff]
          exact or_iff_right fun h => hnot (h.1 ▸ h.2)
        rw [if_neg heq, ih hsorted.of_cons]
        simp only [htwice]

end Program

/-! ## Procedures -/

/-- The two procedures of an entity. -/
def EntityRoots.procedures (r : EntityRoots) : List Procedure :=
  [⟨.distance r.id, [r.distance]⟩, ⟨.material r.id, r.material.toList⟩]

/-- All procedures of a scene, that of the frame last. -/
def SceneRoots.procedures (roots : SceneRoots) : List Procedure :=
  roots.entities.flatMap EntityRoots.procedures ++
    [⟨.frame, roots.camera.toList ++ roots.air.toList⟩]

theorem findSome?_flatMap {α β γ : Type} (g : α → List β) (f : β → Option γ) (l : List α) :
    (l.flatMap g).findSome? f = l.findSome? fun a => (g a).findSome? f := by
  induction l with
  | nil => rfl
  | cons a rest ih =>
    rw [List.flatMap_cons, List.findSome?_append, List.findSome?_cons, ih]
    cases (g a).findSome? f <;> rfl

namespace Program

variable {nodes : Array Node}

theorem fault?_ofEntity (r : EntityRoots) : fault? (ofEntity nodes r) =
    r.procedures.findSome? fun q => fault? (arrange nodes q.name q.roots) := by
  have hmaterial (d : Array Handle) :
      fault? (do
        let m ← arrange nodes (.material r.id) r.material.toList
        return (⟨r, d, m⟩ : EntityProgram)) =
        fault? (arrange nodes (.material r.id) r.material.toList) :=
    fault?_bind_pure _ _
  rw [ofEntity, fault?_bind fun d _ => hmaterial d, EntityRoots.procedures, List.findSome?_cons,
    List.findSome?_singleton]
  cases fault? (arrange nodes (.distance r.id) [r.distance]) <;> rfl

theorem fault?_ofRoots (roots : SceneRoots) (options : Options Word) :
    fault? (ofRoots nodes roots options) = (fault? (checkNames nodes.toList ∅)).or
      (((repeated? (inOrder roots.entities)).map CompileError.duplicate).or
        (({ roots with entities := inOrder roots.entities } : SceneRoots).procedures.findSome?
          fun q => fault? (arrange nodes q.name q.roots))) := by
  have hentities : fault? ((inOrder roots.entities).mapM (ofEntity nodes)) =
      ((inOrder roots.entities).flatMap EntityRoots.procedures).findSome? fun q =>
        fault? (arrange nodes q.name q.roots) := by
    rw [fault?_mapM, findSome?_flatMap]
    simp only [fault?_ofEntity]
  unfold ofRoots
  refine fault?_bind fun _ _ => ?_
  cases hrepeated : repeated? (inOrder roots.entities) with
  | some id =>
    unfold inOrder at hrepeated
    simp only [hrepeated]
    rfl
  | none =>
    rw [SceneRoots.procedures, List.findSome?_append, ← hentities, List.findSome?_singleton]
    unfold inOrder at hrepeated
    simp only [hrepeated]
    exact fault?_bind fun entities _ => fault?_bind_pure _ _

end Program

/-! ## Scenes -/

/-- Nothing is wrong with the roots of a scene. -/
structure SceneRoots.Valid (nodes : Array Node) (roots : SceneRoots) : Prop where
  names : Named nodes.toList
  ids : (roots.entities.map (·.id)).Nodup
  procedures : ∀ q ∈ roots.procedures, q.Sound nodes

/-- The first thing that is wrong with the roots of a scene: the first node at fault, the least id
that occurs twice, or the first procedure at fault, entities by ascending id. -/
inductive SceneRoots.Refused (nodes : Array Node) (roots : SceneRoots) : CompileError → Prop where
  | name {before after : List Node} {node : Node} {e : CompileError}
    (hsplit : nodes.toList = before ++ node :: after) (hbefore : Named before)
    (hfault : NameFault before node e) : Refused nodes roots e
  | duplicate {id : EntityId} (hnames : Named nodes.toList)
    (htwice : List.Duplicate id (roots.entities.map (·.id)))
    (hleast : ∀ id', List.Duplicate id' (roots.entities.map (·.id)) → id.raw ≤ id'.raw) :
    Refused nodes roots (.duplicate id)
  | procedure {sorted : List EntityRoots} {before after : List Procedure} {q : Procedure}
    {e : CompileError} (hnames : Named nodes.toList) (hperm : sorted.Perm roots.entities)
    (hsorted : sorted.Pairwise fun a b => a.id.raw < b.id.raw)
    (hsplit : ({ roots with entities := sorted } : SceneRoots).procedures = before ++ q :: after)
    (hbefore : ∀ q' ∈ before, q'.Sound nodes) (hfault : q.Fault nodes e) : Refused nodes roots e

/-- Nothing is wrong with a scene. -/
structure Scene.Valid (scene : Scene) (options : Options Word) : Prop where
  options : options.validate = .ok ()
  roots : (scene.build.run ∅).1.Valid (scene.build.run ∅).2.nodes

/-- The first thing that is wrong with a scene: an option, or else something about its roots. -/
inductive Scene.Refused (scene : Scene) (options : Options Word) : CompileError → Prop where
  | option {e : OptionError} (hinvalid : options.validate = .error e) :
    Refused scene options (.option e)
  | roots {e : CompileError} (hvalid : options.validate = .ok ())
    (hroots : (scene.build.run ∅).1.Refused (scene.build.run ∅).2.nodes e) : Refused scene options e

/-- Of all faults of a graph, a scene can be refused for the number of pending entries only. -/
theorem Scene.Refused.graph_eq {scene : Scene} {options : Options Word} {g : GraphError}
    (h : scene.Refused options (.graph g)) : g = .depthExceeded maxTraversal := by
  cases h with
  | roots _ hroots =>
    cases hroots with
    | name _ _ hfault => cases hfault
    | procedure _ _ _ _ _ hfault =>
      cases hfault
      rfl

theorem SceneRoots.mem_procedures_of_perm {roots : SceneRoots} {sorted : List EntityRoots}
    (hperm : sorted.Perm roots.entities) {q : Procedure} :
    q ∈ ({ roots with entities := sorted } : SceneRoots).procedures ↔ q ∈ roots.procedures := by
  simp only [procedures, List.mem_append, List.mem_flatMap, hperm.mem_iff]

namespace Program

variable {arena : Arena} {roots : SceneRoots} {options : Options Word}

theorem exists_ofRoots_iff_valid (hf : arena.Founded)
    (hrange : ∀ q ∈ roots.procedures, ∀ r ∈ q.roots, r.index < arena.nodes.size) :
    (∃ program, ofRoots arena.nodes roots options = .ok program) ↔ roots.Valid arena.nodes := by
  have hperm := inOrder_perm roots.entities
  have hids : repeated? (inOrder roots.entities) = none ↔ (roots.entities.map (·.id)).Nodup := by
    rw [repeated?_eq_none_iff (pairwise_inOrder _), pairwise_lt_inOrder_iff]
  have hrange' := fun q hq => hrange q ((SceneRoots.mem_procedures_of_perm hperm).1 hq)
  -- Compilation is three checks one after the other, and each is `none` for its own reason.
  rw [← fault?_eq_none_iff, fault?_ofRoots, Option.or_eq_none_iff, Option.or_eq_none_iff,
    Option.map_eq_none_iff, fault?_checkNames_eq_none_iff, hids,
    findSome?_arrange_eq_none_iff hf hrange']
  simp only [SceneRoots.mem_procedures_of_perm hperm]
  exact ⟨fun h => ⟨h.1, h.2.1, h.2.2⟩, fun h => ⟨h.names, h.ids, h.procedures⟩⟩

theorem ofRoots_eq_error_iff (hf : arena.Founded)
    (hrange : ∀ q ∈ roots.procedures, ∀ r ∈ q.roots, r.index < arena.nodes.size)
    {e : CompileError} :
    ofRoots arena.nodes roots options = .error e ↔ roots.Refused arena.nodes e := by
  have hperm := inOrder_perm roots.entities
  have hascending := pairwise_inOrder roots.entities
  have hempty (x : UInt64) : (∅ : Std.HashSet UInt64).contains x = true ↔
      x ∈ ([] : List Node).map Node.hash := by
    simp
  have htwice (x : EntityId) : List.Duplicate x ((inOrder roots.entities).map (·.id)) ↔
      List.Duplicate x (roots.entities.map (·.id)) := by
    rw [List.duplicate_iff_two_le_count, List.duplicate_iff_two_le_count, (hperm.map _).count_eq]
  have hrange' := fun q hq => hrange q ((SceneRoots.mem_procedures_of_perm hperm).1 hq)
  rw [← fault?_eq_some_iff, fault?_ofRoots]
  simp only [Option.or_eq_some_iff, Option.map_eq_some_iff, Option.map_eq_none_iff,
    findSome?_arrange_eq_some_iff hf hrange', fault?_eq_some_iff,
    checkNames_eq_error_iff named_nil hempty, List.nil_append, fault?_checkNames_eq_none_iff,
    repeated?_eq_some_iff hascending, repeated?_eq_none_iff hascending, htwice]
  constructor
  · rintro (⟨before, node, after, hsplit, hbefore, hfault⟩ | ⟨hnames, hrest⟩)
    · exact .name hsplit hbefore hfault
    rcases hrest with ⟨id, ⟨hid, hleast⟩, rfl⟩ | ⟨hlt, before, q, after, hsplit, hbefore, hfault⟩
    · exact .duplicate hnames hid hleast
    · exact .procedure hnames hperm hlt hsplit hbefore hfault
  · intro hrefused
    cases hrefused with
    | @name before after node e hsplit hbefore hfault =>
      exact .inl ⟨before, node, after, hsplit, hbefore, hfault⟩
    | @duplicate id hnames hid hleast => exact .inr ⟨hnames, .inl ⟨id, ⟨hid, hleast⟩, rfl⟩⟩
    | @procedure sorted before after q e hnames hsame hsorted hsplit hbefore hfault =>
      obtain rfl := eq_inOrder hsame hsorted
      exact .inr ⟨hnames, .inr ⟨hsorted, before, q, after, hsplit, hbefore, hfault⟩⟩

theorem ofScene_eq_error_iff {scene : Scene} {e : CompileError} :
    ofScene scene options = .error e ↔
      (∃ e', options.validate = .error e' ∧ CompileError.option e' = e) ∨
        options.validate = .ok () ∧
          ofRoots (scene.build.run ∅).2.nodes (scene.build.run ∅).1 options = .error e := by
  rw [ofScene, bind_eq_error_iff]
  simp only [mapError_eq_error_iff, mapError_eq_ok_iff]
  constructor
  · rintro (hinvalid | ⟨⟨⟩, hvalid, hroots⟩)
    · exact .inl hinvalid
    · exact .inr ⟨hvalid, hroots⟩
  · rintro (hinvalid | ⟨hvalid, hroots⟩)
    · exact .inl hinvalid
    · exact .inr ⟨(), hvalid, hroots⟩

end Program

namespace Scene

theorem founded_build {scene : Scene} (hscene : scene.Closed) :
    (scene.build.run ∅).2.Founded ∧ ∀ q ∈ (scene.build.run ∅).1.procedures, ∀ r ∈ q.roots,
      r.index < (scene.build.run ∅).2.nodes.size := by
  obtain ⟨hf, hdescribes⟩ :=
    assemble_related .founded hscene ∅ Arena.founded_empty known_nil
  have hall {handles : List Handle} {trees : List Tree}
      (h : List.Forall₂ (scene.build.run ∅).2.InRange handles trees) :
      ∀ r ∈ handles, r.index < (scene.build.run ∅).2.nodes.size := by
    intro r hr
    obtain ⟨t, -, hlt⟩ := exists_left_of_mem h.flip hr
    exact hlt
  refine ⟨hf, fun q hq => ?_⟩
  rcases List.mem_append.1 hq with hentity | hframe
  · obtain ⟨e, he, hqe⟩ := List.mem_flatMap.1 hentity
    obtain ⟨t, -, ht⟩ := exists_left_of_mem hdescribes.entities.flip he
    simp only [EntityRoots.procedures, List.mem_cons, List.not_mem_nil, or_false] at hqe
    rcases hqe with rfl | rfl
    · exact List.forall_mem_singleton.2 ht.distance
    · exact hall ht.material
  · cases List.mem_singleton.1 hframe
    exact hall (List.rel_append hdescribes.camera hdescribes.air)

/-- Scenes are accepted or refused for what they are.

A scene that captures no node has a program exactly if nothing is wrong with it, and is refused with
an error exactly if that is the first thing that is wrong.  The ids of what is built are those of
the entities; and neither a cycle nor a handle that leads nowhere is ever reported. -/
theorem ofScene_decides {scene : Scene} (hscene : scene.Closed) (options : Options Word) :
    ((∃ program, Program.ofScene scene options = .ok program) ↔ scene.Valid options) ∧
    (∀ e, Program.ofScene scene options = .error e ↔ scene.Refused options e) ∧
    (scene.build.run ∅).1.entities.map (·.id) = scene.entities.map (·.id) ∧
    ∀ h, Program.ofScene scene options ≠ .error (.graph (.cycle h)) ∧
      Program.ofScene scene options ≠ .error (.graph (.unknownNode h)) := by
  obtain ⟨hf, hrange⟩ := founded_build hscene
  have herror (e : CompileError) :
      Program.ofScene scene options = .error e ↔ scene.Refused options e := by
    rw [Program.ofScene_eq_error_iff, Program.ofRoots_eq_error_iff hf hrange]
    constructor
    · rintro (⟨e', hinvalid, rfl⟩ | ⟨hvalid, hroots⟩)
      · exact .option hinvalid
      · exact .roots hvalid hroots
    · rintro (hinvalid | ⟨hvalid, hroots⟩)
      · exact .inl ⟨_, hinvalid, rfl⟩
      · exact .inr ⟨hvalid, hroots⟩
  refine ⟨?_, herror, scene.map_id_entities, fun h => ⟨fun hcycle => ?_, fun hunknown => ?_⟩⟩
  · simp only [Program.ofScene_eq_ok_iff, exists_and_left,
      Program.exists_ofRoots_iff_valid hf hrange]
    exact ⟨fun h => ⟨h.1, h.2⟩, fun h => ⟨h.options, h.roots⟩⟩
  · cases ((herror _).1 hcycle).graph_eq
  · cases ((herror _).1 hunknown).graph_eq

open Kernel in
/-- The ball makes nothing new when it comes up again, so its nodes can still be named. -/
theorem named_stage_twice : Named ((stage [ball, ball]).build.run ∅).2.nodes.toList := by
  have htwice : (stage [ball, ball]).Closed := stage_closed (by simp)
  have hsame (e : Entity) :
      e ∈ (stage [ball, ball]).entities ↔ e ∈ (stage [ball]).entities := by
    simp [stage]
  have hmade (t : Tree) : t ∈ (stage [ball, ball]).assemble.made ↔
      t ∈ (stage [ball]).assemble.made :=
    mem_made_congr hsame rfl rfl t
  have hsize := size_le_of_few htwice (by decide +kernel)
  have hhashes : ((stage [ball]).assemble.made.map Tree.hash).Nodup := by decide +kernel
  have hfinite : ∀ t ∈ (stage [ball]).assemble.made, t.op.Finite := by decide +kernel
  have hnameable := build_nameable htwice hsize
    (fun s hs t ht => List.inj_on_of_nodup_map hhashes ((hmade s).1 hs) ((hmade t).1 ht))
    (fun t ht => hfinite t ((hmade t).1 ht))
  have hw := (build_describes htwice (.inl hsize)).1
  rw [← Program.fault?_checkNames_eq_none_iff, fault?_eq_none_iff]
  exact ⟨(), (Program.checkNames_nodes_iff hw).2 hnameable⟩

open Kernel in
/-- With two entities all is well; the same entity twice is refused for its id, and no steps at all
are refused before anything else. -/
theorem ofScene_decides_stage :
    (stage [ball, ground]).Closed ∧ (stage [ball, ball]).Closed ∧
      (stage [ball, ground]).Valid .standard ∧
      Program.ofScene (stage [ball, ball]) .standard = .error (.duplicate ball.id) ∧
      Program.ofScene (stage [ball, ball]) { Options.standard with steps := 0 } =
        .error (.option ⟨"steps", .zero⟩) := by
  have hpair : (stage [ball, ground]).Closed := stage_closed (List.Subset.refl _)
  have htwice : (stage [ball, ball]).Closed := stage_closed (by simp)
  obtain ⟨-, hprogram⟩ := exists_program_pair
  refine ⟨hpair, htwice, (ofScene_decides hpair .standard).1.1 hprogram, ?_, ?_⟩
  · refine ((ofScene_decides htwice .standard).2.1 _).2 (.roots (by decide +kernel) ?_)
    have hids : ((stage [ball, ball]).build.run ∅).1.entities.map (·.id) = [ball.id, ball.id] :=
      map_id_entities _
    refine .duplicate named_stage_twice ?_ fun id' hid' => ?_
    · rw [hids]
      exact .cons_mem List.mem_cons_self
    · rw [hids] at hid'
      have hmem := hid'.mem
      simp only [List.mem_cons, List.not_mem_nil, or_false, or_self] at hmem
      rw [hmem]
      exact UInt32.le_refl _
  · refine ((ofScene_decides htwice _).2.1 _).2 (.option ?_)
    decide +kernel

end Scene

end SphereTracer
