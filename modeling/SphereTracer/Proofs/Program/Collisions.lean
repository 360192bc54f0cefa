import SphereTracer.Proofs.Expr.SelfContained
import SphereTracer.Proofs.Program.Refused
import SphereTracer.Proofs.Program.Stage

/-!
# Collisions

Two nodes of one name are reported only if two different strings of bytes have one hash.  So the hash
alone can be to blame for it, and never the way in which nodes are encoded or built.
-/

namespace SphereTracer

open Arena

theorem Scene.build_selfContained {scene : Scene} (hscene : scene.Closed) :
    (scene.build.run ∅).2.SelfContained :=
  (assemble_related .interning hscene).2 ∅ founded_empty known_nil

namespace Program

variable {nodes : Array Node} {name : String}

/-! ## Where collisions are reported -/

theorem arrange_ne_collision {procedure : ProcedureName} {roots : List Handle} :
    arrange nodes procedure roots ≠ .error (.collision name) := by
  rw [arrange, Ne, bind_eq_error_iff]
  simp only [bind_eq_error_iff, mapError_eq_error_iff, checkScope_eq_error_iff]
  rintro (⟨_, -, hgraph⟩ | ⟨order, -, ⟨_, _, _, _, -, -, -, -, hunbound⟩ | ⟨_, -, hpure⟩⟩)
  · cases hgraph
  · cases hunbound
  · cases hpure

theorem ofRoots_eq_collision_iff {roots : SceneRoots} {options : Options Word} :
    ofRoots nodes roots options = .error (.collision name) ↔
      checkNames nodes.toList ∅ = .error (.collision name) := by
  constructor
  · intro h
    rw [← fault?_eq_some_iff, fault?_ofRoots, Option.or_eq_some_iff, Option.or_eq_some_iff] at h
    rcases h with hnames | ⟨-, hid | ⟨-, hprocedure⟩⟩
    · exact fault?_eq_some_iff.1 hnames
    · obtain ⟨_, -, heq⟩ := Option.map_eq_some_iff.1 hid
      cases heq
    · obtain ⟨q, -, hq⟩ := List.exists_of_findSome?_eq_some hprocedure
      exact absurd (fault?_eq_some_iff.1 hq) arrange_ne_collision
  · intro h
    rw [ofRoots, bind_eq_error_iff]
    exact .inl h

theorem ofScene_eq_collision_iff {scene : Scene} {options : Options Word} :
    ofScene scene options = .error (.collision name) ↔ options.validate = .ok () ∧
      checkNames (scene.build.run ∅).2.nodes.toList ∅ = .error (.collision name) := by
  rw [ofScene_eq_error_iff, ofRoots_eq_collision_iff]
  refine or_iff_right ?_
  rintro ⟨_, -, heq⟩
  cases heq

/-- Nodes that share a hash are reported if no constant of them is wrong. -/
theorem exists_collision {nodes : List Node} (hfinite : ∀ node ∈ nodes, node.op.Finite)
    (hshared : ¬ (nodes.map Node.hash).Nodup) :
    ∃ name, checkNames nodes ∅ = .error (.collision name) := by
  cases hcheck : checkNames nodes ∅ with
  | ok u => exact absurd (checkNames_eq_ok_iff.1 hcheck).2.1 hshared
  | error e =>
    obtain ⟨before, node, after, hsplit, -, hfault⟩ :=
      (checkNames_eq_error_iff named_nil (by simp)).1 hcheck
    cases hfault with
    | collision => exact ⟨_, rfl⟩
    | nonFinite _ hinfinite =>
      refine absurd (hfinite node ?_) hinfinite
      rw [hsplit]
      exact List.mem_append_right _ List.mem_cons_self

/-- What is reported is the name of two nodes, and no other two before them have one name.  So their
operands can be told apart, and it is their own hashes that collide. -/
theorem collides_of_checkNames {arena : Arena} (h : arena.SelfContained)
    (herror : checkNames arena.nodes.toList ∅ = .error (.collision name)) : arena.Collides name := by
  obtain ⟨before, node, after, hsplit, hbefore, hfault⟩ :=
    (checkNames_eq_error_iff named_nil (by simp)).1 herror
  rw [List.nil_append] at hbefore hfault
  cases hfault with
  | collision hold =>
    obtain ⟨node', hmem, hhash⟩ := List.mem_map.1 hold
    obtain ⟨j, hj, rfl⟩ := List.getElem_of_mem hmem
    have hplace (i : ℕ) (hi : i < before.length) : arena.nodes[i]? = some before[i] := by
      rw [← Array.getElem?_toList, hsplit, List.getElem?_append_left hi, List.getElem?_eq_getElem hi]
    have hnode : arena.nodes[before.length]? = some node := by
      rw [← Array.getElem?_toList, hsplit, List.getElem?_append_right (Nat.le_refl _), Nat.sub_self]
      rfl
    -- Operands come before their nodes, and before `node` no two hashes are equal.
    have hearlier : ∀ a b : Handle, a.index < before.length → b.index < j →
        hashOf arena.nodes a = hashOf arena.nodes b → a = b := by
      intro a b ha hb hab
      have hb' := Nat.lt_trans hb hj
      rw [hashOf_of_getElem? (hplace _ ha), hashOf_of_getElem? (hplace _ hb')] at hab
      exact Handle.index_inj (index_eq_of_nodup_map hbefore.hashes ha hb' hab)
    have hne : arena.encoded node ≠ arena.encoded before[j] := fun heq => Nat.ne_of_gt hj
      (h.listed.index_eq_of_encoded_eq h.founded hnode (hplace j hj) hearlier heq)
    refine ⟨node, Array.mem_of_getElem? hnode, _, Array.mem_of_getElem? (hplace j hj), rfl, ?_, hne,
      ?_⟩
    · rw [Node.name, hhash, Node.name]
    · have hhashes := hhash.symm
      rw [h.founded.hash_eq hnode, h.founded.hash_eq (hplace j hj)] at hhashes
      exact hhashes

/-- The bytes of an operation tell its kind, its constant, its rounds and the hashes of its operands,
and those of a node are what its name is the hash of.  So if no two strings of bytes that are hashed
for the nodes of a self-contained arena collide, no two nodes share a hash and no collision is
reported; and a collision that is reported is one of two such strings. -/
theorem collision_is_genuine :
    (∀ (op op' : GraphOp) (number number' : Handle → UInt64),
      (op.encode number = op'.encode number' ↔ op.map number = op'.map number') ∧
      (op.encode number = op'.encode number' ↔ op.tag = op'.tag ∧ op.constant? = op'.constant? ∧
        op.rounds? = op'.rounds? ∧ op.operands.map number = op'.operands.map number')) ∧
    (∀ arena : Arena, arena.SelfContained →
      (∀ node ∈ arena.nodes, node.hash = Fnv.hash (arena.encoded node)) ∧
      (arena.Separated ↔ (arena.nodes.toList.map Node.hash).Nodup) ∧
      ∀ roots options name,
        (arena.Separated → ofRoots arena.nodes roots options ≠ .error (.collision name)) ∧
        (ofRoots arena.nodes roots options = .error (.collision name) → arena.Collides name)) ∧
    ∀ scene : Scene, let arena := (scene.build.run ∅).2
      (scene.Closed → arena.SelfContained) ∧
      (arena.SelfContained → ∀ options name,
        (arena.Separated → ofScene scene options ≠ .error (.collision name)) ∧
        (ofScene scene options = .error (.collision name) → arena.Collides name)) := by
  refine ⟨fun op op' number number' => ⟨Op.encode_eq_iff, Op.parts_of_encode_eq, ?_⟩,
    fun arena h => ⟨fun node hnode => ?_, h.separated_iff, fun roots options name => ⟨?_, ?_⟩⟩,
    fun scene => ⟨Scene.build_selfContained, fun h options name => ⟨?_, ?_⟩⟩⟩
  · rintro ⟨htag, hconstant, hrounds, hoperands⟩
    rw [Op.encode_eq, Op.encode_eq, htag, hconstant, hrounds, hoperands]
  · obtain ⟨i, hi⟩ := Array.getElem?_of_mem hnode
    exact h.founded.hash_eq hi
  · exact fun hs herror =>
      hs.not_collides (collides_of_checkNames h (ofRoots_eq_collision_iff.1 herror))
  · exact fun herror => collides_of_checkNames h (ofRoots_eq_collision_iff.1 herror)
  · exact fun hs herror =>
      hs.not_collides (collides_of_checkNames h (ofScene_eq_collision_iff.1 herror).2)
  · exact fun herror => collides_of_checkNames h (ofScene_eq_collision_iff.1 herror).2

end Program

/-! ## Two constants of one hash -/

namespace Scene

def clashColor : Vec3 Word := ⟨⟨0xbcc84405⟩, ⟨0x0ea981bc⟩, 1.0⟩

def clashGlow : Vec3 Word := ⟨⟨0x90b0e840⟩, ⟨0xb874706d⟩, 1.0⟩

/-- Plain air of a color and a glow whose constants have one hash. -/
def clash : Scene := { empty with
  air := { Material.plain with color := .constant clashColor, emissivity := .constant clashGlow } }

theorem clash_closed : clash.Closed := ⟨nofun, empty_closed.camera,
  Material.closed_iff.2 ⟨trivial, trivial, trivial, trivial, trivial, trivial⟩⟩

/-- The color and the glow are different trees, and what the scene is refused for is their name. -/
theorem ofScene_clash : ∃ name, Program.ofScene clash .standard = .error (.collision name) := by
  have hsize := size_le_of_few clash_closed (by decide +kernel)
  obtain ⟨hw, -, hholds⟩ := build_describes clash_closed (.inl hsize)
  have hfinite : ∀ t ∈ clash.assemble.made, t.op.Finite := by decide +kernel
  have hnodes := (Program.finite_nodes_iff hw).2 fun t ht => hfinite t ((hholds t).1 ht)
  have hcolor : .node (.constant clashColor) ∈ clash.assemble.made :=
    List.mem_of_getElem? (i := 11) rfl
  have hglow : .node (.constant clashGlow) ∈ clash.assemble.made :=
    List.mem_of_getElem? (i := 12) rfl
  have hhash : (Tree.node (.constant clashColor)).hash = (Tree.node (.constant clashGlow)).hash := by
    decide +kernel
  have hne : Tree.node (.constant clashColor) ≠ .node (.constant clashGlow) := by
    intro heq
    exact absurd (congrArg (fun t : Tree => t.op.constant?) heq) (by decide)
  have hshared : ¬ ((clash.build.run ∅).2.nodes.toList.map Node.hash).Nodup := by
    intro hnodup
    have hpass := (@Program.checkNames_eq_ok_iff _ ∅).2 ⟨by simp, hnodup, hnodes⟩
    have hnameable := (Program.checkNames_nodes_iff hw).1 hpass
    exact hne (hnameable.hash_inj _ _ ((hholds _).2 hcolor) ((hholds _).2 hglow) hhash)
  obtain ⟨name, hname⟩ := Program.exists_collision hnodes hshared
  exact ⟨name, Program.ofScene_eq_collision_iff.2 ⟨by decide +kernel, hname⟩⟩

end Scene

open Kernel in
/-- The ball's arena is without collisions, so no collision is reported; the two constants of the
other scene are reported, and they do collide. -/
theorem Program.collision_is_genuine_clash :
    ((stage [ball]).build.run ∅).2.SelfContained ∧ ((stage [ball]).build.run ∅).2.Separated ∧
      (((stage [ball]).build.run ∅).2.nodes.toList.map Node.hash).Nodup ∧
      Scene.clash.Closed ∧ (∃ name, ofScene .clash .standard = .error (.collision name) ∧
        (Scene.clash.build.run ∅).2.Collides name) := by
  obtain ⟨-, harena, hscene⟩ := collision_is_genuine
  have hball := (hscene (stage [ball])).1 (stage_closed (by simp))
  obtain ⟨-, program, hprogram⟩ := exists_program_ball
  have hhashes := (checkNames_eq_ok_iff.1
    (ofRoots_eq_ok_iff.1 (ofScene_eq_ok_iff.1 hprogram).2).1).2.1
  have hseparated := (harena _ hball).2.1.2 hhashes
  have hclash := (hscene .clash).1 Scene.clash_closed
  obtain ⟨name, hname⟩ := Scene.ofScene_clash
  exact ⟨hball, hseparated, hhashes, Scene.clash_closed, name, hname,
    ((hscene .clash).2 hclash .standard name).2 hname⟩

end SphereTracer
