import SphereTracer.Proofs.Program.Lookup
import SphereTracer.Proofs.Program.Stage
import SphereTracer.Proofs.Shader.Canonical

/-!
# Kernels part by part

The kernel of a scene does not depend on how its entities are listed, though the arena does.  What is
written for an entity depends on that entity, and what is written for the frame depends on the camera
and the air.
-/

namespace SphereTracer

open List (Forall₂)

/-! ## Text within the source -/

namespace Shader

theorem functionsText_append (l l' : List Function) :
    functionsText (l ++ l') = functionsText l ++ functionsText l' := by
  unfold functionsText
  rw [List.map_append, String.join_append]

end Shader

/-- The functions stand in the source, one right after the other. -/
def Kernel.Emits (kernel : Kernel) (functions : List Shader.Function) : Prop :=
  ∃ before after, kernel.source = before ++ Shader.functionsText functions ++ after

namespace Kernel

open Shader

theorem emits_of_infix {program : Program} {functions : List Function}
    (h : functions <:+: procedures program) : (ofProgram program).Emits functions := by
  obtain ⟨l, l', hl⟩ := h
  refine ⟨constants program.options ++ prelude ++ functionsText (helpers program.nodes) ++
    functionsText l, functionsText l' ++ "\n" ++ entryPoint, ?_⟩
  change moduleText program = _
  rw [moduleText, ← hl, functionsText_append, functionsText_append]
  simp only [String.append_assoc]

theorem emits_entityFunctions {program : Program} {e : EntityProgram} (he : e ∈ program.entities) :
    (ofProgram program).Emits (entityFunctions program e) := by
  obtain ⟨l, l', hl⟩ := List.append_of_mem (Array.mem_toList_iff.2 he)
  have hentities : entityFunctions program e <:+:
      program.entities.toList.flatMap (entityFunctions program) := by
    rw [hl, List.flatMap_append, List.flatMap_cons, ← List.append_assoc]
    exact List.infix_append _ _ _
  exact emits_of_infix (hentities.trans (List.prefix_append _ _).isInfix)

theorem emits_frameFunction (program : Program) :
    (ofProgram program).Emits [frameFunction program.nodes program.frame] := by
  have hlast : [frameFunction program.nodes program.frame] <:+ procedures program :=
    (List.suffix_append [_, _, _] _).trans (List.suffix_append _ _)
  exact emits_of_infix hlast.isInfix

end Kernel

/-! ## Compiled scenes -/

theorem Kernel.ofScene_eq_ok_iff {scene : Scene} {options : Options Word} {kernel : Kernel} :
    ofScene scene options = .ok kernel ↔
      ∃ program, Program.ofScene scene options = .ok program ∧ ofProgram program = kernel := by
  rw [ofScene]
  cases Program.ofScene scene options with
  | error e => simp [Except.map]
  | ok program => simp [Except.map]

theorem Kernel.hash_eq_of_source_eq {scene scene' : Scene} {options options' : Options Word}
    {kernel kernel' : Kernel} (h : ofScene scene options = .ok kernel)
    (h' : ofScene scene' options' = .ok kernel') (hsource : kernel.source = kernel'.source) :
    kernel.hash = kernel'.hash := by
  obtain ⟨program, -, rfl⟩ := ofScene_eq_ok_iff.1 h
  obtain ⟨program', -, rfl⟩ := ofScene_eq_ok_iff.1 h'
  exact congrArg Fnv.hashText hsource

/-- The same entities, listed in another order, compile as well. -/
theorem Kernel.ofScene_of_perm {scene scene' : Scene} (hscene : scene.Closed)
    (hscene' : scene'.Closed) (hroom : scene.build.Room scene.assemble ∅)
    (hroom' : scene'.build.Room scene'.assemble ∅) (hperm : scene'.entities.Perm scene.entities)
    (hcamera : scene'.camera = scene.camera) (hair : scene'.air = scene.air)
    {options : Options Word} {kernel : Kernel} (h : ofScene scene options = .ok kernel) :
    ∃ kernel', ofScene scene' options = .ok kernel' ∧ kernel.source = kernel'.source := by
  obtain ⟨program, hprogram, rfl⟩ := ofScene_eq_ok_iff.1 h
  obtain ⟨hvalid, hroots⟩ := Program.ofScene_eq_ok_iff.1 hprogram
  obtain ⟨hw, hdescribes, hholds⟩ := Scene.build_describes hscene hroom
  obtain ⟨hw', hdescribes', hholds'⟩ := Scene.build_describes hscene' hroom'
  -- The trees that are made do not depend on the order of the entities.
  have hsame (t : Tree) : (scene.build.run ∅).2.Holds t ↔ (scene'.build.run ∅).2.Holds t := by
    rw [hholds, hholds', Scene.mem_made_of_perm hperm hcamera hair]
  rw [Scene.result_assemble] at hdescribes hdescribes'
  obtain ⟨program', hroots', halike⟩ := Program.ofRoots_alike hw hw' hsame hdescribes hdescribes'
    (hperm.map _) (by simp only [hcamera]) (by simp only [hair]) hroots
  refine ⟨ofProgram program', ofScene_eq_ok_iff.2 ⟨program', ?_, rfl⟩, ?_⟩
  · exact Program.ofScene_eq_ok_iff.2 ⟨hvalid, hroots'⟩
  · exact Shader.moduleText_eq_of_same hw hw' hsame halike

/-- An entity of the scene has its place in the program, made from roots that stand for its trees. -/
theorem Program.exists_entity {scene : Scene} {options : Options Word} {program : Program}
    {reading : Reading} (hdescribes : scene.assemble.result.Describes reading (scene.build.run ∅).1)
    (h : ofRoots (scene.build.run ∅).2.nodes (scene.build.run ∅).1 options = .ok program)
    {entity : Entity} (hentity : entity ∈ scene.entities) :
    ∃ roots e, entity.trees.Describes reading roots ∧
      ofEntity (scene.build.run ∅).2.nodes roots = .ok e ∧
      program.entity? entity.id.raw = some e := by
  obtain ⟨-, -, hentities, -⟩ := ofRoots_eq_ok_iff.1 h
  have hall := hdescribes.entities
  rw [Scene.result_assemble] at hall
  obtain ⟨roots, hmem, hroots⟩ := exists_left_of_mem hall (List.mem_map_of_mem hentity)
  obtain ⟨e, he, hof⟩ :=
    exists_left_of_mem hentities.flip ((inOrder_perm _).mem_iff.2 hmem)
  refine ⟨roots, e, hroots, hof, (entity?_eq_some_iff (ascending_of_ofRoots h)).2 ⟨?_, ?_⟩⟩
  · exact Array.mem_toList_iff.1 he
  · rw [(ofEntity_eq_ok_iff.1 hof).2.2, hroots.id]
    rfl

namespace Kernel

open Shader

variable {scene scene' : Scene} {options options' : Options Word} {kernel kernel' : Kernel}

/-- What is written for an entity is the same in every kernel that it is part of. -/
theorem entityFunctions_eq (hscene : scene.Closed) (hscene' : scene'.Closed)
    (hsize : (scene.build.run ∅).2.size ≤ UInt32.size)
    (hsize' : (scene'.build.run ∅).2.size ≤ UInt32.size)
    (h : ofScene scene options = .ok kernel) (h' : ofScene scene' options' = .ok kernel')
    (hnormals : options.cheapNormals = options'.cheapNormals) {entity : Entity}
    (hentity : entity ∈ scene.entities) (hentity' : entity ∈ scene'.entities) :
    ∃ e e', kernel.program.entity? entity.id.raw = some e ∧
      kernel'.program.entity? entity.id.raw = some e' ∧
      kernel.Emits (entityFunctions kernel.program e) ∧
      kernel'.Emits (entityFunctions kernel'.program e') ∧
      entityFunctions kernel.program e = entityFunctions kernel'.program e' := by
  obtain ⟨program, hprogram, rfl⟩ := ofScene_eq_ok_iff.1 h
  obtain ⟨program', hprogram', rfl⟩ := ofScene_eq_ok_iff.1 h'
  obtain ⟨-, hroots⟩ := Program.ofScene_eq_ok_iff.1 hprogram
  obtain ⟨-, hroots'⟩ := Program.ofScene_eq_ok_iff.1 hprogram'
  obtain ⟨hw, hdescribes, -⟩ := Scene.build_describes hscene (.inl hsize)
  obtain ⟨hw', hdescribes', -⟩ := Scene.build_describes hscene' (.inl hsize')
  obtain ⟨r, e, hr, hof, hfound⟩ := Program.exists_entity hdescribes hroots hentity
  obtain ⟨r', e', hr', hof', hfound'⟩ := Program.exists_entity hdescribes' hroots' hentity'
  obtain ⟨e₁, hof₁, hsame⟩ := Program.ofEntity_alike hw hw' (hr.same hr') hof
  cases hof₁.symm.trans hof'
  obtain ⟨-, -, -, -, hnodes, -, -, hoptions⟩ := Program.ofRoots_eq_ok_iff.1 hroots
  obtain ⟨-, -, -, -, hnodes', -, -, hoptions'⟩ := Program.ofRoots_eq_ok_iff.1 hroots'
  refine ⟨e, e', hfound, hfound', emits_entityFunctions ?_, emits_entityFunctions ?_, ?_⟩
  · exact ((Program.entity?_eq_some_iff (Program.ascending_of_ofRoots hroots)).1 hfound).1
  · exact ((Program.entity?_eq_some_iff (Program.ascending_of_ofRoots hroots')).1 hfound').1
  · apply entityFunctions_eq_of_same hw hw' hnodes hnodes' _ hsame
    rw [hoptions, hoptions']
    exact hnormals

/-- What is written for the frame is the same in every kernel with the same camera and air. -/
theorem frameFunction_eq (hscene : scene.Closed) (hscene' : scene'.Closed)
    (hsize : (scene.build.run ∅).2.size ≤ UInt32.size)
    (hsize' : (scene'.build.run ∅).2.size ≤ UInt32.size)
    (h : ofScene scene options = .ok kernel) (h' : ofScene scene' options' = .ok kernel')
    (hcamera : scene'.camera = scene.camera) (hair : scene'.air = scene.air) :
    frameFunction kernel.program.nodes kernel.program.frame =
      frameFunction kernel'.program.nodes kernel'.program.frame := by
  obtain ⟨program, hprogram, rfl⟩ := ofScene_eq_ok_iff.1 h
  obtain ⟨program', hprogram', rfl⟩ := ofScene_eq_ok_iff.1 h'
  obtain ⟨-, hroots⟩ := Program.ofScene_eq_ok_iff.1 hprogram
  obtain ⟨-, hroots'⟩ := Program.ofScene_eq_ok_iff.1 hprogram'
  obtain ⟨hw, hdescribes, -⟩ := Scene.build_describes hscene (.inl hsize)
  obtain ⟨hw', hdescribes', -⟩ := Scene.build_describes hscene' (.inl hsize')
  rw [Scene.result_assemble] at hdescribes hdescribes'
  obtain ⟨-, -, -, horder, hnodes, hc, ha, -⟩ := Program.ofRoots_eq_ok_iff.1 hroots
  obtain ⟨-, -, -, horder', hnodes', hc', ha', -⟩ := Program.ofRoots_eq_ok_iff.1 hroots'
  have hsameCamera := hdescribes.same_camera hdescribes' (by simp only [hcamera])
  have hsameAir := hdescribes.same_air hdescribes' (by simp only [hair])
  obtain ⟨order, horder₁, hsameOrder⟩ :=
    Program.arrange_alike hw hw' (List.rel_append hsameCamera hsameAir) horder
  cases horder₁.symm.trans horder'
  rw [← hc, ← hc'] at hsameCamera
  rw [← ha, ← ha'] at hsameAir
  change frameFunction program.nodes program.frame = frameFunction program'.nodes program'.frame
  rw [hnodes, hnodes']
  exact frameFunction_eq_of_same hw hw' hsameOrder hsameCamera hsameAir

/-- Compilation goes part by part.

A scene that captures no nodes, and whose nodes have a handle each, compiles exactly if it does with
its entities listed in another order, and the kernels then agree in their sources and hashes.  In any
two such scenes that compile, an entity that they share has the same functions for distance, normal
and material, provided that normals are taken in the same way; and the function of the frame is the
same if the camera and the air are. -/
theorem ofScene_compositional :
    (∀ {scene scene' : Scene} (options : Options Word), scene.Closed →
      (scene.build.run ∅).2.size ≤ UInt32.size → scene'.entities.Perm scene.entities →
      scene'.camera = scene.camera → scene'.air = scene.air →
      ((∃ kernel, ofScene scene options = .ok kernel) ↔
        ∃ kernel', ofScene scene' options = .ok kernel') ∧
      ∀ kernel kernel', ofScene scene options = .ok kernel →
        ofScene scene' options = .ok kernel' →
        kernel.source = kernel'.source ∧ kernel.hash = kernel'.hash) ∧
    ∀ {scene scene' : Scene} {options options' : Options Word} {kernel kernel' : Kernel},
      scene.Closed → scene'.Closed → (scene.build.run ∅).2.size ≤ UInt32.size →
      (scene'.build.run ∅).2.size ≤ UInt32.size → ofScene scene options = .ok kernel →
      ofScene scene' options' = .ok kernel' →
      (options.cheapNormals = options'.cheapNormals →
        ∀ entity ∈ scene.entities, entity ∈ scene'.entities →
        ∃ e e', kernel.program.entity? entity.id.raw = some e ∧
          kernel'.program.entity? entity.id.raw = some e' ∧
          kernel.Emits (entityFunctions kernel.program e) ∧
          kernel'.Emits (entityFunctions kernel'.program e') ∧
          entityFunctions kernel.program e = entityFunctions kernel'.program e') ∧
      (scene'.camera = scene.camera → scene'.air = scene.air →
        kernel.Emits [frameFunction kernel.program.nodes kernel.program.frame] ∧
        kernel'.Emits [frameFunction kernel'.program.nodes kernel'.program.frame] ∧
        frameFunction kernel.program.nodes kernel.program.frame =
          frameFunction kernel'.program.nodes kernel'.program.frame) := by
  constructor
  · intro scene scene' options hscene hsize hperm hcamera hair
    have hscene' := hscene.of_perm hperm hcamera hair
    have hroom' := Scene.room_of_same_made hscene hsize (Scene.mem_made_of_perm hperm hcamera hair)
    have hforth {kernel : Kernel} (h : ofScene scene options = .ok kernel) :=
      ofScene_of_perm hscene hscene' (.inl hsize) hroom' hperm hcamera hair h
    constructor
    · constructor
      · rintro ⟨kernel, h⟩
        obtain ⟨kernel', h', -⟩ := hforth h
        exact ⟨kernel', h'⟩
      · rintro ⟨kernel', h'⟩
        obtain ⟨kernel, h, -⟩ := ofScene_of_perm hscene' hscene hroom' (.inl hsize) hperm.symm
          hcamera.symm hair.symm h'
        exact ⟨kernel, h⟩
    · intro kernel kernel' h h'
      obtain ⟨kernel₁, h₁, hsource⟩ := hforth h
      cases h₁.symm.trans h'
      exact ⟨hsource, hash_eq_of_source_eq h h' hsource⟩
  · intro scene scene' options options' kernel kernel' hscene hscene' hsize hsize' h h'
    constructor
    · intro hnormals entity hentity hentity'
      exact entityFunctions_eq hscene hscene' hsize hsize' h h' hnormals hentity hentity'
    · intro hcamera hair
      obtain ⟨program, -, rfl⟩ := ofScene_eq_ok_iff.1 h
      obtain ⟨program', -, rfl⟩ := ofScene_eq_ok_iff.1 h'
      exact ⟨emits_frameFunction program, emits_frameFunction program',
        frameFunction_eq hscene hscene' hsize hsize' h h' hcamera hair⟩

/-- Two entities on a stage, and one of them alone. -/
theorem ofScene_compositional_stage :
    ∃ kernel kernel' kernel₁, ofScene (stage [ball, ground]) .standard = .ok kernel ∧
      ofScene (stage [ground, ball]) .standard = .ok kernel' ∧
      ofScene (stage [ball]) .standard = .ok kernel₁ ∧
      (kernel.source = kernel'.source ∧ kernel.hash = kernel'.hash) ∧
      (∃ e e₁, kernel.program.entity? 1 = some e ∧ kernel₁.program.entity? 1 = some e₁ ∧
        entityFunctions kernel.program e = entityFunctions kernel₁.program e₁) ∧
      frameFunction kernel.program.nodes kernel.program.frame =
        frameFunction kernel₁.program.nodes kernel₁.program.frame := by
  have hpair : [ball, ground] ⊆ [ball, ground] := List.Subset.refl _
  have hone : [ball] ⊆ [ball, ground] := by simp
  obtain ⟨hsize, program, hprogram⟩ := exists_program_pair
  obtain ⟨hsize₁, program₁, hprogram₁⟩ := exists_program_ball
  have hkernel := ofScene_eq_ok_iff.2 ⟨program, hprogram, rfl⟩
  have hkernel₁ := ofScene_eq_ok_iff.2 ⟨program₁, hprogram₁, rfl⟩
  obtain ⟨hiff, hsame⟩ := ofScene_compositional.1 .standard (stage_closed hpair) hsize
    (show (stage [ground, ball]).entities.Perm _ from List.Perm.swap _ _ _) rfl rfl
  obtain ⟨kernel', hkernel'⟩ := hiff.1 ⟨_, hkernel⟩
  obtain ⟨hentity, hframe⟩ := ofScene_compositional.2 (stage_closed hpair) (stage_closed hone) hsize
    hsize₁ hkernel hkernel₁
  obtain ⟨e, e₁, he, he₁, -, -, heq⟩ :=
    hentity rfl ball List.mem_cons_self List.mem_cons_self
  exact ⟨_, kernel', _, hkernel, hkernel', hkernel₁, hsame _ kernel' hkernel hkernel',
    ⟨e, e₁, he, he₁, heq⟩, (hframe rfl rfl).2.2⟩

end Kernel

end SphereTracer
