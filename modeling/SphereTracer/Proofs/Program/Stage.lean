import SphereTracer.Proofs.Program.Accepted

/-!
# Small scenes

A stage: a ball, a ground, or both, under a plain camera; every constant is written once.  And the
scene of nothing but plain air.
-/

namespace SphereTracer

theorem Scene.size_le_of_few {scene : Scene} (hscene : scene.Closed)
    (hfew : scene.assemble.made.length ≤ 100) : (scene.build.run ∅).2.size ≤ UInt32.size := by
  have hhandles : 100 ≤ UInt32.size := by decide
  have hempty : (∅ : Arena).size = 0 := rfl
  have hsize := (assemble_related .counted hscene).1 ∅
  omega

/-- Such a scene has a program if its trees and its ids are in order. -/
theorem Program.exists_ofScene_of_few {scene : Scene} {options : Options Word}
    (hscene : scene.Closed) (hfew : scene.assemble.made.length ≤ 100)
    (hvalid : options.validate = .ok ())
    (hinj : ∀ s ∈ scene.assemble.made, ∀ t ∈ scene.assemble.made, s.hash = t.hash → s = t)
    (hfinite : ∀ t ∈ scene.assemble.made, t.op.Finite)
    (hids : (scene.assemble.result.entities.map (·.id)).Nodup)
    (hscope : ∀ e ∈ scene.assemble.result.entities, e.InScope)
    (hframe : scene.assemble.result.FrameInScope) :
    (scene.build.run ∅).2.size ≤ UInt32.size ∧ ∃ program, ofScene scene options = .ok program := by
  -- A flattening never has more than four entries pending for each tree, and one more.
  have hmax : 401 ≤ maxTraversal := by decide
  refine ⟨Scene.size_le_of_few hscene hfew, ?_⟩
  exact exists_ofScene_of_small hscene (by omega) hvalid hinj hfinite hids hscope hframe

/-- It is enough to list its trees once each, and to say in which places of the list it makes them. -/
theorem Program.exists_ofScene_of_places {scene : Scene} {options : Options Word}
    (hscene : scene.Closed) {trees : List Tree} (places : List (Fin trees.length))
    (hplaces : scene.assemble.made = places.map trees.get) (hfew : places.length ≤ 100)
    (hvalid : options.validate = .ok ()) (hhashes : (trees.map Tree.hash).Nodup)
    (hfinite : ∀ t ∈ trees, t.op.Finite)
    (hids : (scene.assemble.result.entities.map (·.id)).Nodup)
    (hscope : ∀ e ∈ scene.assemble.result.entities, e.InScope)
    (hframe : scene.assemble.result.FrameInScope) :
    (scene.build.run ∅).2.size ≤ UInt32.size ∧ ∃ program, ofScene scene options = .ok program := by
  have hmade : scene.assemble.made ⊆ trees := by
    rw [hplaces]
    intro t ht
    obtain ⟨i, -, rfl⟩ := List.mem_map.1 ht
    exact List.get_mem _ i
  have hlength : scene.assemble.made.length ≤ 100 := by
    rw [hplaces, List.length_map]
    exact hfew
  exact exists_ofScene_of_few hscene hlength hvalid
    (fun s hs t ht => List.inj_on_of_nodup_map hhashes (hmade hs) (hmade ht))
    (fun t ht => hfinite t (hmade ht)) hids hscope hframe

namespace Kernel

def swatch (tint : Word) : Material (Term Word) where
  transmittance := .constant ⟨tint, 0.0, 0.0⟩
  smoothness := .constant ⟨tint, 0.0, 1.0⟩
  refraction := .constant ⟨tint, 1.0, 0.0⟩
  scatter := .constant ⟨tint, 1.0, 1.0⟩
  color := .constant ⟨tint, 1.0, 2.0⟩
  emissivity := .constant ⟨tint, 2.0, 1.0⟩

def ball : Entity := ⟨.first, .sphere 0.5, swatch 0.25⟩

def ground : Entity := ⟨⟨2, by decide⟩, .plane (.constant ⟨0.0, 1.0, 0.0⟩) 1.0, swatch 0.75⟩

def stage (entities : List Entity) : Scene where
  entities := entities
  camera := ⟨.constant ⟨0.0, 0.0, -1.0⟩, 0.0, .constant ⟨0.0, 2.0, 0.0⟩, 0.125, 2.0, 4.0⟩
  air := swatch 0.125

theorem swatch_closed (tint : Word) : (swatch tint).Closed :=
  Material.closed_iff.2 ⟨trivial, trivial, trivial, trivial, trivial, trivial⟩

theorem stage_closed {entities : List Entity} (hentities : entities ⊆ [ball, ground]) :
    (stage entities).Closed := by
  have hcamera : (stage entities).camera.Closed :=
    Camera.closed_iff.2 ⟨trivial, trivial, trivial, trivial, trivial, trivial⟩
  refine ⟨fun e he => ?_, hcamera, swatch_closed _⟩
  have hmem := hentities he
  simp only [List.mem_cons, List.not_mem_nil, or_false] at hmem
  rcases hmem with rfl | rfl
  · exact ⟨trivial, swatch_closed _⟩
  · exact ⟨⟨trivial, trivial⟩, swatch_closed _⟩

theorem exists_program_stage {entities : List Entity} (hentities : entities ⊆ [ball, ground])
    (hfew : (stage entities).assemble.made.length ≤ 100)
    (hhashes : ((stage entities).assemble.made.map Tree.hash).Nodup)
    (hfinite : ∀ t ∈ (stage entities).assemble.made, t.op.Finite)
    (hids : ((stage entities).assemble.result.entities.map (·.id)).Nodup)
    (hscope : ∀ e ∈ (stage entities).assemble.result.entities, e.InScope)
    (hframe : (stage entities).assemble.result.FrameInScope) :
    ((stage entities).build.run ∅).2.size ≤ UInt32.size ∧
      ∃ program, Program.ofScene (stage entities) .standard = .ok program := by
  have hvalid : Options.standard.validate = .ok () := by decide +kernel
  exact Program.exists_ofScene_of_few (stage_closed hentities) hfew hvalid
    (fun s hs t ht => List.inj_on_of_nodup_map hhashes hs ht) hfinite hids hscope hframe

theorem exists_program_ball : ((stage [ball]).build.run ∅).2.size ≤ UInt32.size ∧
    ∃ program, Program.ofScene (stage [ball]) .standard = .ok program :=
  exists_program_stage (by simp) (by decide +kernel) (by decide +kernel) (by decide) (by decide)
    (by decide) (by decide)

theorem exists_program_pair : ((stage [ball, ground]).build.run ∅).2.size ≤ UInt32.size ∧
    ∃ program, Program.ofScene (stage [ball, ground]) .standard = .ok program :=
  exists_program_stage (by simp) (by decide +kernel) (by decide +kernel) (by decide +kernel)
    (by decide +kernel) (by decide +kernel) (by decide +kernel)

/-- The same two, the ground first. -/
theorem exists_program_swapped : ((stage [ground, ball]).build.run ∅).2.size ≤ UInt32.size ∧
    ∃ program, Program.ofScene (stage [ground, ball]) .standard = .ok program :=
  exists_program_stage (by simp) (by decide +kernel) (by decide +kernel) (by decide +kernel)
    (by decide +kernel) (by decide +kernel) (by decide +kernel)

end Kernel

/-! ## Plain air -/

theorem Scene.empty_closed : Scene.empty.Closed where
  entities := nofun
  camera := Camera.closed_iff.2 ⟨trivial, trivial, trivial, trivial, trivial, trivial⟩
  air := Material.closed_iff.2 ⟨trivial, trivial, trivial, trivial, trivial, trivial⟩

/-- The trees that plain air and the standard camera are made of, each once. -/
def Scene.emptyTrees : List Tree :=
  [.node (.var .position), .node (.constant ⟨0.0, 0.0, -1.0⟩), .node (.constant (.splat 0.0)),
    .node (.constant (Axis.unit .y)),
    .node (.constant (.splat (.ofFloat (Scalar.radians 45.0)))),
    .node (.constant (.splat 1.0)), .node (.constant (.splat maxDistance))]

theorem Program.exists_ofScene_empty {options : Options Word}
    (hvalid : options.validate = .ok ()) :
    (Scene.empty.build.run ∅).2.size ≤ UInt32.size ∧
      ∃ program, ofScene .empty options = .ok program := by
  have hplaces : Scene.empty.assemble.made =
      ([0, 1, 2, 3, 4, 2, 5, 2, 2, 5, 6, 5, 2] : List (Fin 7)).map Scene.emptyTrees.get := rfl
  exact exists_ofScene_of_places Scene.empty_closed _ hplaces (by decide) hvalid
    (by decide +kernel) (by decide +kernel) (by decide +kernel) (by decide +kernel)
    (by decide +kernel)

end SphereTracer
