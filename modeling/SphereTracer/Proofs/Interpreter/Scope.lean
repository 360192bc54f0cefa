import SphereTracer.Proofs.Interpreter.Answers
import SphereTracer.Proofs.Program.Accepted

/-!
# What a procedure may read

The check of a procedure's scope looks at the nodes of its order one by one.  That is enough: every
variable that the evaluation reaches is a node of the order, so bindings that agree in the scope are
as good as each other.
-/

namespace SphereTracer

open Relation (ReflTransGen)
open SphereTracer.Graph

section
variable {S : Type} [Scalar S] {b b' : Bindings S}

/-! ## Values and variables -/

theorem Op.eval_congr_bindings {κ α : Type} {number : κ → S} {read : α → Vec3 S} {op : Op κ α}
    (h : ∀ v, op.var? = some v → b.get v = b'.get v) :
    op.eval number read b = op.eval number read b' := by
  cases op with
  | var v => exact h v rfl
  | _ => rfl

/-- The value of a tree depends on the variables in it and on no other. -/
theorem Tree.eval_congr {t : Tree} (h : ∀ v ∈ t.vars, b.get v = b'.get v) :
    t.eval b = t.eval b' := by
  induction t with
  | node op ih =>
    rw [Tree.vars_node, List.forall_mem_append] at h
    obtain ⟨hself, hbelow⟩ := h
    have hoperands : ∀ t ∈ op.operands, t.eval b = t.eval b' := fun t ht =>
      ih t ht fun v hv => hbelow v (List.mem_flatMap.2 ⟨t, ht, hv⟩)
    rw [eval_node, eval_node, Op.eval_congr hoperands]
    exact Op.eval_congr_bindings fun v hv => hself v (Option.mem_toList.2 hv)

/-! ## Orders -/

/-- The bindings agree on every variable that is a node of the order. -/
def Bindings.AgreeOn (nodes : Array Node) (order : Array Handle) (b b' : Bindings S) : Prop :=
  ∀ h ∈ order, ∀ v, Program.varOf nodes h = some v → b.get v = b'.get v

variable {nodes : Array Node} {order : Array Handle}

/-- One table, run under either bindings, comes out as one table. -/
theorem Slots.run_congr (hagree : b.AgreeOn nodes order b') (slots : Slots S) :
    slots.run nodes order b = slots.run nodes order b' := by
  rw [run, run, ← Array.foldl_toList, ← Array.foldl_toList]
  -- Step by step: what a node reads is bound alike, and the slots of its operands are the same.
  refine List.foldl_ext _ _ _ fun slots h hh => ?_
  unfold fill
  split
  · rfl
  · next node hnode =>
    dsimp only
    have hvar := Program.varOf_eq_of_getElem? hnode
    rw [Op.eval_congr_bindings fun v hv =>
      hagree h (Array.mem_toList_iff.1 hh) v (hvar.trans hv)]

theorem Graph.Evaluable.mem_of_path {roots : List Handle} (he : Evaluable nodes roots order)
    {a c : Handle} (ha : a ∈ order) (hpath : ReflTransGen (Uses nodes) a c) : c ∈ order := by
  induction hpath with
  | refl => exact ha
  | tail _ huse ih =>
    exact Array.mem_toList_iff.1 (he.operandsFirst.mem (Array.mem_toList_iff.2 ih) huse)

/-- Two tables, each run under bindings of its own, give the roots the same values. -/
theorem Graph.Evaluable.get_run_congr {roots : List Handle} (he : Evaluable nodes roots order)
    (hagree : b.AgreeOn nodes order b') {slots slots' : Slots S} (hsize : slots.size = nodes.size)
    (hsize' : slots'.size = nodes.size) {r : Handle} (hr : r ∈ roots) :
    (slots.run nodes order b).get r = (slots'.run nodes order b').get r := by
  have hmem := he.root_mem r hr
  obtain ⟨tree, htree⟩ := he.exists_trees
  have ht := htree r hmem
  rw [he.get_run hsize hmem ht, he.get_run hsize' hmem ht]
  refine Tree.eval_congr fun v hv => ?_
  obtain ⟨c, hpath, hc⟩ := ht.mem_vars_iff.1 hv
  exact hagree c (he.mem_of_path hmem hpath) v hc

/-! ## Programs -/

namespace Program

variable {program : Program}

theorem WellFormed.agreeOn_distance (hw : program.WellFormed) {e : EntityProgram}
    (he : e ∈ program.entities) (hposition : b.position = b'.position) (hmouse : b.mouse = b'.mouse)
    (htime : b.time = b'.time) : b.AgreeOn program.nodes e.distanceOrder b' := by
  intro h hh v hv
  obtain ⟨hnormal, hdirection⟩ := hw.distance_var e he h hh
  cases v with
  | position => exact hposition
  | normal => exact absurd hv hnormal
  | direction => exact absurd hv hdirection
  | mouse => exact congrArg (Vec2.extend · 0.0) hmouse
  | time => exact congrArg Vec3.splat htime

theorem WellFormed.agreeOn_frame (hw : program.WellFormed) (hmouse : b.mouse = b'.mouse)
    (htime : b.time = b'.time) : b.AgreeOn program.nodes program.frame.order b' := by
  intro h hh v hv
  obtain ⟨hposition, hnormal, hdirection⟩ := hw.frame_var h hh
  cases v with
  | position => exact absurd hv hposition
  | normal => exact absurd hv hnormal
  | direction => exact absurd hv hdirection
  | mouse => exact congrArg (Vec2.extend · 0.0) hmouse
  | time => exact congrArg Vec3.splat htime

end Program

end

namespace Interpreter

variable {scene : Scene} {options : Options Word} {program : Program}

/-- The procedures of a program do not depend on what is out of their scope.  Under bindings that
agree on position, pointer and time the distance procedure of an entity gives the same value, and
under bindings that agree on pointer and time the frame procedure gives the same camera and the same
air, whatever the slots held on either side.

So it does not matter what an interpreter binds a variable to that is out of scope: bound to any
other vectors, the distance and the frame come out the same, and so do the slots that are left. -/
theorem scope_noninterference (h : Program.ofScene scene options = .ok program) {S : Type}
    [Scalar S] :
    (∀ e ∈ program.entities, ∀ b b' : Bindings S, b.position = b'.position → b.mouse = b'.mouse →
      b.time = b'.time → ∀ slots slots' : Slots S, slots.size = program.nodes.size →
      slots'.size = program.nodes.size →
        (slots.run program.nodes e.distanceOrder b).get e.distance =
          (slots'.run program.nodes e.distanceOrder b').get e.distance) ∧
    (∀ b b' : Bindings S, b.mouse = b'.mouse → b.time = b'.time → ∀ slots slots' : Slots S,
      slots.size = program.nodes.size → slots'.size = program.nodes.size →
        program.frame.camera.map (slots.run program.nodes program.frame.order b).get =
            program.frame.camera.map (slots'.run program.nodes program.frame.order b').get ∧
          program.frame.air.map (slots.run program.nodes program.frame.order b).get =
            program.frame.air.map (slots'.run program.nodes program.frame.order b').get) ∧
    ∀ (environment : Environment S) (it : Interpreter S), it.Of program environment →
      (∀ e ∈ program.entities, ∀ p n d : Vec3 S,
        let after := it.run e.distanceOrder (bindings environment p n d)
        it.distance e p = ((after.slots.get e.distance).x, after)) ∧
      ∀ p n d : Vec3 S,
        let after := it.run program.frame.order (bindings environment p n d)
        it.frame = (.ofValues (program.frame.camera.map after.slots.get)
          (program.frame.air.map after.slots.get), after) := by
  obtain ⟨hw, -⟩ := Program.spec_of_ofScene h
  refine ⟨fun e he b b' hposition hmouse htime slots slots' hsize hsize' => ?_,
    fun b b' hmouse htime slots slots' hsize hsize' => ?_, fun environment it hit => ?_⟩
  · have hagree := hw.agreeOn_distance he hposition hmouse htime
    exact (hw.distance e he).get_run_congr hagree hsize hsize' List.mem_cons_self
  · have hget {a : Handle} (ha : a ∈ program.frame.camera.toList ++ program.frame.air.toList) :=
      hw.frame.get_run_congr (hw.agreeOn_frame hmouse htime) hsize hsize' ha
    exact ⟨Camera.map_congr fun a ha => hget (List.mem_append_left _ ha),
      Material.map_congr fun a ha => hget (List.mem_append_right _ ha)⟩
  · obtain ⟨program', environment', slots⟩ := it
    obtain ⟨-, rfl, rfl⟩ := hit
    refine ⟨fun e he p n d => ?_, fun p n d => ?_⟩
    · have hagree : (bindings environment' p .zero .zero).AgreeOn program'.nodes e.distanceOrder
          (bindings environment' p n d) := hw.agreeOn_distance he rfl rfl rfl
      simp only [distance, run, Slots.run_congr hagree]
    · have hagree : (bindings environment' .zero .zero .zero).AgreeOn program'.nodes
          program'.frame.order (bindings environment' p n d) := hw.agreeOn_frame rfl rfl
      simp only [frame, run, Slots.run_congr hagree]

open Kernel in
/-- The ground is measured in a table in which it has been shaded before, with a normal bound that
the measuring does not read, and the camera is evaluated away from the origin. -/
theorem scope_noninterference_stage :
    ∃ program e, Program.ofScene (stage [ball, ground]) .standard = .ok program ∧
      program.entity? 2 = some e ∧
      let here : Bindings Float32 := ⟨.one, .unitX, .unitY, ⟨0.0, 0.0⟩, 0.5⟩
      let elsewhere : Bindings Float32 := ⟨.zero, .zero, .zero, ⟨0.0, 0.0⟩, 0.5⟩
      let blank : Slots Float32 := .blank program.nodes.size
      let shaded := blank.run program.nodes e.materialOrder here
      (shaded.run program.nodes e.distanceOrder here).get e.distance =
          (blank.run program.nodes e.distanceOrder { elsewhere with position := .one }).get
            e.distance ∧
        program.frame.camera.map (shaded.run program.nodes program.frame.order here).get =
          program.frame.camera.map (blank.run program.nodes program.frame.order elsewhere).get := by
  obtain ⟨-, program, hprogram⟩ := exists_program_pair
  obtain ⟨hw, hof, -⟩ := Program.spec_of_ofScene hprogram
  obtain ⟨e, he⟩ := Option.isSome_iff_exists.1
    ((hw.isSome_entity?_iff hof).2 ⟨ground, by simp [stage], rfl⟩)
  obtain ⟨hdistance, hframe, -⟩ := scope_noninterference hprogram (S := Float32)
  refine ⟨program, e, hprogram, he, ?_⟩
  intro here elsewhere blank shaded
  have hblank : blank.size = program.nodes.size := Array.size_replicate
  have hshaded : shaded.size = program.nodes.size := (Slots.size_run _).trans hblank
  exact ⟨hdistance e (hw.entity?_iff.1 he).1 here { elsewhere with position := .one } rfl rfl rfl
    shaded blank hshaded hblank, (hframe here elsewhere rfl rfl shaded blank hshaded hblank).1⟩

end Interpreter

end SphereTracer
