import SphereTracer.Interpreter
import SphereTracer.Proofs.Expr.Evaluated
import SphereTracer.Proofs.Program.Lowered

/-!
# What interpreters answer

The slots of an interpreter hold what was asked before.  Every question runs an order first and then
reads slots of that order, so its answer is a value of trees, whatever the slots held.
-/

namespace SphereTracer

open SphereTracer.Graph

/-! ## Running an order -/

theorem Material.map_congr {α β : Type} {m : Material α} {f g : α → β}
    (h : ∀ a ∈ m.toList, f a = g a) : m.map f = m.map g := by
  simp only [toList, List.forall_mem_cons] at h
  obtain ⟨h₁, h₂, h₃, h₄, h₅, h₆, -⟩ := h
  rw [map, h₁, h₂, h₃, h₄, h₅, h₆, map]

theorem Camera.map_congr {α β : Type} {c : Camera α} {f g : α → β}
    (h : ∀ a ∈ c.toList, f a = g a) : c.map f = c.map g := by
  simp only [toList, List.forall_mem_cons] at h
  obtain ⟨h₁, h₂, h₃, h₄, h₅, h₆, -⟩ := h
  rw [map, h₁, h₂, h₃, h₄, h₅, h₆, map]

theorem Graph.OperandsFirst.denotes {nodes : Array Node} {l : List Handle}
    (hl : OperandsFirst nodes l) (hlt : ∀ h ∈ l, h.index < nodes.size) :
    ∀ h ∈ l, ∃ t, Denotes nodes h t := by
  intro h hh
  induction hn : l.idxOf h using Nat.strongRecOn generalizing h with
  | ind n ih =>
    obtain ⟨node, hnode⟩ : ∃ node, nodes[h.index]? = some node :=
      ⟨_, Array.getElem?_eq_getElem (hlt h hh)⟩
    have hoperands : ∀ a ∈ node.op.operands, ∃ t, Denotes nodes a t := by
      intro a ha
      have huse : Uses nodes h a := (uses_iff hnode).2 ha
      exact ih _ (hn ▸ hl.idxOf_lt hh huse) a (hl.mem hh huse) rfl
    exact Denotes.of_operands hnode hoperands

theorem Graph.Evaluable.exists_trees {nodes : Array Node} {roots : List Handle}
    {order : Array Handle} (he : Evaluable nodes roots order) :
    ∃ tree : Handle → Tree, ∀ h ∈ order, Denotes nodes h (tree h) := by
  have hdenotes := he.operandsFirst.denotes fun h hh => he.index_lt h (Array.mem_toList_iff.1 hh)
  choose! tree htree using hdenotes
  exact ⟨tree, fun h hh => htree h (Array.mem_toList_iff.2 hh)⟩

section
variable {S : Type} [Scalar S] {nodes : Array Node} {bindings : Bindings S} {slots : Slots S}

namespace Slots

theorem getElem?_fill {h : Handle} {i : Nat} (hi : h.index ≠ i) :
    (fill nodes bindings slots h)[i]? = slots[i]? := by
  unfold fill
  split
  · rfl
  · exact Array.getElem?_setIfInBounds_ne hi

theorem size_run (order : Array Handle) : (run nodes order bindings slots).size = slots.size := by
  rw [run, ← Array.foldl_toList, size_foldl_fill]

theorem getElem?_run {order : Array Handle} {i : Nat} (hi : ∀ h ∈ order, h.index ≠ i) :
    (run nodes order bindings slots)[i]? = slots[i]? := by
  rw [run, ← Array.foldl_toList]
  simp only [← Array.mem_toList_iff] at hi
  generalize order.toList = l at hi
  induction l generalizing slots with
  | nil => rfl
  | cons h rest ih =>
    rw [List.forall_mem_cons] at hi
    rw [List.foldl_cons, ih hi.2, getElem?_fill hi.1]

end Slots

/-- Whatever a table held, once an order has been run its slots have the values of their trees. -/
theorem Graph.Evaluable.get_run {roots : List Handle} {order : Array Handle}
    (he : Evaluable nodes roots order) (hsize : slots.size = nodes.size) {h : Handle}
    (hh : h ∈ order) {t : Tree} (ht : Denotes nodes h t) :
    (slots.run nodes order bindings).get h = t.eval bindings := by
  refine Slots.get_run hsize he.operandsFirst ?_ (Array.mem_toList_iff.2 hh) ht
  exact he.operandsFirst.denotes fun a ha => he.index_lt a (Array.mem_toList_iff.1 ha)

end

namespace Interpreter

/-! ## Questions and answers -/

section
variable {S α β ι : Type}

/-- The interpreter serves the program in the environment, with a slot for each node. -/
structure Of (program : Program) (environment : Environment S) (it : Interpreter S) : Prop where
  size : it.slots.size = program.nodes.size
  program : it.program = program
  environment : it.environment = environment

/-- Every interpreter of the program in the environment gives the answer, and remains one. -/
def Gives (program : Program) (environment : Environment S)
    (question : Interpreter S → α × Interpreter S) (answer : α) : Prop :=
  ∀ it : Interpreter S, it.Of program environment →
    (question it).1 = answer ∧ (question it).2.Of program environment

namespace Gives

variable {program : Program} {environment : Environment S}

theorem pure (a : α) : Gives program environment (fun it => (a, it)) a :=
  fun _ h => ⟨rfl, h⟩

theorem bind {question : Interpreter S → α × Interpreter S} {a : α} {b : β}
    (next : α → Interpreter S → β × Interpreter S) (h : Gives program environment question a)
    (hnext : Gives program environment (next a) b) :
    Gives program environment (fun it => next (question it).1 (question it).2) b := by
  intro it hit
  obtain ⟨hanswer, hafter⟩ := h it hit
  subst hanswer
  exact hnext _ hafter

theorem map {question : Interpreter S → α × Interpreter S} {a : α}
    (h : Gives program environment question a) (f : α → β) :
    Gives program environment (fun it => (f (question it).1, (question it).2)) (f a) :=
  h.bind (fun a it => (f a, it)) (.pure _)

/-- A question for every member of a list, each with what the answers so far have come to. -/
theorem foldl {step : α × Interpreter S → ι → α × Interpreter S} {answer : α → ι → α} {l : List ι}
    (h : ∀ i ∈ l, ∀ a, Gives program environment (fun it => step (a, it) i) (answer a i)) (a : α) :
    Gives program environment (fun it => l.foldl step (a, it)) (l.foldl answer a) := by
  -- What the answers have come to grows with each step; the interpreter remains one of the program.
  induction l generalizing a with
  | nil => exact pure a
  | cons i rest ih =>
    rw [List.forall_mem_cons] at h
    exact bind (fun b it => rest.foldl step (b, it)) (h.1 a) (ih h.2 _)

end Gives

end

variable {S : Type} [Scalar S] {program : Program} {environment : Environment S}

theorem of_new (program : Program) (environment : Environment S) :
    (new program environment).Of program environment :=
  ⟨Array.size_replicate, rfl, rfl⟩

theorem Of.run {it : Interpreter S} (h : it.Of program environment) (order : Array Handle)
    (b : Bindings S) : (it.run order b).Of program environment :=
  ⟨(Slots.size_run order).trans h.size, h.program, h.environment⟩

theorem Of.get_run {it : Interpreter S} (h : it.Of program environment) {roots : List Handle}
    {order : Array Handle} (he : Evaluable program.nodes roots order) (b : Bindings S) {a : Handle}
    (ha : a ∈ roots) {t : Tree} (ht : Denotes program.nodes a t) :
    (it.run order b).slots.get a = t.eval b := by
  obtain ⟨hsize, rfl, -⟩ := h
  exact he.get_run hsize (he.root_mem a ha) ht

theorem gives_distance {e : EntityProgram}
    (he : Evaluable program.nodes [e.distance] e.distanceOrder) {t : Tree}
    (ht : Denotes program.nodes e.distance t) (p : Vec3 S) :
    Gives program environment (·.distance e p) (t.eval (bindings environment p .zero .zero)).x := by
  intro it h
  refine ⟨congrArg Vec3.x ?_, h.run _ _⟩
  rw [← h.environment]
  exact h.get_run he _ List.mem_cons_self ht

theorem gives_closest {p : Vec3 S} {value : EntityProgram → S}
    (hvalue : ∀ e ∈ program.entities, Gives program environment (·.distance e p) (value e)) :
    Gives program environment (·.closest p) (program.entities.toList.foldl
      (fun best e => best.offer e.id.raw (Scalar.abs (value e))) Closest.none) := by
  intro it h
  have hstep : ∀ e ∈ program.entities.toList, ∀ best : Closest S, Gives program environment
      (fun it => (best.offer e.id.raw (Scalar.abs (it.distance e p).1), (it.distance e p).2))
      (best.offer e.id.raw (Scalar.abs (value e))) := fun e he best =>
    (hvalue e (Array.mem_toList_iff.1 he)).map fun d => best.offer e.id.raw (Scalar.abs d)
  beta_reduce
  rw [closest, h.program, ← Array.foldl_toList]
  exact Gives.foldl hstep Closest.none it h

/-- The gradient of a field from four taps or from central differences, in steps of `h`. -/
def gradientOf (cheap : Bool) (field : Vec3 S → S) (h : S) (p : Vec3 S) : Vec3 S :=
  if cheap then
    cheapTaps.foldl (fun gradient tap => gradient + .scale (field (p + .scale h tap)) tap) Vec3.zero
  else
    [Vec3.unitX, Vec3.unitY, Vec3.unitZ].foldl (fun gradient axis =>
      gradient + .scale (field (p + .scale h axis) - field (p - .scale h axis)) axis) Vec3.zero

section
variable {e : EntityProgram} {field : Vec3 S → S}

theorem gives_cheapGradient
    (hfield : ∀ p, Gives program environment (·.distance e p) (field p)) (h : S) (p : Vec3 S) :
    Gives program environment (·.cheapGradient e h p) (gradientOf true field h p) := by
  intro it hit
  beta_reduce
  rw [cheapGradient, gradientOf, if_pos rfl]
  refine Gives.foldl (fun tap _ gradient it hit => ?_) Vec3.zero it hit
  obtain ⟨hanswer, hafter⟩ := hfield (p + .scale h tap) it hit
  exact ⟨congrArg (gradient + .scale · tap) hanswer, hafter⟩

theorem gives_centralGradient
    (hfield : ∀ p, Gives program environment (·.distance e p) (field p)) (h : S) (p : Vec3 S) :
    Gives program environment (·.centralGradient e h p) (gradientOf false field h p) := by
  intro it hit
  beta_reduce
  rw [centralGradient, gradientOf, if_neg Bool.false_ne_true]
  refine Gives.foldl (fun axis _ gradient it hit => ?_) Vec3.zero it hit
  obtain ⟨hahead, hit⟩ := hfield (p + .scale h axis) it hit
  obtain ⟨hbehind, hafter⟩ := hfield (p - .scale h axis) _ hit
  exact ⟨congrArg₂ (fun ahead behind => gradient + .scale (ahead - behind) axis) hahead hbehind,
    hafter⟩

/-- The normal of an entity is the unit gradient of its distance. -/
theorem gives_normal {id : UInt32} (hid : program.entity? id = some e)
    (hfield : ∀ p, Gives program environment (·.distance e p) (field p)) (p : Vec3 S) :
    Gives program environment (·.normal id p) (gradientOf program.options.cheapNormals field
      (Scalar.ofWord program.options.normalEpsilon) p).normalize := by
  intro it h
  beta_reduce
  rw [normal, h.program, hid]
  cases hcheap : program.options.cheapNormals with
  | true =>
    exact (gives_cheapGradient hfield _ p).map Vec3.normalize it h
  | false =>
    exact (gives_centralGradient hfield _ p).map Vec3.normalize it h

end

theorem gives_normal_of_unknown {id : UInt32} (hid : program.entity? id = none) (p : Vec3 S) :
    Gives program environment (·.normal id p) .zero := by
  intro it h
  beta_reduce
  rw [normal, h.program, hid]
  exact ⟨rfl, h⟩

/-- The material of an entity, field by field from the values of its trees. -/
theorem gives_material {id : UInt32} {e : EntityProgram} (hid : program.entity? id = some e)
    (he : Evaluable program.nodes e.material.toList e.materialOrder) {tree : Handle → Tree}
    (htree : ∀ a ∈ e.material.toList, Denotes program.nodes a (tree a)) (p n d : Vec3 S) :
    Gives program environment (·.material id p n d)
      (.ofMaterial (e.material.map fun a => (tree a).eval (bindings environment p n d))) := by
  intro it h
  beta_reduce
  rw [material, h.program, hid, h.environment]
  refine ⟨congrArg Surface.ofMaterial (Material.map_congr fun a ha => ?_), h.run _ _⟩
  exact h.get_run he _ ha (htree a ha)

theorem gives_material_of_unknown {id : UInt32} (hid : program.entity? id = none)
    (p n d : Vec3 S) : Gives program environment (·.material id p n d) .absorber := by
  intro it h
  beta_reduce
  rw [material, h.program, hid]
  exact ⟨rfl, h⟩

/-- The camera and the air, field by field from the values of their trees. -/
theorem gives_frame
    (hframe : Evaluable program.nodes (program.frame.camera.toList ++ program.frame.air.toList)
      program.frame.order) {tree : Handle → Tree}
    (htree : ∀ a ∈ program.frame.camera.toList ++ program.frame.air.toList,
      Denotes program.nodes a (tree a)) :
    Gives program environment (·.frame)
      (.ofValues
        (program.frame.camera.map fun a => (tree a).eval (bindings environment .zero .zero .zero))
        (program.frame.air.map fun a =>
          (tree a).eval (bindings environment .zero .zero .zero))) := by
  intro it h
  beta_reduce
  rw [frame, h.program, h.environment]
  have hget {a : Handle} (ha : a ∈ program.frame.camera.toList ++ program.frame.air.toList) :=
    h.get_run hframe (bindings environment .zero .zero .zero) ha (htree a ha)
  refine ⟨?_, h.run _ _⟩
  exact congrArg₂ Frame.ofValues (Camera.map_congr fun a ha => hget (List.mem_append_left _ ha))
    (Material.map_congr fun a ha => hget (List.mem_append_right _ ha))

end Interpreter

end SphereTracer
