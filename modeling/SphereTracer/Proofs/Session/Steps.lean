import Mathlib.Logic.Relation
import SphereTracer.Proofs.Expr.Repeated
import SphereTracer.Proofs.Shape.Assembled

/-!
# Sessions

The history of an arena: one call after the other, each over handles that earlier calls have
returned.  Whatever has been called in whatever order, the arena is founded and what it holds stays;
and as long as every node has a handle of its own, the arena is well-formed.
-/

namespace SphereTracer

open Relation (ReflTransGen)

/-- A use of an arena: an operation, or a builder of one or several. -/
inductive Call (α : Type) where
  | intern (op : Op Word α)
  | var (v : Var)
  | constant (value : Vec3 Word)
  | splat (value : Word)
  | unary (f : Unary) (a : α)
  | binary (f : Binary) (a b : α)
  | component (a : α) (axis : Axis)
  | compose (x y z : α)
  | clamp (value low high : α)
  | mix (a b t : α)
  | select (lhs rhs below otherwise : α)
  | rotate (point axis angle : α)
  | random (seed : α)
  | minComponent (a : α)
  | maxComponent (a : α)

namespace Call

variable {α β : Type}

def operands : Call α → List α
  | intern op => op.operands
  | var _ => []
  | constant _ => []
  | splat _ => []
  | unary _ a => [a]
  | binary _ a b => [a, b]
  | component a _ => [a]
  | compose x y z => [x, y, z]
  | clamp a b c => [a, b, c]
  | mix a b c => [a, b, c]
  | select a b c d => [a, b, c, d]
  | rotate a b c => [a, b, c]
  | random a => [a]
  | minComponent a => [a]
  | maxComponent a => [a]

/-- The same call over other operands. -/
def map (f : α → β) : Call α → Call β
  | intern op => intern (op.map f)
  | var v => var v
  | constant c => constant c
  | splat w => splat w
  | unary g a => unary g (f a)
  | binary g a b => binary g (f a) (f b)
  | component a i => component (f a) i
  | compose x y z => compose (f x) (f y) (f z)
  | clamp a b c => clamp (f a) (f b) (f c)
  | mix a b c => mix (f a) (f b) (f c)
  | select a b c d => select (f a) (f b) (f c) (f d)
  | rotate a b c => rotate (f a) (f b) (f c)
  | random a => random (f a)
  | minComponent a => minComponent (f a)
  | maxComponent a => maxComponent (f a)

theorem operands_map (f : α → β) (c : Call α) : (c.map f).operands = c.operands.map f := by
  cases c with
  | intern op => exact Op.operands_map f op
  | _ => rfl

@[simp] theorem map_id (c : Call α) : c.map (fun a => a) = c := by
  cases c with
  | intern op => rw [map, Op.map_id]
  | _ => rfl

@[simp] theorem map_map {γ : Type} (f : α → β) (g : β → γ) (c : Call α) :
    (c.map f).map g = c.map (fun a => g (f a)) := by
  cases c with
  | intern op => rw [map, map, Op.map_map, map]
  | _ => rfl

/-- Carries a call out. -/
def perform {M : Type → Type} [Monad M] [Builder M α] : Call α → M α
  | intern op => Build.op op
  | var v => Build.var v
  | constant c => Build.constant c
  | splat w => Build.splat w
  | unary f a => Build.unary f a
  | binary f a b => Build.binary f a b
  | component a axis => Build.component a axis
  | compose x y z => Build.compose x y z
  | clamp a b c => Build.clamp a b c
  | mix a b c => Build.mix a b c
  | select a b c d => Build.select a b c d
  | rotate a b c => Build.rotate a b c
  | random a => Build.random a
  | minComponent a => Build.minComponent a
  | maxComponent a => Build.maxComponent a

/-- A call over known operands is carried out as its transcript says. -/
theorem perform_related (sim : Simulation) {known : Reading} {c : Call (Handle × Tree)}
    (hc : ∀ a ∈ c.operands, known a.1 a.2) :
    sim.Rel known (c.map Prod.fst).perform (c.map Prod.snd).perform id := by
  cases c with
  | intern op => exact sim.op op hc
  | var v => exact sim.var v
  | constant value => exact sim.constant value
  | splat value => exact sim.splat value
  | unary f a => exact sim.unary f (hc a (by simp [operands]))
  | binary f a b => exact sim.binary f (hc a (by simp [operands])) (hc b (by simp [operands]))
  | component a axis => exact sim.component axis (hc a (by simp [operands]))
  | compose x y z =>
    simp only [operands, List.forall_mem_cons] at hc
    exact sim.compose hc.1 hc.2.1 hc.2.2.1
  | clamp a b c =>
    simp only [operands, List.forall_mem_cons] at hc
    exact sim.clamp hc.1 hc.2.1 hc.2.2.1
  | mix a b c =>
    simp only [operands, List.forall_mem_cons] at hc
    exact sim.mix hc.1 hc.2.1 hc.2.2.1
  | select a b c d =>
    simp only [operands, List.forall_mem_cons] at hc
    exact sim.select hc.1 hc.2.1 hc.2.2.1 hc.2.2.2.1
  | rotate a b c =>
    simp only [operands, List.forall_mem_cons] at hc
    exact sim.rotate hc.1 hc.2.1 hc.2.2.1
  | random a => exact sim.random (hc a (by simp [operands]))
  | minComponent a =>
    exact sim.weaken (known_singleton (hc a (by simp [operands])))
      (sim.lanes .min List.mem_cons_self)
  | maxComponent a =>
    exact sim.weaken (known_singleton (hc a (by simp [operands])))
      (sim.lanes .max List.mem_cons_self)

/-- No call makes more than the five operations of a least or greatest lane. -/
theorem size_perform_le (c : Call Handle) (arena : Arena) :
    ((c.perform : Build Handle).run arena).2.size ≤ arena.size + 5 := by
  have hrel := @perform_related .counted (fun _ _ => True) (c.map fun a => (a, default))
    fun _ _ => trivial
  rw [map_map, map_id] at hrel
  have hlength : (((c.map fun a => (a, (default : Tree))).map Prod.snd).perform :
      Transcript Tree).made.length ≤ 5 := by
    cases c <;> exact Nat.le_of_ble_eq_true rfl
  exact Nat.le_trans (hrel.1 arena) (Nat.add_le_add_left hlength _)

end Call

/-- An arena in use, and the handles that it has returned, the last one first. -/
structure Session where
  returned : List Handle
  arena : Arena

namespace Session

def start : Session := ⟨[], ∅⟩

/-- The session once a construction has been carried out. -/
def after (s : Session) (m : Build Handle) : Session :=
  ⟨(m.run s.arena).1 :: s.returned, (m.run s.arena).2⟩

/-- Operands, and the positions at which shapes are built, have been returned before. -/
inductive Step (s : Session) : Session → Prop where
  | call (c : Call Handle) (hc : ∀ a ∈ c.operands, a ∈ s.returned) : Step s (s.after c.perform)
  | shape {shape : Shape Word} (hshape : shape.Closed) {p : Handle} (hp : p ∈ s.returned) :
    Step s (s.after (shape.buildAt p))

/-- Any number of steps, from nothing. -/
def Reached (s : Session) : Prop := ReflTransGen Step start s

variable {s next later : Session}

/-- What a step can do: it carries out a construction that relies on the returned handles and on
nothing else, and so follows a transcript in the sense of every simulation. -/
theorem Step.exists_build (h : Step s next) : ∃ m, next = s.after m ∧
    ∀ tree : Handle → Tree, ∃ m' : Transcript Tree, ∀ sim : Simulation,
      sim.Rel (fun a t => a ∈ s.returned ∧ t = tree a) m m' id := by
  cases h with
  | call c hc =>
    refine ⟨c.perform, rfl, fun tree => ⟨(c.map tree).perform, fun sim => ?_⟩⟩
    have hoperands : ∀ b ∈ (c.map fun a => (a, tree a)).operands,
        b.1 ∈ s.returned ∧ b.2 = tree b.1 := by
      rw [Call.operands_map]
      intro b hb
      obtain ⟨a, ha, rfl⟩ := List.mem_map.1 hb
      exact ⟨hc a ha, rfl⟩
    have hrel := @Call.perform_related sim (fun a t => a ∈ s.returned ∧ t = tree a) _ hoperands
    rw [Call.map_map, Call.map_map, Call.map_id] at hrel
    exact hrel
  | @shape shape hshape p hp =>
    refine ⟨shape.buildAt p, rfl, fun tree => ⟨shape.assemble (.outer (tree p)), fun sim => ?_⟩⟩
    have hpt : Known [(p, tree p)] p (tree p) := List.mem_cons_self
    exact sim.weaken (known_singleton ⟨hp, rfl⟩) (Shape.assemble_related sim hshape hpt hpt)

/-! ## What later steps leave alone -/

structure Kept (s later : Session) : Prop where
  nodes : s.arena.nodes.toList <+: later.arena.nodes.toList
  interned : s.arena.Within later.arena
  returned : s.returned ⊆ later.returned

theorem Kept.refl (s : Session) : s.Kept s := ⟨List.prefix_rfl, .refl _, List.Subset.refl _⟩

theorem Kept.trans (h : s.Kept next) (h' : next.Kept later) : s.Kept later :=
  ⟨h.nodes.trans h'.nodes, h.interned.trans h'.interned, List.Subset.trans h.returned h'.returned⟩

theorem Step.kept (h : Step s next) : s.Kept next := by
  obtain ⟨m, rfl, hm⟩ := h.exists_build
  obtain ⟨m', hrel⟩ := hm default
  exact ⟨m.grows _, (hrel .repeatable).1.within _, List.subset_cons_self _ _⟩

theorem kept_of_steps (h : ReflTransGen Step s later) : s.Kept later := by
  induction h with
  | refl => exact .refl s
  | tail _ hstep ih => exact ih.trans hstep.kept

/-! ## Invariants -/

/-- The arena is founded, and returned handles lead to nodes. -/
structure Sound (s : Session) : Prop where
  founded : s.arena.Founded
  returned_lt : ∀ a ∈ s.returned, a.index < s.arena.nodes.size

theorem sound_start : start.Sound := ⟨Arena.founded_empty, fun _ ha => absurd ha List.not_mem_nil⟩

theorem Step.sound (h : Step s next) (hs : s.Sound) : next.Sound := by
  have hkept := h.kept
  obtain ⟨m, rfl, hm⟩ := h.exists_build
  obtain ⟨m', hrel⟩ := hm default
  obtain ⟨hf, hlt⟩ := hrel .founded s.arena hs.founded fun a _ ha => hs.returned_lt a ha.1
  refine ⟨hf, fun a ha => ?_⟩
  rcases List.mem_cons.1 ha with rfl | hold
  · exact hlt
  · exact Nat.lt_of_lt_of_le (hs.returned_lt a hold) hkept.nodes.length_le

theorem sound_of_steps (h : ReflTransGen Step s later) (hs : s.Sound) : later.Sound := by
  induction h with
  | refl => exact hs
  | tail _ hstep ih => exact hstep.sound ih

theorem Reached.sound (h : Reached s) : s.Sound := sound_of_steps h sound_start

theorem Step.wellFormed (h : Step s next) (hs : s.Sound) (hw : s.arena.WellFormed)
    (hsize : next.arena.size ≤ UInt32.size) : next.arena.WellFormed := by
  obtain ⟨m, rfl, hm⟩ := h.exists_build
  have hdenotes : ∀ a : Handle, ∃ t, a ∈ s.returned → Denotes s.arena.nodes a t := by
    intro a
    by_cases ha : a ∈ s.returned
    · obtain ⟨t, ht⟩ := hs.founded.denotes (hs.returned_lt a ha)
      exact ⟨t, fun _ => ht⟩
    · exact ⟨default, fun hmem => absurd hmem ha⟩
  choose tree htree using hdenotes
  obtain ⟨m', hrel⟩ := hm tree
  refine (hrel .inRoom s.arena hw ?_ (.inl hsize)).1
  rintro a _ ⟨ha, rfl⟩
  exact htree a ha

theorem Reached.wellFormed (h : Reached s) (hsize : s.arena.size ≤ UInt32.size) :
    s.arena.WellFormed := by
  induction h with
  | refl => exact Arena.wellFormed_empty
  | @tail mid last hmid hstep ih =>
    have hle : mid.arena.size ≤ last.arena.size := hstep.kept.nodes.length_le
    exact hstep.wellFormed (Reached.sound hmid) (ih (Nat.le_trans hle hsize)) hsize

end Session

end SphereTracer
