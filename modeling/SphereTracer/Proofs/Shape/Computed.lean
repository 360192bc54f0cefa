import SphereTracer.Proofs.Shape.Alone

/-!
# Shapes computed at once

A construction may be carried out on values instead of nodes.  The operations are the same, in the same
order and with the same constants, so the value that comes out is the one that the graph has, in
binary32 arithmetic as well as in exact arithmetic.
-/

namespace SphereTracer

/-- A construction on values, where the variables have the values of `bindings`. -/
def Computed {S : Type} (_bindings : Bindings S) (α : Type) : Type := α

namespace Computed

variable {S : Type} {bindings : Bindings S} {α : Type}

instance : Monad (Computed bindings) := inferInstanceAs (Monad Id)

instance : LawfulMonad (Computed bindings) := inferInstanceAs (LawfulMonad Id)

instance [Scalar S] : Builder (Computed bindings) (Vec3 S) where
  op o := o.eval Scalar.ofWord id bindings
  captured _ := (default : Tree).eval bindings

theorem foldrM_eq (bindings : Bindings S) {ι : Type} (f : ι → α → Computed bindings α) (l : List ι) (x : α) :
    l.foldrM f x = l.foldr f x := by
  induction l with
  | nil => rfl
  | cons i rest ih =>
    rw [List.foldrM_cons, ih]
    rfl

end Computed

section
variable {S : Type} [Scalar S] (bindings : Bindings S)

def Term.computed (site : Site (Vec3 S)) (t : Term Word) : Vec3 S :=
  (t.assemble site : Computed bindings (Vec3 S))

def Shape.computed (site : Site (Vec3 S)) (shape : Shape Word) : Vec3 S :=
  (shape.assemble site : Computed bindings (Vec3 S))

/-- The values of a site. -/
def Site.eval (site : Site Tree) : Site (Vec3 S) :=
  ⟨site.point.eval bindings, site.cell.eval bindings⟩

end

open Build Transcript

section
variable {S : Type} [Scalar S] (bindings : Bindings S) (site : Site Tree)

theorem Term.eval_assemble_eq_computed (t : Term Word) :
    (t.assemble site : Transcript Tree).result.eval bindings =
      t.computed bindings (site.eval bindings) := by
  unfold computed
  induction t with
  | var v => exact eval_op bindings (.var v)
  | constant c => exact eval_op bindings (.constant c)
  | here => rfl
  | cell => rfl
  | captured h => rfl
  | random a ih =>
    simp only [assemble, result_bind, Build.random, eval_op, Op.eval, ih]
    rfl
  | _ =>
    simp only [assemble, result_bind, eval_op, eval_unary, eval_binary, eval_clamp, eval_mix,
      eval_select, eval_component, eval_compose, eval_rotate, eval_lanes, Op.eval, *]
    rfl

/-- The choices are folded from the last to the first. -/
theorem Shape.computed_choose (site : Site (Vec3 S)) (selector : Term Word) (n : ℕ)
    (shapes : Fin n → Shape Word) :
    (choose selector n shapes).computed bindings site =
      (List.finRange n).foldr (fun (i : Fin n) result =>
        if Scalar.lt (selector.computed bindings site).x
            (Scalar.ofWord (.ofFloat (choiceBound i n))) then
          (shapes i).computed bindings site
        else result) (.splat (Scalar.ofWord 0.0)) :=
  Computed.foldrM_eq bindings _ _ _

theorem Shape.eval_assemble_eq_computed (shape : Shape Word) :
    (shape.assemble site : Transcript Tree).result.eval bindings =
      shape.computed bindings (site.eval bindings) := by
  have hterm := Term.eval_assemble_eq_computed bindings
  induction shape generalizing site with
  | field distance => exact hterm site distance
  | choose selector n shapes ih =>
    rw [computed_choose, ← hterm]
    simp only [assemble, result_bind, result_foldrM]
    induction List.finRange n with
    | nil => exact eval_splat bindings 0.0
    | cons i rest ihrest =>
      rw [List.foldr_cons, List.foldr_cons, eval_select, ihrest, ih i, eval_splat]
      rfl
  | _ =>
    simp only [assemble, result_bind, Site.moved, Build.planar, Build.smoothMin, Build.smoothMax,
      Build.blend, Build.minComponent, Build.maxComponent, eval_op, eval_splat, eval_unary,
      eval_binary, eval_add, eval_sub, eval_mul, eval_div, eval_min, eval_max, eval_dot, eval_modulo,
      eval_neg, eval_abs, eval_floor, eval_length, eval_component, eval_compose, eval_clamp, eval_mix,
      eval_rotate, eval_lanes, Op.eval, Site.eval, *]
    rfl

end

/-! ## Compiled shapes -/

namespace Shape

variable {S : Type} [Scalar S]

/-- Built in any well-formed arena, at any point and in any cell that the arena holds, and flattened,
the shape is evaluated to the given value at the values of the point and the cell. -/
def Compiles (shape : Shape Word) (bindings : Bindings S) (value : Site (Vec3 S) → Vec3 S) : Prop :=
  ∀ {arena : Arena} {p c : Handle} {t u : Tree}, arena.WellFormed →
    Denotes arena.nodes p t → Denotes arena.nodes c u →
    let built := (shape.build ⟨p, c⟩).run arena
    built.2.size ≤ UInt32.size → ¬ Walk.Exceeds built.2.nodes [built.1] →
      ∃ order, flatten built.2.nodes [built.1] = .ok order ∧
        ∀ slots : Slots S, slots.size = built.2.size →
          (Slots.run built.2.nodes order bindings slots).get built.1 =
            value ⟨t.eval bindings, u.eval bindings⟩

theorem compiles_computed {shape : Shape Word} (hshape : shape.Closed) (bindings : Bindings S) :
    shape.Compiles bindings (shape.computed bindings) := by
  intro arena p c t u harena hp hc built hsize hwithin
  have hpt : Known [(p, t), (c, u)] p t := List.mem_cons_self
  have hcu : Known [(p, t), (c, u)] c u := List.mem_cons_of_mem _ List.mem_cons_self
  have hknown : ∀ h s, Known [(p, t), (c, u)] h s → Denotes arena.nodes h s := by
    intro h s hs
    rcases known_cons.1 hs with ⟨rfl, rfl⟩ | hs
    · exact hp
    · exact known_singleton hc h s hs
  obtain ⟨hw, hroot, -⟩ := assemble_follows hshape hpt hcu arena harena hknown (.inl hsize)
  obtain ⟨order, horder, hrun⟩ := Denotes.run_flatten hw hroot hwithin
  refine ⟨order, horder, fun slots hslots => ?_⟩
  exact (hrun bindings slots hslots).trans (eval_assemble_eq_computed bindings ⟨t, u⟩ shape)

/-- An arena of the shape's own answers for the value at the position. -/
theorem distanceUnder_eq_computed {shape : Shape Word} (hshape : shape.Closed)
    (hroom : shape.alone.2.size ≤ UInt32.size)
    (hwithin : ¬ Walk.Exceeds shape.alone.2.nodes [shape.alone.1]) (bindings : Bindings S) :
    shape.distanceUnder bindings =
      .ok (shape.computed bindings (.outer bindings.position)).x := by
  rw [distanceUnder_eq_builtDistance hshape hroom hwithin, builtDistance, eval_assemble_eq_computed]
  rw [Site.eval, Site.outer, Tree.eval_node]
  rfl

/-- In binary32 arithmetic the value is the one that the shape means. -/
theorem computed_eq_value {shape : Shape Word} (hshape : shape.Closed) (bindings : Bindings Float32)
    (site : Site (Vec3 Float32)) :
    shape.computed bindings site = shape.value Scalar.ofWord bindings site := by
  have hlane (v : Vec3 Float32) : (Tree.node (.constant v.toWords)).eval bindings = v := by
    rw [Tree.eval_node]
    simp [Op.eval, Vec3.toWords, Vec3.map]
  have hsite : site = Site.eval bindings
      ⟨.node (.constant site.point.toWords), .node (.constant site.cell.toWords)⟩ := by
    rw [Site.eval, hlane, hlane]
  rw [hsite, ← eval_assemble_eq_computed]
  exact eval_assemble hshape bindings _

end Shape

end SphereTracer
