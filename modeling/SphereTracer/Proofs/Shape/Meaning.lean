import SphereTracer.Shape.Value
import SphereTracer.Proofs.Numbers.Bits
import SphereTracer.Proofs.Shape.Assembled

/-!
# The value of an assembled shape

The tree that a shape makes has the value that the shape means, operation by operation.
-/

namespace SphereTracer

namespace Transcript

variable {S : Type} [Scalar S] (bindings : Bindings S) (a b c d : Tree)

@[simp] theorem eval_op (o : Op Word Tree) : (Build.op o : Transcript Tree).result.eval bindings =
    o.eval Scalar.ofWord (Tree.eval bindings) bindings :=
  Tree.eval_node bindings o

@[simp] theorem eval_splat (w : Word) : (Build.splat w : Transcript Tree).result.eval bindings =
    .splat (Scalar.ofWord w) :=
  eval_op bindings (.constant (.splat w))

@[simp] theorem eval_unary (f : Unary) : (Build.unary f a : Transcript Tree).result.eval bindings =
    f.eval (a.eval bindings) :=
  eval_op bindings (.unary f a)

@[simp] theorem eval_binary (f : Binary) :
    (Build.binary f a b : Transcript Tree).result.eval bindings =
      f.eval (a.eval bindings) (b.eval bindings) :=
  eval_op bindings (.binary f a b)

@[simp] theorem eval_add : (Build.add a b : Transcript Tree).result.eval bindings =
    a.eval bindings + b.eval bindings :=
  eval_binary bindings a b .add

@[simp] theorem eval_sub : (Build.sub a b : Transcript Tree).result.eval bindings =
    a.eval bindings - b.eval bindings :=
  eval_binary bindings a b .sub

@[simp] theorem eval_mul : (Build.mul a b : Transcript Tree).result.eval bindings =
    a.eval bindings * b.eval bindings :=
  eval_binary bindings a b .mul

@[simp] theorem eval_div : (Build.div a b : Transcript Tree).result.eval bindings =
    a.eval bindings / b.eval bindings :=
  eval_binary bindings a b .div

@[simp] theorem eval_min : (Build.min a b : Transcript Tree).result.eval bindings =
    (a.eval bindings).min (b.eval bindings) :=
  eval_binary bindings a b .min

@[simp] theorem eval_max : (Build.max a b : Transcript Tree).result.eval bindings =
    (a.eval bindings).max (b.eval bindings) :=
  eval_binary bindings a b .max

@[simp] theorem eval_dot : (Build.dot a b : Transcript Tree).result.eval bindings =
    .splat ((a.eval bindings).dot (b.eval bindings)) :=
  eval_binary bindings a b .dot

@[simp] theorem eval_modulo : (Build.modulo a b : Transcript Tree).result.eval bindings =
    a.eval bindings - b.eval bindings * (a.eval bindings / b.eval bindings).floor :=
  eval_binary bindings a b .mod

@[simp] theorem eval_neg : (Build.neg a : Transcript Tree).result.eval bindings =
    -(a.eval bindings) :=
  eval_unary bindings a .neg

@[simp] theorem eval_abs : (Build.abs a : Transcript Tree).result.eval bindings =
    (a.eval bindings).abs :=
  eval_unary bindings a .abs

@[simp] theorem eval_floor : (Build.floor a : Transcript Tree).result.eval bindings =
    (a.eval bindings).floor :=
  eval_unary bindings a .floor

@[simp] theorem eval_length : (Build.length a : Transcript Tree).result.eval bindings =
    .splat (a.eval bindings).length :=
  eval_unary bindings a .length

@[simp] theorem eval_component (axis : Axis) :
    (Build.component a axis : Transcript Tree).result.eval bindings =
      .splat (axis.lane (a.eval bindings)) :=
  eval_op bindings (.component a axis)

@[simp] theorem eval_compose : (Build.compose a b c : Transcript Tree).result.eval bindings =
    ⟨(a.eval bindings).x, (b.eval bindings).x, (c.eval bindings).x⟩ :=
  eval_op bindings (.compose a b c)

@[simp] theorem eval_clamp : (Build.clamp a b c : Transcript Tree).result.eval bindings =
    ((a.eval bindings).max (b.eval bindings)).min (c.eval bindings) :=
  eval_op bindings (.clamp a b c)

@[simp] theorem eval_mix : (Build.mix a b c : Transcript Tree).result.eval bindings =
    a.eval bindings * (.one - c.eval bindings) + b.eval bindings * c.eval bindings :=
  eval_op bindings (.mix a b c)

@[simp] theorem eval_select : (Build.select a b c d : Transcript Tree).result.eval bindings =
    if Scalar.lt (a.eval bindings).x (b.eval bindings).x then c.eval bindings else d.eval bindings :=
  eval_op bindings (.select a b c d)

@[simp] theorem eval_rotate : (Build.rotate a b c : Transcript Tree).result.eval bindings =
    Intrinsic.rotate (a.eval bindings) (b.eval bindings) (c.eval bindings).x :=
  eval_op bindings (.rotate a b c)

@[simp] theorem eval_lanes (f : Binary) :
    (Build.lanes f a : Transcript Tree).result.eval bindings =
      f.eval (.splat (a.eval bindings).x)
        (f.eval (.splat (a.eval bindings).y) (.splat (a.eval bindings).z)) := by
  simp [Build.lanes, Axis.lane]

theorem result_foldlM {ι α : Type} (f : α → ι → Transcript α) (l : List ι) (x : α) :
    (l.foldlM f x).result = l.foldl (fun y i => (f y i).result) x := by
  induction l generalizing x with
  | nil => rfl
  | cons i rest ih => rw [List.foldlM_cons, result_bind, ih, List.foldl_cons]

theorem result_foldrM {ι α : Type} (f : ι → α → Transcript α) (l : List ι) (x : α) :
    (l.foldrM f x).result = l.foldr (fun i y => (f i y).result) x := by
  rw [List.foldrM, result_foldlM, List.foldl_reverse]

end Transcript

theorem Term.eval_assemble {S : Type} [Scalar S] {t : Term Word} (ht : t.Closed)
    (bindings : Bindings S) (site : Site Tree) :
    (t.assemble site : Transcript Tree).result.eval bindings =
      t.value Scalar.ofWord bindings ⟨site.point.eval bindings, site.cell.eval bindings⟩ := by
  induction t with
  | captured h => exact ht.elim
  | var v => exact Transcript.eval_op bindings (.var v)
  | constant c => exact Transcript.eval_op bindings (.constant c)
  | random a iha => simp_all [Closed, assemble, value, Build.random, Op.eval]
  | _ => simp_all [Closed, assemble, value, Op.eval]

/-! ## Numerals -/

@[simp] theorem ofWord_ofFloat (x : Float32) : Scalar.ofWord (Word.ofFloat x) = x :=
  toFloat_ofFloat x

@[simp] theorem ofWord_ofScientific (m : Nat) (s : Bool) (e : Nat) :
    (Scalar.ofWord (OfScientific.ofScientific m s e : Word) : Float32) =
      OfScientific.ofScientific m s e :=
  toFloat_ofFloat _

@[simp] theorem ofWord_neg_one : (Scalar.ofWord (-1.0 : Word) : Float32) = -1.0 := by
  decide

/-- Numbers among which the short numerals of constructions stand for themselves. -/
class ExactNumerals (S : Type) [Scalar S] : Prop where
  zero : (Scalar.ofWord (0.0 : Word) : S) = 0.0
  half : (Scalar.ofWord (0.5 : Word) : S) = 0.5
  one : (Scalar.ofWord (1.0 : Word) : S) = 1.0
  two : (Scalar.ofWord (2.0 : Word) : S) = 2.0

attribute [simp] ExactNumerals.zero ExactNumerals.half ExactNumerals.one ExactNumerals.two

instance : ExactNumerals Float32 where
  zero := ofWord_ofScientific ..
  half := ofWord_ofScientific ..
  one := ofWord_ofScientific ..
  two := ofWord_ofScientific ..

/-! ## Shapes -/

@[simp] theorem Vec3.splat_x {α : Type} (a : α) : (Vec3.splat a).x = a := rfl

theorem Vec3.splat_zero {S : Type} [Scalar S] : (.splat 0.0 : Vec3 S) = .zero := rfl

theorem Vec3.splat_one {S : Type} [Scalar S] : (.splat 1.0 : Vec3 S) = .one := rfl

section
variable {S : Type} [Scalar S] [ExactNumerals S]

namespace Transcript

variable (bindings : Bindings S) (k a b : Tree)

theorem eval_planar (i j : Axis) :
    (Build.planar a i j : Transcript Tree).result.eval bindings =
      ⟨i.lane (a.eval bindings), j.lane (a.eval bindings), 0.0⟩ := by
  simp [Build.planar]

theorem eval_smoothMin : (Build.smoothMin k a b : Transcript Tree).result.eval bindings =
    smoothMin (k.eval bindings) (a.eval bindings) (b.eval bindings) := by
  simp [Build.smoothMin, Build.blend, Binary.eval, smoothMin, Vec3.splat_zero, Vec3.splat_one]

theorem eval_smoothMax : (Build.smoothMax k a b : Transcript Tree).result.eval bindings =
    smoothMax (k.eval bindings) (a.eval bindings) (b.eval bindings) := by
  simp [Build.smoothMax, Build.blend, Binary.eval, smoothMax, Vec3.splat_zero, Vec3.splat_one]

end Transcript

/-- The other constants of a construction stand for themselves too: those that are computed, and the
numerals of few shapes. -/
def Shape.Exact (S : Type) [Scalar S] : Shape Word → Prop
  | sierpinski n base =>
    Scalar.ofWord (.ofFloat (Intrinsic.foldFactor n)) = (Intrinsic.foldFactor n : S) ∧ base.Exact S
  | choose _ n shapes =>
    (∀ i : Fin n, Scalar.ofWord (.ofFloat (choiceBound i n)) = (choiceBound i n : S)) ∧
      ∀ i, (shapes i).Exact S
  | wrapX a =>
    (Scalar.ofWord (-1.0) = (-1.0 : S) ∧ Scalar.ofWord 1e-6 = (1e-6 : S) ∧
      Scalar.ofWord 0.01 = (0.01 : S)) ∧ a.Exact S
  | translate _ a | scale _ a | stretch _ a | .repeat _ a | modulate _ _ a | expand _ a
  | clampPositive a | mirror _ a | rotate _ _ a => a.Exact S
  | union a b | intersection a b | difference a b => a.Exact S ∧ b.Exact S
  | smoothUnion _ a b | smoothIntersection _ a b | smoothDifference _ a b => a.Exact S ∧ b.Exact S
  | field _ | sphere _ | plane _ _ | cuboid _ | cylinder _ | torus _ _ | mandelbulb _ _ => True

open Build Transcript

theorem Shape.Exact.eval_assemble {shape : Shape Word} (h : shape.Exact S) (hs : shape.Closed)
    (bindings : Bindings S) (site : Site Tree) :
    (shape.assemble site : Transcript Tree).result.eval bindings =
      shape.value Scalar.ofWord bindings ⟨site.point.eval bindings, site.cell.eval bindings⟩ := by
  induction shape generalizing site with
  | field distance => exact Term.eval_assemble hs bindings site
  | sphere radius => simp [assemble, value, Term.eval_assemble hs]
  | plane normal offset =>
    simp [assemble, value, Term.eval_assemble hs.1, Term.eval_assemble hs.2]
  | cuboid half =>
    simp [assemble, value, maxComponent, Term.eval_assemble hs]
    rfl
  | cylinder radius =>
    simp [assemble, value, eval_planar, Axis.lane, Term.eval_assemble hs]
  | torus major minor =>
    simp [assemble, value, eval_planar, Axis.lane, Term.eval_assemble hs.1, Term.eval_assemble hs.2]
    rfl
  | mandelbulb power n => simp [assemble, value, Op.eval, Term.eval_assemble hs]
  | sierpinski n base ih => simp [assemble, value, Op.eval, Site.moved, h.1, ih h.2 hs]
  | translate offset a ih => simp [assemble, value, Site.moved, Term.eval_assemble hs.1, ih h hs.2]
  | scale factor a ih =>
    simp [assemble, value, Site.moved, Axis.lane, Term.eval_assemble hs.1, ih h hs.2]
  | stretch factor a ih =>
    simp [assemble, value, Site.moved, minComponent, Term.eval_assemble hs.1, ih h hs.2]
    rfl
  | «repeat» period a ih =>
    simp [assemble, value, Site.moved, repeatPoint, Term.eval_assemble hs.1, ih h hs.2]
  | modulate period buffer inner ih =>
    simp [assemble, value, minComponent, cellRoom, cellPoint, cellIndex,
      Term.eval_assemble hs.1, Term.eval_assemble hs.2.1, ih h hs.2.2]
    rfl
  | choose selector n shapes ih =>
    simp only [assemble, value, result_bind, result_foldrM, ← Term.eval_assemble hs.1 bindings site]
    induction List.finRange n with
    | nil => simp [Vec3.splat_zero]
    | cons i rest ihrest =>
      rw [List.foldr_cons, List.foldr_cons, eval_select, ihrest, ih i (h.2 i) (hs.2 i)]
      simp [h.1 i]
  | union a b iha ihb => simp [assemble, value, iha h.1 hs.1, ihb h.2 hs.2]
  | intersection a b iha ihb => simp [assemble, value, iha h.1 hs.1, ihb h.2 hs.2]
  | difference a b iha ihb => simp [assemble, value, iha h.1 hs.1, ihb h.2 hs.2]
  | smoothUnion k a b iha ihb =>
    simp [assemble, value, eval_smoothMin, Term.eval_assemble hs.1, iha h.1 hs.2.1, ihb h.2 hs.2.2]
  | smoothIntersection k a b iha ihb =>
    simp [assemble, value, eval_smoothMax, Term.eval_assemble hs.1, iha h.1 hs.2.1, ihb h.2 hs.2.2]
  | smoothDifference k a b iha ihb =>
    simp [assemble, value, eval_smoothMax, Term.eval_assemble hs.1, iha h.1 hs.2.1, ihb h.2 hs.2.2]
  | expand amount a ih =>
    simp [assemble, value, Axis.lane, Term.eval_assemble hs.1, ih h hs.2]
  | clampPositive a ih => simp [assemble, value, Site.moved, Vec3.splat_zero, ih h hs]
  | mirror normal a ih =>
    simp [assemble, value, Site.moved, mirrorPoint, Vec3.splat_zero, Term.eval_assemble hs.1,
      ih h hs.2]
  | rotate axis angle a ih =>
    simp [assemble, value, Site.moved, Term.eval_assemble hs.1, Term.eval_assemble hs.2.1,
      ih h hs.2.2]
    rfl
  | wrapX a ih =>
    obtain ⟨⟨hlow, htiny, hleast⟩, ha⟩ := h
    simp [assemble, value, Site.moved, eval_planar, Axis.lane, wrapPoint, wrapFactor, Unary.eval,
      hlow, htiny, hleast, ih ha hs]
    rfl

end

theorem Shape.exact_binary32 (shape : Shape Word) : shape.Exact Float32 := by
  induction shape <;> simp_all [Exact]

theorem Shape.eval_assemble {shape : Shape Word} (hs : shape.Closed) (bindings : Bindings Float32)
    (site : Site Tree) :
    (shape.assemble site : Transcript Tree).result.eval bindings =
      shape.value Scalar.ofWord bindings ⟨site.point.eval bindings, site.cell.eval bindings⟩ :=
  shape.exact_binary32.eval_assemble hs bindings site

end SphereTracer
