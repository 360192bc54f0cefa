import SphereTracer.Expr.Eval

/-!
# Terms

Parameters of shapes, materials and cameras: trees that become nodes only when they are built.  A
term may refer to the point at which its shape is built and to the index of the innermost cell that
it lies in.

A term has two meanings.  `Term.assemble` makes its operations one after the other, in a fixed order,
and `Term.build` does so in an arena; `Term.value` computes its value directly, without any arena.
-/

namespace SphereTracer

/-- Where a term is built: at a point, inside a cell of a modulated repetition. -/
structure Site (α : Type) where
  point : α
  cell : α
  deriving Repr, Inhabited

namespace Site

variable {α : Type}

/-- Outside every repetition the point takes the place of the cell index. -/
@[inline] def outer (p : α) : Site α := ⟨p, p⟩

/-- The same cell at another point. -/
@[inline] def moved (site : Site α) (p : α) : Site α := ⟨p, site.cell⟩

end Site

/-- A tree of operations over constants of type `κ`. -/
inductive Term (κ : Type) where
  | var (v : Var)
  | constant (value : Vec3 κ)
  /-- The point at which the shape is built. -/
  | here
  /-- The index of the innermost cell around the shape.  That of a cell further out has no name of its
  own: it has to be written as a term of the variables. -/
  | cell
  /-- A node of the arena, by its place; it has no meaning outside of that arena. -/
  | captured (h : Handle)
  | unary (f : Unary) (a : Term κ)
  | binary (f : Binary) (a b : Term κ)
  | clamp (value low high : Term κ)
  | mix (a b t : Term κ)
  | select (lhs rhs below otherwise : Term κ)
  | component (a : Term κ) (axis : Axis)
  | compose (x y z : Term κ)
  | rotate (point axis angle : Term κ)
  | random (seed : Term κ)
  | mandelbulb (point power : Term κ) (iterations : UInt32)
  | fold (point : Term κ) (iterations : UInt32)
  /-- The three lanes joined by an operation, in all lanes: the last two first. -/
  | lanes (f : Binary) (a : Term κ)
  /-- `body`, with the nodes of `first` built before it. -/
  | after (first body : Term κ)
  deriving Repr, Inhabited

namespace Term

section
variable {κ : Type}

/-- Terms are shown without their contents. -/
instance : ToString (Term κ) := ⟨fun _ => "Param(..)"⟩

/-- A number in all lanes. -/
def splat (a : κ) : Term κ := constant (.splat a)

instance : Add (Term κ) := ⟨binary .add⟩
instance : Sub (Term κ) := ⟨binary .sub⟩
instance : Mul (Term κ) := ⟨binary .mul⟩
instance : Div (Term κ) := ⟨binary .div⟩

/-- A numeral stands for that number in all lanes. -/
instance [OfScientific κ] : OfScientific (Term κ) :=
  ⟨fun m s e => splat (OfScientific.ofScientific m s e)⟩

/-- The least lane, in all lanes. -/
def minComponent : Term κ → Term κ := lanes .min

/-- The greatest lane, in all lanes. -/
def maxComponent : Term κ → Term κ := lanes .max

/-- `body`, with the nodes of several terms built before it, in order. -/
def afterAll (firsts : List (Term κ)) (body : Term κ) : Term κ := firsts.foldr after body

end

/-- Makes the operations of a term, operands from left to right and users last. -/
@[specialize] def assemble {M : Type → Type} {α : Type} [Monad M] [Builder M α] (site : Site α) :
    Term Word → M α
  | var v => Build.var v
  | constant c => Build.constant c
  | here => return site.point
  | cell => return site.cell
  | captured h => return Builder.captured M h
  | unary f a => do
    let a ← a.assemble site
    Build.unary f a
  | binary f a b => do
    let a ← a.assemble site
    let b ← b.assemble site
    Build.binary f a b
  | clamp a b c => do
    let a ← a.assemble site
    let b ← b.assemble site
    let c ← c.assemble site
    Build.clamp a b c
  | mix a b c => do
    let a ← a.assemble site
    let b ← b.assemble site
    let c ← c.assemble site
    Build.mix a b c
  | select a b c d => do
    let a ← a.assemble site
    let b ← b.assemble site
    let c ← c.assemble site
    let d ← d.assemble site
    Build.select a b c d
  | component a axis => do
    let a ← a.assemble site
    Build.component a axis
  | compose a b c => do
    let a ← a.assemble site
    let b ← b.assemble site
    let c ← c.assemble site
    Build.compose a b c
  | rotate a b c => do
    let a ← a.assemble site
    let b ← b.assemble site
    let c ← c.assemble site
    Build.rotate a b c
  | random a => do
    let a ← a.assemble site
    Build.random a
  | mandelbulb a b n => do
    let a ← a.assemble site
    let b ← b.assemble site
    Build.op (.mandelbulb a b n)
  | fold a n => do
    let a ← a.assemble site
    Build.op (.fold a n)
  | lanes f a => do
    let a ← a.assemble site
    Build.lanes f a
  | after first body => do
    let _ ← first.assemble site
    body.assemble site

/-- Builds the nodes of a term. -/
def build (site : Site Handle) (t : Term Word) : Build Handle := t.assemble site

/-- The value of a term; a captured node counts as zero. -/
def value {κ S : Type} [Scalar S] (number : κ → S) (bindings : Bindings S) (site : Site (Vec3 S)) :
    Term κ → Vec3 S
  | var v => bindings.get v
  | constant c => c.map number
  | here => site.point
  | cell => site.cell
  | captured _ => .zero
  | unary f a => f.eval (a.value number bindings site)
  | binary f a b => f.eval (a.value number bindings site) (b.value number bindings site)
  | clamp a low high =>
    ((a.value number bindings site).max (low.value number bindings site)).min
      (high.value number bindings site)
  | mix a b t =>
    let t := t.value number bindings site
    a.value number bindings site * (.one - t) + b.value number bindings site * t
  | select lhs rhs below otherwise =>
    if Scalar.lt (lhs.value number bindings site).x (rhs.value number bindings site).x then
      below.value number bindings site
    else otherwise.value number bindings site
  | component a axis => .splat (axis.lane (a.value number bindings site))
  | compose x y z =>
    ⟨(x.value number bindings site).x, (y.value number bindings site).x,
      (z.value number bindings site).x⟩
  | rotate point axis angle =>
    Intrinsic.rotate (point.value number bindings site) (axis.value number bindings site)
      (angle.value number bindings site).x
  | random seed => .splat (Intrinsic.noise (seed.value number bindings site))
  | mandelbulb point power n =>
    .splat (Intrinsic.mandelbulb (point.value number bindings site)
      (power.value number bindings site).x n)
  | fold point n => Intrinsic.foldPoint n.toNat (point.value number bindings site)
  | lanes f a =>
    let v := a.value number bindings site
    f.eval (.splat v.x) (f.eval (.splat v.y) (.splat v.z))
  | after _ body => body.value number bindings site

end Term

end SphereTracer
