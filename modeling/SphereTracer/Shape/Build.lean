import SphereTracer.Shape.Basic
import SphereTracer.Expr.Flatten

/-!
# Building shapes

A shape as nodes of an arena.  The order in which nodes are made is part of the definition: it
decides their handles, and with them the order of everything that lists nodes.
-/

namespace SphereTracer

namespace Build

section
variable {M : Type → Type} {α : Type} [Monad M] [Builder M α]

/-- The lanes `a` and `b` of a vector, and zero. -/
def planar (p : α) (a b : Axis) : M α := do
  let u ← component p a
  let v ← component p b
  let zero ← splat 0.0
  compose u v zero

/-- The blend of two distances: below the lesser one by a bump of size `k` for `inward = .add`,
above the greater one for `inward = .sub`. -/
def blend (inward outward : Binary) (k a b : α) : M α := do
  let half ← splat 0.5
  let zero ← splat 0.0
  let one ← splat 1.0
  let delta ← sub b a
  let ratio ← div delta k
  let scaled ← mul half ratio
  let biased ← binary inward half scaled
  -- The share of `a`: one or zero where the distances are further apart than `k`.
  let h ← clamp biased zero one
  let blended ← mix b a h
  let rest ← sub one h
  let kh ← mul k h
  let bump ← mul kh rest
  binary outward blended bump

def smoothMin : α → α → α → M α := blend .add .sub

def smoothMax : α → α → α → M α := blend .sub .add

end

end Build

/-- The selector's bound for the first `i + 1` of `n` choices. -/
def choiceBound {S : Type} [Scalar S] (i n : Nat) : S :=
  Scalar.ofLength (i + 1) / Scalar.ofLength n

open Build in
/-- Makes the operations of a shape's distance at a site. -/
@[specialize] def Shape.assemble {M : Type → Type} {α : Type} [Monad M] [Builder M α]
    (site : Site α) : Shape Word → M α
  | field distance => distance.assemble site
  | sphere radius => do
    let l ← length site.point
    let r ← radius.assemble site
    sub l r
  | plane normal offset => do
    let n ← normal.assemble site
    let d ← dot site.point n
    let o ← offset.assemble site
    add d o
  | cuboid half => do
    let h ← half.assemble site
    let a ← abs site.point
    let d ← sub a h
    let zero ← splat 0.0
    let positive ← max d zero
    let outside ← length positive
    let largest ← maxComponent d
    let inside ← min largest zero
    add inside outside
  | cylinder radius => do
    let xz ← planar site.point .x .z
    let l ← length xz
    let r ← radius.assemble site
    sub l r
  | torus major minor => do
    let xz ← planar site.point .x .z
    let l ← length xz
    let big ← major.assemble site
    let ring ← sub l big
    let y ← component site.point .y
    let zero ← splat 0.0
    let q ← compose ring y zero
    let lq ← length q
    let small ← minor.assemble site
    sub lq small
  | mandelbulb power n => do
    let power ← power.assemble site
    op (.mandelbulb site.point power n)
  | sierpinski n base => do
    let folded ← op (.fold site.point n)
    let d ← base.assemble (site.moved folded)
    let s ← splat (.ofFloat (Intrinsic.foldFactor n))
    mul d s
  | translate offset a => do
    let o ← offset.assemble site
    let q ← sub site.point o
    a.assemble (site.moved q)
  | scale factor a => do
    let f ← factor.assemble site
    let s ← component f .x
    let q ← div site.point s
    let d ← a.assemble (site.moved q)
    mul d s
  | stretch factor a => do
    let f ← factor.assemble site
    let q ← div site.point f
    let d ← a.assemble (site.moved q)
    let m ← minComponent f
    mul d m
  | .repeat period a => do
    let x ← period.assemble site
    let halfFactor ← splat 0.5
    let half ← mul x halfFactor
    let shifted ← sub site.point half
    let wrapped ← modulo shifted x
    let q ← sub wrapped half
    a.assemble (site.moved q)
  | modulate period buffer inner => do
    let x ← period.assemble site
    let halfFactor ← splat 0.5
    let half ← mul x halfFactor
    let shifted ← add site.point half
    let scaled ← div shifted x
    let index ← floor scaled
    let center ← mul index x
    let offset ← sub site.point center
    let pad ← buffer.assemble site
    let extent ← add pad half
    let a ← abs offset
    let room ← sub extent a
    let mask ← minComponent room
    let d ← inner.assemble ⟨offset, index⟩
    min mask d
  | choose selector n shapes => do
    let x ← selector.assemble site
    let zero ← splat 0.0
    -- The last shape is made first, inside of all the selections.
    (List.finRange n).foldrM (fun i result => do
      let d ← (shapes i).assemble site
      let bound ← splat (.ofFloat (choiceBound i n))
      select x bound d result) zero
  | union a b => do
    let da ← a.assemble site
    let db ← b.assemble site
    min da db
  | intersection a b => do
    let da ← a.assemble site
    let db ← b.assemble site
    max da db
  | difference a b => do
    let da ← a.assemble site
    let db ← b.assemble site
    let nb ← neg db
    max da nb
  | smoothUnion k a b => do
    let k ← k.assemble site
    let da ← a.assemble site
    let db ← b.assemble site
    smoothMin k da db
  | smoothIntersection k a b => do
    let k ← k.assemble site
    let da ← a.assemble site
    let db ← b.assemble site
    smoothMax k da db
  | smoothDifference k a b => do
    let k ← k.assemble site
    let da ← a.assemble site
    let db ← b.assemble site
    let nb ← neg db
    smoothMax k da nb
  | expand amount a => do
    let d ← a.assemble site
    let k ← amount.assemble site
    let kx ← component k .x
    sub d kx
  | clampPositive a => do
    let zero ← splat 0.0
    let q ← max site.point zero
    a.assemble (site.moved q)
  | mirror normal a => do
    let n ← normal.assemble site
    let zero ← splat 0.0
    let two ← splat 2.0
    let along ← dot site.point n
    let behind ← min zero along
    let twice ← mul two behind
    let shift ← mul twice n
    let q ← sub site.point shift
    a.assemble (site.moved q)
  | rotate axis angle a => do
    let k ← axis.assemble site
    let theta ← angle.assemble site
    -- A shape turns forward where its points are turned back.
    let back ← neg theta
    let q ← Build.rotate site.point k back
    a.assemble (site.moved q)
  | wrapX a => do
    let yz ← planar site.point .y .z
    let c ← length yz
    let tiny ← splat 1e-6
    let safe ← max c tiny
    let y ← component site.point .y
    let ratio ← div y safe
    let low ← splat (-1.0)
    let high ← splat 1.0
    let clamped ← clamp ratio low high
    let angle ← unary .asin clamped
    let x ← component site.point .x
    let q ← compose x angle c
    let d ← a.assemble (site.moved q)
    let z ← component site.point .z
    let az ← abs z
    let least ← splat 0.01
    let lifted ← max least az
    let correction ← min high lifted
    mul d correction

namespace Shape

/-- Builds the nodes of a shape's distance at a site. -/
def build (site : Site Handle) (shape : Shape Word) : Build Handle := shape.assemble site

/-- Builds a shape at a position that is no part of a repetition. -/
def buildAt (shape : Shape Word) (position : Handle) : Build Handle :=
  shape.build (.outer position)

/-- The distance of a point, through an arena of the shape's own. -/
def distanceAt {S : Type} [Scalar S] (shape : Shape Word) (point : Vec3 S) :
    Except GraphError S := do
  let (root, arena) := (do shape.buildAt (← Build.var .position) : Build Handle).run ∅
  let order ← flatten arena.nodes [root]
  let slots := Slots.run arena.nodes order (.atPoint point) (.blank arena.size)
  return (slots.get root).x

end Shape

end SphereTracer
