import SphereTracer.Shape.Build

/-!
# The distance that a shape means

The value of a shape by recursion over its tree: no arena, no sharing and no order of nodes.
-/

namespace SphereTracer

variable {κ S : Type} [Scalar S]

/-- The smooth minimum of two distances, lane by lane. -/
def smoothMin (k a b : Vec3 S) : Vec3 S :=
  let half : Vec3 S := .splat 0.5
  let h := ((half + half * ((b - a) / k)).max .zero).min .one
  (b * (.one - h) + a * h) - k * h * (.one - h)

/-- The smooth maximum of two distances, lane by lane. -/
def smoothMax (k a b : Vec3 S) : Vec3 S :=
  let half : Vec3 S := .splat 0.5
  let h := ((half - half * ((b - a) / k)).max .zero).min .one
  (b * (.one - h) + a * h) + k * h * (.one - h)

/-- The least lane. -/
def Vec3.least (v : Vec3 S) : S := Scalar.min v.x (Scalar.min v.y v.z)

/-- The greatest lane. -/
def Vec3.greatest (v : Vec3 S) : S := Scalar.max v.x (Scalar.max v.y v.z)

/-- The point of the cell centred on the origin to which a repetition takes `p`. -/
def repeatPoint (period p : Vec3 S) : Vec3 S :=
  let half := period * .splat 0.5
  let shifted := p - half
  shifted - period * (shifted / period).floor - half

/-- The index of the cell of a modulated repetition that `p` lies in. -/
def cellIndex (period p : Vec3 S) : Vec3 S := ((p + period * .splat 0.5) / period).floor

/-- The position of `p` from the centre of its cell. -/
def cellPoint (period p : Vec3 S) : Vec3 S := p - cellIndex period p * period

/-- How far `p` is from the border of its cell, widened by `buffer`. -/
def cellRoom (period buffer p : Vec3 S) : S :=
  (buffer + period * .splat 0.5 - (cellPoint period p).abs).least

/-- The reflection of a shape's mirror. -/
def mirrorPoint (normal p : Vec3 S) : Vec3 S :=
  p - .splat 2.0 * Vec3.min .zero (.splat (p.dot normal)) * normal

/-- Where `wrapX` asks its shape. -/
def wrapPoint (p : Vec3 S) : Vec3 S :=
  let c := Vec3.length ⟨p.y, p.z, 0.0⟩
  let ratio := p.y / Scalar.max c 1e-6
  ⟨p.x, Scalar.asin (Scalar.min (Scalar.max ratio (-1.0)) 1.0), c⟩

/-- What `wrapX` multiplies distances by. -/
def wrapFactor (p : Vec3 S) : S := Scalar.min 1.0 (Scalar.max 0.01 (Scalar.abs p.z))

/-- The value of a shape at a site, for constants that stand for the numbers that `number` gives. -/
def Shape.value (number : κ → S) (bindings : Bindings S) (site : Site (Vec3 S)) : Shape κ → Vec3 S
  | field distance => distance.value number bindings site
  | sphere radius => .splat site.point.length - radius.value number bindings site
  | plane normal offset =>
    .splat (site.point.dot (normal.value number bindings site)) +
      offset.value number bindings site
  | cuboid half =>
    let d := site.point.abs - half.value number bindings site
    Vec3.min (.splat d.greatest) .zero + .splat (d.max .zero).length
  | cylinder radius =>
    .splat (Vec3.length ⟨site.point.x, site.point.z, 0.0⟩) - radius.value number bindings site
  | torus major minor =>
    let around := Vec3.length ⟨site.point.x, site.point.z, 0.0⟩
    let ring := around - (major.value number bindings site).x
    .splat (Vec3.length ⟨ring, site.point.y, 0.0⟩) - minor.value number bindings site
  | mandelbulb power n =>
    .splat (Intrinsic.mandelbulb site.point (power.value number bindings site).x n)
  | sierpinski n base =>
    base.value number bindings (site.moved (Intrinsic.foldPoint n.toNat site.point)) *
      .splat (Intrinsic.foldFactor n)
  | translate offset a =>
    a.value number bindings (site.moved (site.point - offset.value number bindings site))
  | scale factor a =>
    let s : Vec3 S := .splat (factor.value number bindings site).x
    a.value number bindings (site.moved (site.point / s)) * s
  | stretch factor a =>
    let f := factor.value number bindings site
    a.value number bindings (site.moved (site.point / f)) * .splat f.least
  | .repeat period a =>
    a.value number bindings
      (site.moved (repeatPoint (period.value number bindings site) site.point))
  | modulate period buffer inner =>
    let x := period.value number bindings site
    Vec3.min (.splat (cellRoom x (buffer.value number bindings site) site.point))
      (inner.value number bindings ⟨cellPoint x site.point, cellIndex x site.point⟩)
  | choose selector n shapes =>
    let x := (selector.value number bindings site).x
    (List.finRange n).foldr (fun (i : Fin n) result =>
      if Scalar.lt x (choiceBound i n) then (shapes i).value number bindings site else result) .zero
  | union a b => (a.value number bindings site).min (b.value number bindings site)
  | intersection a b => (a.value number bindings site).max (b.value number bindings site)
  | difference a b => (a.value number bindings site).max (-(b.value number bindings site))
  | smoothUnion k a b =>
    smoothMin (k.value number bindings site) (a.value number bindings site)
      (b.value number bindings site)
  | smoothIntersection k a b =>
    smoothMax (k.value number bindings site) (a.value number bindings site)
      (b.value number bindings site)
  | smoothDifference k a b =>
    smoothMax (k.value number bindings site) (a.value number bindings site)
      (-(b.value number bindings site))
  | expand amount a =>
    a.value number bindings site - .splat (amount.value number bindings site).x
  | clampPositive a => a.value number bindings (site.moved (site.point.max .zero))
  | mirror normal a =>
    a.value number bindings
      (site.moved (mirrorPoint (normal.value number bindings site) site.point))
  | rotate axis angle a =>
    a.value number bindings (site.moved (Intrinsic.rotate site.point
      (axis.value number bindings site) (-(angle.value number bindings site).x)))
  | wrapX a =>
    a.value number bindings (site.moved (wrapPoint site.point)) * .splat (wrapFactor site.point)

end SphereTracer
