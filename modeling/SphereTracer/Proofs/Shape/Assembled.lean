import SphereTracer.Shape.Build
import SphereTracer.Proofs.Expr.Follows

/-!
# Shapes as transcripts

Building a shape in an arena gives a handle for the tree that the shape makes without one.
-/

namespace SphereTracer

namespace Simulation

variable (sim : Simulation) {pairs : List (Handle × Tree)} {a b k : Handle} {s t u : Tree}

theorem planar (i j : Axis) (ha : Known pairs a s) :
    sim.Rel (Known pairs) (Build.planar a i j) (Build.planar s i j) id := by
  refine sim.andThen (sim.component i ha) fun x => ?_
  refine sim.andThen (sim.component j (by simp [ha])) fun y => ?_
  refine sim.andThen (sim.splat 0.0) fun zero => ?_
  exact sim.compose (by simp) (by simp) (by simp)

theorem blend (inward outward : Binary) (hk : Known pairs k u) (ha : Known pairs a s)
    (hb : Known pairs b t) :
    sim.Rel (Known pairs) (Build.blend inward outward k a b) (Build.blend inward outward u s t)
      id := by
  refine sim.andThen (sim.splat 0.5) fun half => ?_
  refine sim.andThen (sim.splat 0.0) fun zero => ?_
  refine sim.andThen (sim.splat 1.0) fun one => ?_
  refine sim.andThen (sim.binary .sub (by simp [hb]) (by simp [ha])) fun delta => ?_
  refine sim.andThen (sim.binary .div (by simp) (by simp [hk])) fun ratio => ?_
  refine sim.andThen (sim.binary .mul (by simp) (by simp)) fun scaled => ?_
  refine sim.andThen (sim.binary inward (by simp) (by simp)) fun biased => ?_
  refine sim.andThen (sim.clamp (by simp) (by simp) (by simp)) fun h => ?_
  refine sim.andThen (sim.mix (by simp [hb]) (by simp [ha]) (by simp)) fun blended => ?_
  refine sim.andThen (sim.binary .sub (by simp) (by simp)) fun rest => ?_
  refine sim.andThen (sim.binary .mul (by simp [hk]) (by simp)) fun kh => ?_
  refine sim.andThen (sim.binary .mul (by simp) (by simp)) fun bump => ?_
  exact sim.binary outward (by simp) (by simp)

end Simulation

namespace Shape

/-- No node of an arena is captured by any parameter. -/
def Closed {κ : Type} : Shape κ → Prop
  | field distance => distance.Closed
  | sphere radius => radius.Closed
  | plane normal offset => normal.Closed ∧ offset.Closed
  | cuboid half => half.Closed
  | cylinder radius => radius.Closed
  | torus major minor => major.Closed ∧ minor.Closed
  | mandelbulb power _ => power.Closed
  | sierpinski _ base => base.Closed
  | translate offset a => offset.Closed ∧ a.Closed
  | scale factor a => factor.Closed ∧ a.Closed
  | stretch factor a => factor.Closed ∧ a.Closed
  | .repeat period a => period.Closed ∧ a.Closed
  | modulate period buffer inner => period.Closed ∧ buffer.Closed ∧ inner.Closed
  | choose selector _ shapes => selector.Closed ∧ ∀ i, (shapes i).Closed
  | union a b => a.Closed ∧ b.Closed
  | intersection a b => a.Closed ∧ b.Closed
  | difference a b => a.Closed ∧ b.Closed
  | smoothUnion k a b => k.Closed ∧ a.Closed ∧ b.Closed
  | smoothIntersection k a b => k.Closed ∧ a.Closed ∧ b.Closed
  | smoothDifference k a b => k.Closed ∧ a.Closed ∧ b.Closed
  | expand amount a => amount.Closed ∧ a.Closed
  | clampPositive a => a.Closed
  | mirror normal a => normal.Closed ∧ a.Closed
  | rotate axis angle a => axis.Closed ∧ angle.Closed ∧ a.Closed
  | wrapX a => a.Closed

open Build

/-- A shape that captures no node is built as its transcript says. -/
theorem assemble_related (sim : Simulation) {shape : Shape Word} (hs : shape.Closed)
    {pairs : List (Handle × Tree)} {p c : Handle} {p' c' : Tree} (hp : Known pairs p p')
    (hc : Known pairs c c') :
    sim.Rel (Known pairs) (shape.assemble ⟨p, c⟩) (shape.assemble ⟨p', c'⟩) id := by
  -- By induction on the shape; its parts are built at other positions, with more handles known.
  induction shape generalizing pairs p p' c c' with
  | field distance => exact Term.assemble_related sim hs hp hc
  | sphere radius =>
    refine sim.andThen (sim.unary .length hp) fun l => ?_
    refine sim.andThen (Term.assemble_related sim hs (by simp [hp]) (by simp [hc])) fun r => ?_
    exact sim.binary .sub (by simp) (by simp)
  | plane normal offset =>
    refine sim.andThen (Term.assemble_related sim hs.1 hp hc) fun n => ?_
    refine sim.andThen (sim.binary .dot (by simp [hp]) (by simp)) fun d => ?_
    refine sim.andThen (Term.assemble_related sim hs.2 (by simp [hp]) (by simp [hc])) fun o => ?_
    exact sim.binary .add (by simp) (by simp)
  | cuboid half =>
    refine sim.andThen (Term.assemble_related sim hs hp hc) fun h => ?_
    refine sim.andThen (sim.unary .abs (by simp [hp])) fun a => ?_
    refine sim.andThen (sim.binary .sub (by simp) (by simp)) fun d => ?_
    refine sim.andThen (sim.splat 0.0) fun zero => ?_
    refine sim.andThen (sim.binary .max (by simp) (by simp)) fun positive => ?_
    refine sim.andThen (sim.unary .length (by simp)) fun outside => ?_
    refine sim.andThen (sim.lanes .max (by simp)) fun largest => ?_
    refine sim.andThen (sim.binary .min (by simp) (by simp)) fun inside => ?_
    exact sim.binary .add (by simp) (by simp)
  | cylinder radius =>
    refine sim.andThen (sim.planar .x .z hp) fun xz => ?_
    refine sim.andThen (sim.unary .length (by simp)) fun l => ?_
    refine sim.andThen (Term.assemble_related sim hs (by simp [hp]) (by simp [hc])) fun r => ?_
    exact sim.binary .sub (by simp) (by simp)
  | torus major minor =>
    refine sim.andThen (sim.planar .x .z hp) fun xz => ?_
    refine sim.andThen (sim.unary .length (by simp)) fun l => ?_
    refine sim.andThen (Term.assemble_related sim hs.1 (by simp [hp]) (by simp [hc])) fun big => ?_
    refine sim.andThen (sim.binary .sub (by simp) (by simp)) fun ring => ?_
    refine sim.andThen (sim.component .y (by simp [hp])) fun y => ?_
    refine sim.andThen (sim.splat 0.0) fun zero => ?_
    refine sim.andThen (sim.compose (by simp) (by simp) (by simp)) fun q => ?_
    refine sim.andThen (sim.unary .length (by simp)) fun lq => ?_
    refine sim.andThen (Term.assemble_related sim hs.2 (by simp [hp]) (by simp [hc]))
      fun small => ?_
    exact sim.binary .sub (by simp) (by simp)
  | mandelbulb power n =>
    refine sim.andThen (Term.assemble_related sim hs hp hc) fun k => ?_
    exact sim.mandelbulb n (by simp [hp]) (by simp)
  | sierpinski n base ih =>
    refine sim.andThen (sim.fold n hp) fun folded => ?_
    refine sim.andThen (ih hs (by simp) (by simp [hc])) fun d => ?_
    refine sim.andThen (sim.splat _) fun s => ?_
    exact sim.binary .mul (by simp) (by simp)
  | translate offset a ih =>
    refine sim.andThen (Term.assemble_related sim hs.1 hp hc) fun o => ?_
    refine sim.andThen (sim.binary .sub (by simp [hp]) (by simp)) fun q => ?_
    exact ih hs.2 (by simp) (by simp [hc])
  | scale factor a ih =>
    refine sim.andThen (Term.assemble_related sim hs.1 hp hc) fun f => ?_
    refine sim.andThen (sim.component .x (by simp)) fun s => ?_
    refine sim.andThen (sim.binary .div (by simp [hp]) (by simp)) fun q => ?_
    refine sim.andThen (ih hs.2 (by simp) (by simp [hc])) fun d => ?_
    exact sim.binary .mul (by simp) (by simp)
  | stretch factor a ih =>
    refine sim.andThen (Term.assemble_related sim hs.1 hp hc) fun f => ?_
    refine sim.andThen (sim.binary .div (by simp [hp]) (by simp)) fun q => ?_
    refine sim.andThen (ih hs.2 (by simp) (by simp [hc])) fun d => ?_
    refine sim.andThen (sim.lanes .min (by simp)) fun m => ?_
    exact sim.binary .mul (by simp) (by simp)
  | «repeat» period a ih =>
    refine sim.andThen (Term.assemble_related sim hs.1 hp hc) fun x => ?_
    refine sim.andThen (sim.splat 0.5) fun halfFactor => ?_
    refine sim.andThen (sim.binary .mul (by simp) (by simp)) fun half => ?_
    refine sim.andThen (sim.binary .sub (by simp [hp]) (by simp)) fun shifted => ?_
    refine sim.andThen (sim.binary .mod (by simp) (by simp)) fun wrapped => ?_
    refine sim.andThen (sim.binary .sub (by simp) (by simp)) fun q => ?_
    exact ih hs.2 (by simp) (by simp [hc])
  | modulate period buffer inner ih =>
    refine sim.andThen (Term.assemble_related sim hs.1 hp hc) fun x => ?_
    refine sim.andThen (sim.splat 0.5) fun halfFactor => ?_
    refine sim.andThen (sim.binary .mul (by simp) (by simp)) fun half => ?_
    refine sim.andThen (sim.binary .add (by simp [hp]) (by simp)) fun shifted => ?_
    refine sim.andThen (sim.binary .div (by simp) (by simp)) fun scaled => ?_
    refine sim.andThen (sim.unary .floor (by simp)) fun index => ?_
    refine sim.andThen (sim.binary .mul (by simp) (by simp)) fun center => ?_
    refine sim.andThen (sim.binary .sub (by simp [hp]) (by simp)) fun offset => ?_
    refine sim.andThen (Term.assemble_related sim hs.2.1 (by simp [hp]) (by simp [hc]))
      fun pad => ?_
    refine sim.andThen (sim.binary .add (by simp) (by simp)) fun extent => ?_
    refine sim.andThen (sim.unary .abs (by simp)) fun a => ?_
    refine sim.andThen (sim.binary .sub (by simp) (by simp)) fun room => ?_
    refine sim.andThen (sim.lanes .min (by simp)) fun mask => ?_
    refine sim.andThen (ih hs.2.2 (by simp) (by simp)) fun d => ?_
    exact sim.binary .min (by simp) (by simp)
  | choose selector n shapes ih =>
    refine sim.andThen (Term.assemble_related sim hs.1 hp hc) fun x => ?_
    refine sim.andThen (sim.splat 0.0) fun zero => ?_
    refine sim.foldlM (fun i pairs' h t hsub hh => ?_) _ (by simp)
    refine sim.andThen (ih i (hs.2 i) (hsub _ _ (by simp [hp])) (hsub _ _ (by simp [hc])))
      fun d => ?_
    refine sim.andThen (sim.splat _) fun bound => ?_
    have hx : Known pairs' x (selector.assemble ⟨p', c'⟩ : Transcript Tree).result :=
      hsub _ _ (by simp)
    exact sim.select (by simp [hx]) (by simp) (by simp) (by simp [hh])
  | union a b iha ihb =>
    refine sim.andThen (iha hs.1 hp hc) fun da => ?_
    refine sim.andThen (ihb hs.2 (by simp [hp]) (by simp [hc])) fun db => ?_
    exact sim.binary .min (by simp) (by simp)
  | intersection a b iha ihb =>
    refine sim.andThen (iha hs.1 hp hc) fun da => ?_
    refine sim.andThen (ihb hs.2 (by simp [hp]) (by simp [hc])) fun db => ?_
    exact sim.binary .max (by simp) (by simp)
  | difference a b iha ihb =>
    refine sim.andThen (iha hs.1 hp hc) fun da => ?_
    refine sim.andThen (ihb hs.2 (by simp [hp]) (by simp [hc])) fun db => ?_
    refine sim.andThen (sim.unary .neg (by simp)) fun nb => ?_
    exact sim.binary .max (by simp) (by simp)
  | smoothUnion k a b iha ihb =>
    refine sim.andThen (Term.assemble_related sim hs.1 hp hc) fun k => ?_
    refine sim.andThen (iha hs.2.1 (by simp [hp]) (by simp [hc])) fun da => ?_
    refine sim.andThen (ihb hs.2.2 (by simp [hp]) (by simp [hc])) fun db => ?_
    exact sim.blend .add .sub (by simp) (by simp) (by simp)
  | smoothIntersection k a b iha ihb =>
    refine sim.andThen (Term.assemble_related sim hs.1 hp hc) fun k => ?_
    refine sim.andThen (iha hs.2.1 (by simp [hp]) (by simp [hc])) fun da => ?_
    refine sim.andThen (ihb hs.2.2 (by simp [hp]) (by simp [hc])) fun db => ?_
    exact sim.blend .sub .add (by simp) (by simp) (by simp)
  | smoothDifference k a b iha ihb =>
    refine sim.andThen (Term.assemble_related sim hs.1 hp hc) fun k => ?_
    refine sim.andThen (iha hs.2.1 (by simp [hp]) (by simp [hc])) fun da => ?_
    refine sim.andThen (ihb hs.2.2 (by simp [hp]) (by simp [hc])) fun db => ?_
    refine sim.andThen (sim.unary .neg (by simp)) fun nb => ?_
    exact sim.blend .sub .add (by simp) (by simp) (by simp)
  | expand amount a ih =>
    refine sim.andThen (ih hs.2 hp hc) fun d => ?_
    refine sim.andThen (Term.assemble_related sim hs.1 (by simp [hp]) (by simp [hc])) fun k => ?_
    refine sim.andThen (sim.component .x (by simp)) fun kx => ?_
    exact sim.binary .sub (by simp) (by simp)
  | clampPositive a ih =>
    refine sim.andThen (sim.splat 0.0) fun zero => ?_
    refine sim.andThen (sim.binary .max (by simp [hp]) (by simp)) fun q => ?_
    exact ih hs (by simp) (by simp [hc])
  | mirror normal a ih =>
    refine sim.andThen (Term.assemble_related sim hs.1 hp hc) fun n => ?_
    refine sim.andThen (sim.splat 0.0) fun zero => ?_
    refine sim.andThen (sim.splat 2.0) fun two => ?_
    refine sim.andThen (sim.binary .dot (by simp [hp]) (by simp)) fun along => ?_
    refine sim.andThen (sim.binary .min (by simp) (by simp)) fun behind => ?_
    refine sim.andThen (sim.binary .mul (by simp) (by simp)) fun twice => ?_
    refine sim.andThen (sim.binary .mul (by simp) (by simp)) fun shift => ?_
    refine sim.andThen (sim.binary .sub (by simp [hp]) (by simp)) fun q => ?_
    exact ih hs.2 (by simp) (by simp [hc])
  | rotate axis angle a ih =>
    refine sim.andThen (Term.assemble_related sim hs.1 hp hc) fun k => ?_
    refine sim.andThen (Term.assemble_related sim hs.2.1 (by simp [hp]) (by simp [hc]))
      fun theta => ?_
    refine sim.andThen (sim.unary .neg (by simp)) fun back => ?_
    refine sim.andThen (sim.rotate (by simp [hp]) (by simp) (by simp)) fun q => ?_
    exact ih hs.2.2 (by simp) (by simp [hc])
  | wrapX a ih =>
    refine sim.andThen (sim.planar .y .z hp) fun yz => ?_
    refine sim.andThen (sim.unary .length (by simp)) fun c => ?_
    refine sim.andThen (sim.splat 1e-6) fun tiny => ?_
    refine sim.andThen (sim.binary .max (by simp) (by simp)) fun safe => ?_
    refine sim.andThen (sim.component .y (by simp [hp])) fun y => ?_
    refine sim.andThen (sim.binary .div (by simp) (by simp)) fun ratio => ?_
    refine sim.andThen (sim.splat (-1.0)) fun low => ?_
    refine sim.andThen (sim.splat 1.0) fun high => ?_
    refine sim.andThen (sim.clamp (by simp) (by simp) (by simp)) fun clamped => ?_
    refine sim.andThen (sim.unary .asin (by simp)) fun angle => ?_
    refine sim.andThen (sim.component .x (by simp [hp])) fun x => ?_
    refine sim.andThen (sim.compose (by simp) (by simp) (by simp)) fun q => ?_
    refine sim.andThen (ih hs (by simp) (by simp [hc])) fun d => ?_
    refine sim.andThen (sim.component .z (by simp [hp])) fun z => ?_
    refine sim.andThen (sim.unary .abs (by simp)) fun az => ?_
    refine sim.andThen (sim.splat 0.01) fun least => ?_
    refine sim.andThen (sim.binary .max (by simp) (by simp)) fun lifted => ?_
    refine sim.andThen (sim.binary .min (by simp) (by simp)) fun correction => ?_
    exact sim.binary .mul (by simp) (by simp)

theorem assemble_follows {shape : Shape Word} (hs : shape.Closed) {pairs : List (Handle × Tree)}
    {p c : Handle} {p' c' : Tree} (hp : Known pairs p p') (hc : Known pairs c c') :
    Follows (Known pairs) (shape.assemble ⟨p, c⟩) (shape.assemble ⟨p', c'⟩) id :=
  assemble_related .inRoom hs hp hc

end Shape

end SphereTracer
