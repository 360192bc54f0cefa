import SphereTracer.Proofs.Shape.Alone
import SphereTracer.Proofs.Shape.Library
import SphereTracer.Proofs.Shape.LowerBound

/-!
# Scalars are first lanes

Where a shape wants a scalar it reads the first lane of a term or of a distance, so a vector may stand
there as well.  The edges of a rounded box are the exception: where the box is shrunk, all lanes of
their radius are read.
-/

namespace SphereTracer

open SphereTracer.Graph

/-- A term, or its first lane in all lanes. -/
inductive Term.Narrowed : Term Word → Term Word → Prop
  | same (t : Term Word) : Narrowed t t
  | first (t : Term Word) : Narrowed t (.component t .x)

namespace Shape

variable {S : Type} [Scalar S]

/-- The second shape is the first one with scalars narrowed to their first lanes, in any of the places
for scalars: the radius of a ball, a cylinder or a torus, the offset of a plane, the power of a bulb,
the factor of a scale, the amount of an expansion, the size of a blend, an angle, the rate of a twist,
a selector, and every distance of a part.  The radius of a rounded box may be narrowed if its lanes
are the same. -/
inductive Narrowed (bindings : Bindings S) : Shape Word → Shape Word → Prop
  | same (a : Shape Word) : Narrowed bindings a a
  | sphere {r r' : Term Word} (hr : r.Narrowed r') : Narrowed bindings (sphere r) (sphere r')
  | plane (normal : Term Word) {o o' : Term Word} (ho : o.Narrowed o') :
      Narrowed bindings (plane normal o) (plane normal o')
  | cylinder {r r' : Term Word} (hr : r.Narrowed r') : Narrowed bindings (cylinder r) (cylinder r')
  | torus {r r' s s' : Term Word} (hr : r.Narrowed r') (hs : s.Narrowed s') :
      Narrowed bindings (torus r s) (torus r' s')
  | mandelbulb {p p' : Term Word} (hp : p.Narrowed p') (n : UInt32) :
      Narrowed bindings (mandelbulb p n) (mandelbulb p' n)
  | smoothBox (dimensions : Term Word) {r r' : Term Word} (hr : r.Narrowed r')
      (hlanes : ∀ site, ∃ c, r.value Scalar.ofWord bindings site = .splat c) :
      Narrowed bindings (smoothBox dimensions r) (smoothBox dimensions r')
  | sierpinski (n : UInt32) {a a' : Shape Word} (ha : Narrowed bindings a a') :
      Narrowed bindings (sierpinski n a) (sierpinski n a')
  | translate (offset : Term Word) {a a' : Shape Word} (ha : Narrowed bindings a a') :
      Narrowed bindings (translate offset a) (translate offset a')
  | scale {f f' : Term Word} (hf : f.Narrowed f') {a a' : Shape Word}
      (ha : Narrowed bindings a a') : Narrowed bindings (scale f a) (scale f' a')
  | stretch (factor : Term Word) {a a' : Shape Word} (ha : Narrowed bindings a a') :
      Narrowed bindings (stretch factor a) (stretch factor a')
  | repeat (period : Term Word) {a a' : Shape Word} (ha : Narrowed bindings a a') :
      Narrowed bindings (.repeat period a) (.repeat period a')
  | modulate (period buffer : Term Word) {a a' : Shape Word} (ha : Narrowed bindings a a') :
      Narrowed bindings (modulate period buffer a) (modulate period buffer a')
  | choose {s s' : Term Word} (hs : s.Narrowed s') {n : Nat} {shapes shapes' : Fin n → Shape Word}
      (ha : ∀ i, Narrowed bindings (shapes i) (shapes' i)) :
      Narrowed bindings (choose s n shapes) (choose s' n shapes')
  | union {a a' b b' : Shape Word} (ha : Narrowed bindings a a') (hb : Narrowed bindings b b') :
      Narrowed bindings (union a b) (union a' b')
  | intersection {a a' b b' : Shape Word} (ha : Narrowed bindings a a')
      (hb : Narrowed bindings b b') : Narrowed bindings (intersection a b) (intersection a' b')
  | difference {a a' b b' : Shape Word} (ha : Narrowed bindings a a')
      (hb : Narrowed bindings b b') : Narrowed bindings (difference a b) (difference a' b')
  | smoothUnion {k k' : Term Word} (hk : k.Narrowed k') {a a' b b' : Shape Word}
      (ha : Narrowed bindings a a') (hb : Narrowed bindings b b') :
      Narrowed bindings (smoothUnion k a b) (smoothUnion k' a' b')
  | smoothIntersection {k k' : Term Word} (hk : k.Narrowed k') {a a' b b' : Shape Word}
      (ha : Narrowed bindings a a') (hb : Narrowed bindings b b') :
      Narrowed bindings (smoothIntersection k a b) (smoothIntersection k' a' b')
  | smoothDifference {k k' : Term Word} (hk : k.Narrowed k') {a a' b b' : Shape Word}
      (ha : Narrowed bindings a a') (hb : Narrowed bindings b b') :
      Narrowed bindings (smoothDifference k a b) (smoothDifference k' a' b')
  | expand {k k' : Term Word} (hk : k.Narrowed k') {a a' : Shape Word}
      (ha : Narrowed bindings a a') : Narrowed bindings (expand k a) (expand k' a')
  | clampPositive {a a' : Shape Word} (ha : Narrowed bindings a a') :
      Narrowed bindings (clampPositive a) (clampPositive a')
  | mirror (normal : Term Word) {a a' : Shape Word} (ha : Narrowed bindings a a') :
      Narrowed bindings (mirror normal a) (mirror normal a')
  | rotate (axis : Term Word) {t t' : Term Word} (ht : t.Narrowed t') {a a' : Shape Word}
      (ha : Narrowed bindings a a') : Narrowed bindings (rotate axis t a) (rotate axis t' a')
  | twist (axis : Axis) {t t' : Term Word} (ht : t.Narrowed t') {a a' : Shape Word}
      (ha : Narrowed bindings a a') : Narrowed bindings (twist axis t a) (twist axis t' a')
  | wrapX {a a' : Shape Word} (ha : Narrowed bindings a a') :
      Narrowed bindings (wrapX a) (wrapX a')
  | distance {a a' b : Shape Word} (ha : Narrowed bindings a a')
      (hb : ∀ site, b.value Scalar.ofWord bindings site =
        .splat (a'.value Scalar.ofWord bindings site).x) : Narrowed bindings a b

end Shape

section
variable {S : Type} [Scalar S] {bindings : Bindings S}

theorem Term.Narrowed.value_x {t t' : Term Word} (h : t.Narrowed t') (site : Site (Vec3 S)) :
    (t.value Scalar.ofWord bindings site).x = (t'.value Scalar.ofWord bindings site).x := by
  cases h <;> rfl

/-- Narrowing equal lanes changes nothing. -/
theorem Term.Narrowed.value_eq {t t' : Term Word} (h : t.Narrowed t')
    {site : Site (Vec3 S)} (hlanes : ∃ c, t.value Scalar.ofWord bindings site = .splat c) :
    t.value Scalar.ofWord bindings site = t'.value Scalar.ofWord bindings site := by
  cases h with
  | same => rfl
  | first =>
    obtain ⟨c, hc⟩ := hlanes
    show _ = Vec3.splat (t.value Scalar.ofWord bindings site).x
    rw [hc]
    rfl

theorem smoothMin_splat_x (k a b : Vec3 S) :
    smoothMin (.splat k.x) (.splat a.x) (.splat b.x) = .splat (smoothMin k a b).x := rfl

theorem smoothMax_splat_x (k a b : Vec3 S) :
    smoothMax (.splat k.x) (.splat a.x) (.splat b.x) = .splat (smoothMax k a b).x := rfl

theorem smoothMin_x_congr {k k' a a' b b' : Vec3 S} (hk : k.x = k'.x) (ha : a.x = a'.x)
    (hb : b.x = b'.x) : (smoothMin k a b).x = (smoothMin k' a' b').x := by
  have h := smoothMin_splat_x k a b
  rw [hk, ha, hb, smoothMin_splat_x] at h
  injection h.symm

theorem smoothMax_x_congr {k k' a a' b b' : Vec3 S} (hk : k.x = k'.x) (ha : a.x = a'.x)
    (hb : b.x = b'.x) : (smoothMax k a b).x = (smoothMax k' a' b').x := by
  have h := smoothMax_splat_x k a b
  rw [hk, ha, hb, smoothMax_splat_x] at h
  injection h.symm

namespace Shape

/-- A rounded box reads nothing of its radius but the value. -/
theorem smoothBox_congr (dimensions : Term Word) {r r' : Term Word}
    (h : ∀ site, r.value Scalar.ofWord bindings site = r'.value Scalar.ofWord bindings site)
    (site : Site (Vec3 S)) :
    (smoothBox dimensions r).value Scalar.ofWord bindings site =
      (smoothBox dimensions r').value Scalar.ofWord bindings site := by
  have hcorner (r : Term Word) (site : Site (Vec3 S)) :
      (Term.after (dimensions - r) (0.5 * (dimensions - r))).value Scalar.ofWord bindings site =
        (0.5 : Term Word).value Scalar.ofWord bindings site *
          (dimensions.value Scalar.ofWord bindings site - r.value Scalar.ofWord bindings site) := rfl
  simp only [smoothBox, value, hcorner, h]

theorem Narrowed.value_x {a a' : Shape Word} (h : Narrowed bindings a a') (site : Site (Vec3 S)) :
    (a.value Scalar.ofWord bindings site).x = (a'.value Scalar.ofWord bindings site).x := by
  induction h generalizing site with
  | same => rfl
  | sphere hr => exact congrArg (site.point.length - ·) (hr.value_x site)
  | plane normal ho =>
    exact congrArg (site.point.dot (normal.value Scalar.ofWord bindings site) + ·) (ho.value_x site)
  | cylinder hr => exact congrArg (_ - ·) (hr.value_x site)
  | torus hr hs =>
    show Vec3.length ⟨_ - (Term.value _ _ _ _).x, _, _⟩ - (Term.value _ _ _ _).x = _
    rw [hr.value_x site, hs.value_x site]
    rfl
  | mandelbulb hp n => exact congrArg (Intrinsic.mandelbulb site.point · n) (hp.value_x site)
  | smoothBox dimensions hr hlanes =>
    exact congrArg Vec3.x (smoothBox_congr dimensions (fun site => hr.value_eq (hlanes site)) site)
  | sierpinski n _ ih => exact congrArg (· * _) (ih _)
  | translate offset _ ih => exact ih _
  | scale hf _ ih =>
    show (value _ _ (site.moved (site.point / .splat (Term.value _ _ _ _).x)) _).x *
      (Term.value _ _ _ _).x = _
    rw [hf.value_x site, ih]
    rfl
  | stretch factor _ ih => exact congrArg (· * _) (ih _)
  | «repeat» period _ ih => exact ih _
  | modulate period buffer _ ih => exact congrArg (Scalar.min _) (ih _)
  | choose hs _ ih =>
    simp only [value, hs.value_x site]
    refine List.foldr_rel (r := fun (v v' : Vec3 S) => v.x = v'.x) rfl fun i _ v v' hv => ?_
    split
    · exact ih i site
    · exact hv
  | union _ _ iha ihb => exact congrArg₂ Scalar.min (iha site) (ihb site)
  | intersection _ _ iha ihb => exact congrArg₂ Scalar.max (iha site) (ihb site)
  | difference _ _ iha ihb => exact congrArg₂ Scalar.max (iha site) (congrArg (-·) (ihb site))
  | smoothUnion hk _ _ iha ihb =>
    exact smoothMin_x_congr (hk.value_x site) (iha site) (ihb site)
  | smoothIntersection hk _ _ iha ihb =>
    exact smoothMax_x_congr (hk.value_x site) (iha site) (ihb site)
  | smoothDifference hk _ _ iha ihb =>
    exact smoothMax_x_congr (hk.value_x site) (iha site) (congrArg (-·) (ihb site))
  | expand hk _ ih => exact congrArg₂ (· - ·) (ih site) (hk.value_x site)
  | clampPositive _ ih => exact ih _
  | mirror normal _ ih => exact ih _
  | rotate axis ht _ ih =>
    show (value _ _ (site.moved (Intrinsic.rotate _ _ (-(Term.value _ _ _ _).x))) _).x = _
    rw [ht.value_x site]
    exact ih _
  | twist axis ht _ ih =>
    show (value _ _ (site.moved (Intrinsic.rotate _ _
      (-(axis.lane site.point * (Term.value _ _ _ _).x)))) _).x = _
    rw [ht.value_x site]
    exact ih _
  | wrapX _ ih => exact congrArg (· * _) (ih _)
  | distance _ hb ih =>
    rw [ih, hb]
    rfl

/-! ## Distances in all lanes -/

/-- The shape that has the distance of a shape in all lanes. -/
def narrow : Shape Word → Shape Word
  | field t => field (.component t .x)
  | sphere r => sphere (.component r .x)
  | plane normal o => plane normal (.component o .x)
  | cuboid half => cuboid half
  | cylinder r => cylinder (.component r .x)
  | torus r s => torus r (.component s .x)
  | mandelbulb p n => mandelbulb p n
  | sierpinski n a => sierpinski n a.narrow
  | translate offset a => translate offset a.narrow
  | scale f a => scale f a.narrow
  | stretch f a => stretch f a.narrow
  | .repeat period a => .repeat period a.narrow
  | modulate period buffer a => modulate period buffer a.narrow
  | choose s n shapes => choose s n fun i => (shapes i).narrow
  | union a b => union a.narrow b.narrow
  | intersection a b => intersection a.narrow b.narrow
  | difference a b => difference a.narrow b.narrow
  | smoothUnion k a b => smoothUnion (.component k .x) a.narrow b.narrow
  | smoothIntersection k a b => smoothIntersection (.component k .x) a.narrow b.narrow
  | smoothDifference k a b => smoothDifference (.component k .x) a.narrow b.narrow
  | expand k a => expand k a.narrow
  | clampPositive a => clampPositive a.narrow
  | mirror normal a => mirror normal a.narrow
  | rotate axis t a => rotate axis t a.narrow
  | wrapX a => wrapX a.narrow

theorem value_narrow (a : Shape Word) (site : Site (Vec3 S)) :
    a.narrow.value Scalar.ofWord bindings site = .splat (a.value Scalar.ofWord bindings site).x := by
  induction a generalizing site with
  | choose s n shapes ih =>
    simp only [narrow, value]
    refine List.foldr_rel (r := fun (v v' : Vec3 S) => v = .splat v'.x) rfl fun i _ v v' hv => ?_
    split
    · exact ih i site
    · exact hv
  | smoothUnion k a b iha ihb =>
    simp only [narrow, value, iha, ihb]
    exact smoothMin_splat_x _ _ _
  | smoothIntersection k a b iha ihb =>
    simp only [narrow, value, iha, ihb]
    exact smoothMax_splat_x _ _ _
  | smoothDifference k a b iha ihb =>
    simp only [narrow, value, iha, ihb]
    exact smoothMax_splat_x _ _ (-b.value Scalar.ofWord bindings site)
  | _ => simp only [narrow, value, *] <;> rfl

theorem narrow_closed {a : Shape Word} (ha : a.Closed) : a.narrow.Closed := by
  induction a <;> simp_all [narrow, Closed, Term.Closed]

end Shape

end

/-! ## Compiled shapes -/

namespace Shape

/-- Narrowing scalars leaves the distance of a shape as it is: at every point, in every cell and for
all values of the variables, in any arithmetic.  It leaves what is computed for the compiled shape as
it is, wherever it is built, as long as both shapes stay within the limits.  And every distance can be
narrowed: some shape has it in all lanes. -/
theorem narrowed_distance (a a' : Shape Word) :
    (∀ {S : Type} [Scalar S] {bindings : Bindings S}, Narrowed bindings a a' →
      ∀ site, (a.value Scalar.ofWord bindings site).x = (a'.value Scalar.ofWord bindings site).x) ∧
    (∀ {bindings : Bindings Float32}, Narrowed bindings a a' → a.Closed → a'.Closed →
      ∀ {arena : Arena} {p : Handle} {t : Tree}, arena.WellFormed → Denotes arena.nodes p t →
      let built := (a.buildAt p).run arena
      let built' := (a'.buildAt p).run arena
      built.2.size ≤ UInt32.size → ¬ Walk.Exceeds built.2.nodes [built.1] →
      built'.2.size ≤ UInt32.size → ¬ Walk.Exceeds built'.2.nodes [built'.1] →
      ∃ order order', flatten built.2.nodes [built.1] = .ok order ∧
        flatten built'.2.nodes [built'.1] = .ok order' ∧
        ∀ slots slots' : Slots Float32, slots.size = built.2.size → slots'.size = built'.2.size →
          ((slots.run built.2.nodes order bindings).get built.1).x =
            ((slots'.run built'.2.nodes order' bindings).get built'.1).x) ∧
    ∃ b : Shape Word, (a.Closed → b.Closed) ∧
      ∀ {S : Type} [Scalar S] (bindings : Bindings S) (site : Site (Vec3 S)),
        b.value Scalar.ofWord bindings site = .splat (a.value Scalar.ofWord bindings site).x := by
  refine ⟨fun h site => h.value_x site, ?_,
    ⟨a.narrow, narrow_closed, fun bindings site => value_narrow a site⟩⟩
  intro bindings h hclosed hclosed' arena p t harena hp built built' hsize hwithin hsize' hwithin'
  obtain ⟨order, horder, hvalue⟩ := exists_order_value hclosed harena hp hsize hwithin
  obtain ⟨order', horder', hvalue'⟩ := exists_order_value hclosed' harena hp hsize' hwithin'
  refine ⟨order, order', horder, horder', fun slots slots' hslots hslots' => ?_⟩
  rw [hvalue bindings slots hslots, hvalue' bindings slots' hslots']
  exact h.value_x _

/-- A twisted ball that swells with the pointer, beside a vector for a distance. -/
def felt : Shape Word :=
  union (expand (.var .mouse) (twist .y (.var .time) (sphere (.var .position))))
    (field (.var .position))

/-- The first lanes of the same vectors. -/
def feltNarrowed : Shape Word :=
  union (expand (.component (.var .mouse) .x) (twist .y (.component (.var .time) .x)
    (sphere (.component (.var .position) .x)))) (field (.component (.var .position) .x))

theorem narrowed_distance_felt :
    let base := (Build.var .position : Build Handle).run ∅
    let built := (felt.buildAt base.1).run base.2
    let built' := (feltNarrowed.buildAt base.1).run base.2
    (∀ (bindings : Bindings Float32) (site : Site (Vec3 Float32)),
      (felt.value Scalar.ofWord bindings site).x =
        (feltNarrowed.value Scalar.ofWord bindings site).x) ∧
    ∀ bindings : Bindings Float32,
      ∃ order order', flatten built.2.nodes [built.1] = .ok order ∧
        flatten built'.2.nodes [built'.1] = .ok order' ∧
        ∀ slots slots' : Slots Float32, slots.size = built.2.size → slots'.size = built'.2.size →
          ((slots.run built.2.nodes order bindings).get built.1).x =
            ((slots'.run built'.2.nodes order' bindings).get built'.1).x := by
  have hnarrowed (bindings : Bindings Float32) : Narrowed bindings felt feltNarrowed :=
    .union (.expand (.first _) (.twist .y (.first _) (.sphere (.first _))))
      (.distance (.same _) fun _ => rfl)
  have hclosed : felt.Closed := ⟨⟨trivial, trivial, ⟨trivial, trivial⟩, trivial⟩, trivial⟩
  have hclosed' : feltNarrowed.Closed := ⟨⟨trivial, trivial, ⟨trivial, trivial⟩, trivial⟩, trivial⟩
  have hlength : (felt.assemble (.outer (.node (.var .position))) :
      Transcript Tree).made.length = 14 := rfl
  have hlength' : (feltNarrowed.assemble (.outer (.node (.var .position))) :
      Transcript Tree).made.length = 18 := rfl
  obtain ⟨hw, hp, hone⟩ := var_position_denotes
  obtain ⟨-, -, hsize, hwithin⟩ := buildAt_within hclosed hw hp (by omega)
  obtain ⟨-, -, hsize', hwithin'⟩ := buildAt_within hclosed' hw hp (by omega)
  obtain ⟨hvalues, hcompiled, -⟩ := narrowed_distance felt feltNarrowed
  exact ⟨fun bindings => hvalues (hnarrowed bindings), fun bindings =>
    hcompiled (hnarrowed bindings) hclosed hclosed' hw hp hsize hwithin hsize' hwithin'⟩

/-- Through an arena of its own, a shape of few operations has the distance that it means. -/
theorem distanceAt_of_few {shape : Shape Word} (hshape : shape.Closed)
    (hfew : (shape.assemble (.outer (.node (.var .position))) : Transcript Tree).made.length <
      262143) (point : Vec3 Float32) :
    shape.distanceAt point = .ok (shape.value Scalar.ofWord (.atPoint point) (.outer point)).x := by
  obtain ⟨hroom, hwithin⟩ := alone_within hshape hfew
  rw [distanceAt_eq_eval hshape hroom hwithin, eval_assemble hshape]
  rfl

/-- At the side of a rounded box whose edges are rounded by the position, the distance is not what it
is with the first lane of the position. -/
theorem not_narrowed_smoothBox :
    (smoothBox 2.0 (.var .position)).distanceAt ⟨0.5, 3.0, 0.0⟩ = .ok (3.25 : Float32) ∧
      (smoothBox 2.0 (.component (.var .position) .x)).distanceAt ⟨0.5, 3.0, 0.0⟩ =
        .ok (2.0 : Float32) ∧ (3.25 : Float32) ≠ 2.0 := by
  have htwo : (2.0 : Term Word).Closed := trivial
  have hclosed : (smoothBox 2.0 (.var .position)).Closed :=
    smoothBox_closed htwo (show (Term.var .position).Closed from trivial)
  have hclosed' : (smoothBox 2.0 (.component (.var .position) .x)).Closed :=
    smoothBox_closed htwo (show (Term.component (.var .position) .x).Closed from trivial)
  have hlength : ((smoothBox 2.0 (.var .position)).assemble (.outer (.node (.var .position))) :
      Transcript Tree).made.length = 42 := rfl
  have hlength' : ((smoothBox 2.0 (.component (.var .position) .x)).assemble
      (.outer (.node (.var .position))) : Transcript Tree).made.length = 45 := rfl
  refine ⟨?_, ?_, by decide +kernel⟩
  · rw [distanceAt_of_few hclosed (by rw [hlength]; omega)]
    exact congrArg Except.ok (by decide +kernel)
  · rw [distanceAt_of_few hclosed' (by rw [hlength']; omega)]
    exact congrArg Except.ok (by decide +kernel)

end Shape

end SphereTracer
