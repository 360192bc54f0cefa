import Mathlib
import SphereTracer.Proofs.Shape.Alone
import SphereTracer.Proofs.Shape.LowerBound

/-!
# Blends of two distances

Over the real numbers a smooth union is the least mixture of two distances, where every mixture is
lowered by a bump.  What holds of all mixtures holds of the least one: it is the same from both sides,
it falls as the bump grows, and it is below both distances by no more than the height of the bump.  A
smooth intersection is the same upside down.
-/

namespace SphereTracer

variable {k a b : ℝ}

/-- The least blend of two distances. -/
noncomputable def leastBlend (k a b : ℝ) : ℝ := blended k a b (leastWeight k a b)

theorem leastBlend_le (hk : 0 < k) (a b : ℝ) {h : ℝ} (hzero : 0 ≤ h) (hone : h ≤ 1) :
    leastBlend k a b ≤ blended k a b h :=
  (blended_least hk a b).2 h hzero hone

/-- A bound of all mixtures is one of the least. -/
theorem le_leastBlend (hk : 0 < k) {x : ℝ} (h : ∀ w, 0 ≤ w → w ≤ 1 → x ≤ blended k a b w) :
    x ≤ leastBlend k a b :=
  h _ (blended_least hk a b).1.1 (blended_least hk a b).1.2

theorem blended_zero (k a b : ℝ) : blended k a b 0 = b := by
  unfold blended
  ring

theorem blended_one (k a b : ℝ) : blended k a b 1 = a := by
  unfold blended
  ring

theorem blended_comm (k a b h : ℝ) : blended k a b h = blended k b a (1 - h) := by
  unfold blended
  ring

theorem blended_le_of_le {k' : ℝ} (hle : k ≤ k') (a b : ℝ) {h : ℝ} (hzero : 0 ≤ h) (hone : h ≤ 1) :
    blended k' a b h ≤ blended k a b h := by
  have hbump : k * (h * (1 - h)) ≤ k' * (h * (1 - h)) :=
    mul_le_mul_of_nonneg_right hle (mul_nonneg hzero (sub_nonneg.2 hone))
  unfold blended
  linarith

/-- The bump is highest in the middle, where it is a quarter of its size. -/
theorem le_blended (hk : 0 < k) (a b : ℝ) {h : ℝ} (hzero : 0 ≤ h) (hone : h ≤ 1) :
    min a b - k / 4 ≤ blended k a b h := by
  have hmean : min a b ≤ b * (1 - h) + a * h :=
    calc min a b = min a b * (1 - h) + min a b * h := by ring
      _ ≤ b * (1 - h) + a * h := by
        gcongr
        · exact min_le_right a b
        · exact min_le_left a b
  have hbump : k * (h * (1 - h)) ≤ k * (1 / 4) := by
    gcongr
    linarith [sq_nonneg (h - 1 / 2)]
  unfold blended
  linarith

theorem leastBlend_le_min (hk : 0 < k) (a b : ℝ) : leastBlend k a b ≤ min a b := by
  have ha := leastBlend_le hk a b zero_le_one le_rfl
  have hb := leastBlend_le hk a b le_rfl zero_le_one
  rw [blended_one] at ha
  rw [blended_zero] at hb
  exact le_min ha hb

theorem le_leastBlend_min (hk : 0 < k) (a b : ℝ) : min a b - k / 4 ≤ leastBlend k a b :=
  le_leastBlend hk fun _ => le_blended hk a b

theorem leastBlend_comm (hk : 0 < k) (a b : ℝ) : leastBlend k a b = leastBlend k b a := by
  have hle (a b : ℝ) : leastBlend k a b ≤ leastBlend k b a := by
    apply le_leastBlend hk
    intro w hzero hone
    rw [blended_comm]
    exact leastBlend_le hk a b (sub_nonneg.2 hone) (sub_le_self 1 hzero)
  exact (hle a b).antisymm (hle b a)

theorem leastBlend_anti (hk : 0 < k) {k' : ℝ} (hle : k ≤ k') (a b : ℝ) :
    leastBlend k' a b ≤ leastBlend k a b := by
  apply le_leastBlend hk
  intro w hzero hone
  exact (leastBlend_le (hk.trans_le hle) a b hzero hone).trans (blended_le_of_le hle a b hzero hone)

/-- Away from each other the distances do not blend: the lesser one has all of the weight. -/
theorem leastBlend_eq_left (hk : 0 < k) (h : k ≤ b - a) : leastBlend k a b = a := by
  have hweight : leastWeight k a b = 1 := by
    have hratio : 1 ≤ (b - a) / k := (one_le_div hk).2 h
    rw [leastWeight_eq, max_eq_left (by linarith), min_eq_right (by linarith)]
  rw [leastBlend, hweight, blended_one]

theorem leastBlend_eq_min (hk : 0 < k) (h : k ≤ |a - b|) : leastBlend k a b = min a b := by
  rcases le_total a b with hle | hle
  · rw [abs_of_nonpos (sub_nonpos.2 hle), neg_sub] at h
    rw [leastBlend_eq_left hk h, min_eq_left hle]
  · rw [abs_of_nonneg (sub_nonneg.2 hle)] at h
    rw [leastBlend_comm hk, leastBlend_eq_left hk h, min_eq_right hle]

/-! ## Upside down -/

section
variable {S : Type} [Scalar S]

def smin (k a b : S) : S := (smoothMin (.splat k) (.splat a) (.splat b)).x

def smax (k a b : S) : S := (smoothMax (.splat k) (.splat a) (.splat b)).x

end

theorem smin_eq (k a b : ℝ) : smin k a b = leastBlend k a b := smoothMin_x _ _ _

theorem smax_eq (k a b : ℝ) : smax k a b = -leastBlend k (-a) (-b) := smoothMax_x _ _ _

theorem max_le_neg_leastBlend (hk : 0 < k) (a b : ℝ) : max a b ≤ -leastBlend k (-a) (-b) := by
  have hle := leastBlend_le_min hk (-a) (-b)
  rw [min_neg_neg] at hle
  linarith

theorem neg_leastBlend_le (hk : 0 < k) (a b : ℝ) :
    -leastBlend k (-a) (-b) ≤ max a b + k / 4 := by
  have hle := le_leastBlend_min hk (-a) (-b)
  rw [min_neg_neg] at hle
  linarith

/-! ## Blended shapes -/

open Transcript

namespace Shape

section
variable (bindings : Bindings ℝ) (site : Site Tree) (size : Term Word) (a b : Shape Word)

theorem builtDistance_smoothUnion :
    (smoothUnion size a b).builtDistance bindings site =
      leastBlend ((field size).builtDistance bindings site) (a.builtDistance bindings site)
        (b.builtDistance bindings site) := by
  simp only [builtDistance, assemble, result_bind, eval_smoothMin, smoothMin_x]
  rfl

theorem builtDistance_smoothIntersection :
    (smoothIntersection size a b).builtDistance bindings site =
      -leastBlend ((field size).builtDistance bindings site) (-a.builtDistance bindings site)
        (-b.builtDistance bindings site) := by
  simp only [builtDistance, assemble, result_bind, eval_smoothMax, smoothMax_x]
  rfl

theorem builtDistance_smoothDifference :
    (smoothDifference size a b).builtDistance bindings site =
      -leastBlend ((field size).builtDistance bindings site) (-a.builtDistance bindings site)
        (- -b.builtDistance bindings site) := by
  simp only [builtDistance, assemble, result_bind, eval_smoothMax, smoothMax_x, eval_neg]
  rfl

end

/-- A smooth union is a smooth minimum of the distances that it is built from, a smooth intersection
is a smooth maximum, and a smooth difference is a smooth maximum with the opposite of the second; an
arena that a blend has for itself answers for the value of its tree.  The smooth minimum is the
minimum up to a quarter of the size of the blend, and the minimum itself where the distances are
further apart than that size; it is the same from both sides and falls as the size grows.  The
smooth maximum is its dual. -/
theorem smooth_blends :
    (∀ (bindings : Bindings ℝ) (site : Site Tree) (size : Term Word) (a b : Shape Word),
      let k := (field size).builtDistance bindings site
      let da := a.builtDistance bindings site
      let db := b.builtDistance bindings site
      (smoothUnion size a b).builtDistance bindings site = smin k da db ∧
        (smoothIntersection size a b).builtDistance bindings site = smax k da db ∧
        (smoothDifference size a b).builtDistance bindings site = smax k da (-db)) ∧
    (∀ (bindings : Bindings ℝ) (shape : Shape Word), shape.Closed →
      shape.alone.2.size ≤ UInt32.size →
      ¬ Walk.Exceeds shape.alone.2.nodes [shape.alone.1] →
      shape.distanceUnder bindings =
        .ok (shape.builtDistance bindings (.outer (.node (.var .position))))) ∧
    ∀ k a b : ℝ, 0 < k →
      (min a b - k / 4 ≤ smin k a b ∧ smin k a b ≤ min a b) ∧
      (k ≤ |a - b| → smin k a b = min a b) ∧
      smin k a b = smin k b a ∧
      (∀ k', k ≤ k' → smin k' a b ≤ smin k a b) ∧
      smax k a b = -smin k (-a) (-b) ∧
      max a (-b) ≤ smax k a (-b) ∧ smax k a (-b) ≤ max a (-b) + k / 4 := by
  simp only [smin_eq, smax_eq]
  refine ⟨fun bindings site size a b => ⟨?_, ?_, ?_⟩, fun bindings shape hclosed hroom hwithin => ?_,
    fun k a b hk => ⟨⟨?_, ?_⟩, ?_, ?_, ?_, trivial, ?_, ?_⟩⟩
  · exact builtDistance_smoothUnion bindings site size a b
  · exact builtDistance_smoothIntersection bindings site size a b
  · exact builtDistance_smoothDifference bindings site size a b
  · exact distanceUnder_eq_builtDistance hclosed hroom hwithin bindings
  · exact le_leastBlend_min hk a b
  · exact leastBlend_le_min hk a b
  · exact leastBlend_eq_min hk
  · exact leastBlend_comm hk a b
  · exact fun k' hle => leastBlend_anti hk hle a b
  · exact max_le_neg_leastBlend hk a (-b)
  · exact neg_leastBlend_le hk a (-b)

/-- The distance to the wall at zero, blended with a distance of two everywhere. -/
def meltedWall : Shape Word := smoothUnion 0.5 (field (.component .here .x)) (field 2.0)

/-- At one unit from the wall nothing of the other distance is left. -/
theorem smooth_blends_meltedWall :
    meltedWall.Closed ∧ meltedWall.alone.2.size ≤ UInt32.size ∧
      ¬ Walk.Exceeds meltedWall.alone.2.nodes [meltedWall.alone.1] ∧
      meltedWall.distanceUnder (.atPoint ⟨1, 0, 0⟩) = .ok (smin (1 / 2 : ℝ) 1 2) ∧
      (0 : ℝ) < 1 / 2 ∧ (1 / 2 : ℝ) ≤ |1 - 2| ∧ smin (1 / 2 : ℝ) 1 2 = min 1 2 ∧
      (1 / 2 : ℝ) ≤ 3 ∧ smin (3 : ℝ) 1 2 ≤ smin (1 / 2) 1 2 := by
  have hclosed : meltedWall.Closed := ⟨trivial, trivial, trivial⟩
  have hlength : (meltedWall.assemble (.outer (.node (.var .position))) :
      Transcript Tree).made.length = 16 := rfl
  obtain ⟨hroom, hwithin⟩ := alone_within hclosed (by rw [hlength]; omega)
  have hk : (0 : ℝ) < 1 / 2 := by norm_num
  have hfar : (1 / 2 : ℝ) ≤ |1 - 2| := by norm_num
  have hlarger : (1 / 2 : ℝ) ≤ 3 := by norm_num
  have hsize : (field 0.5).builtDistance (.atPoint ⟨1, 0, 0⟩)
      (.outer (.node (.var .position))) = (1 / 2 : ℝ) := real_ofWord_half.trans real_half
  have hother : (field 2.0).builtDistance (.atPoint ⟨1, 0, 0⟩)
      (.outer (.node (.var .position))) = (2 : ℝ) := real_ofWord_two.trans real_two
  have hwall : (field (.component .here .x)).builtDistance (.atPoint ⟨1, 0, 0⟩)
      (.outer (.node (.var .position))) = (1 : ℝ) := rfl
  obtain ⟨hbuilt, harena, hlaws⟩ := smooth_blends
  obtain ⟨-, hmin, -, hanti, -⟩ := hlaws (1 / 2) 1 2 hk
  refine ⟨hclosed, hroom, hwithin, ?_, hk, hfar, hmin hfar, hlarger, hanti 3 hlarger⟩
  rw [harena _ _ hclosed hroom hwithin, meltedWall, (hbuilt _ _ _ _ _).1, hsize, hwall, hother]

end Shape

end SphereTracer
