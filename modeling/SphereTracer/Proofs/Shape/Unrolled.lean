import Mathlib
import SphereTracer.Proofs.Shape.Computed
import SphereTracer.Proofs.Numbers.Lanes
import SphereTracer.Proofs.Numbers.Nonnegative

/-!
# Rounds of the fold, one by one

The fold runs its rounds in a loop and scales the distance once, by a power that is found by repeated
squaring.  In exact arithmetic this is as if every round were a shape of its own: three mirrors, a
halving and a translation, through which the point goes inward and the distance outward.
-/

namespace SphereTracer

namespace Scalar

/-- The accumulator, times what is left of the power. -/
theorem powiLoop_real (acc x : ℝ) (n : ℕ) : powiLoop acc x n = acc * x ^ n := by
  -- Each round halves the exponent and squares the base.
  induction n using Nat.strong_induction_on generalizing acc x with
  | h n ih =>
    have hsplit : acc * x ^ n = (if n % 2 = 1 then acc * x else acc) * (x * x) ^ (n / 2) := by
      rw [← sq, ← pow_mul]
      rcases Nat.mod_two_eq_zero_or_one n with hbit | hbit
      · rw [if_neg (by omega), Nat.two_mul_div_two_of_even (Nat.even_iff.2 hbit)]
      · rw [if_pos hbit, mul_assoc, ← pow_succ', Nat.two_mul_div_two_add_one_of_odd
          (Nat.odd_iff.2 hbit)]
    rw [powiLoop]
    split
    · next hlast => rw [hsplit, hlast, pow_zero, mul_one]
    · next hmore => rw [ih (n / 2) (by omega), hsplit]

theorem powi_real (x : ℝ) (n : ℕ) : powi x n = x ^ n := by
  rw [powi, powiLoop_real, real_one, one_mul]

end Scalar

/-! ## One round -/

/-- The two reflections are one. -/
theorem mirrorPoint_eq_mirror (n p : Vec3 ℝ) : mirrorPoint n p = Intrinsic.mirror p n := by
  have hmin : Scalar.min (p.dot n) 0.0 = Scalar.min 0.0 (p.dot n) := min_comm _ _
  unfold Intrinsic.mirror
  rw [hmin]
  rfl

open Binary32

namespace Intrinsic

/-- The mirror planes as constants of a graph or of a text. -/
def normalWords : Vec3 Word × Vec3 Word × Vec3 Word :=
  let (n₁, n₂, n₃) := (foldNormals : Vec3 Float32 × Vec3 Float32 × Vec3 Float32)
  (n₁.toWords, n₂.toWords, n₃.toWords)

def offsetWords : Vec3 Word := (foldOffset : Vec3 Float32).toWords

/-- The fold mirrors at the same planes in exact arithmetic, those of the binary32 constants. -/
theorem foldNormals_real : (foldNormals : Vec3 ℝ × Vec3 ℝ × Vec3 ℝ) =
    (.ofWords normalWords.1, .ofWords normalWords.2.1, .ofWords normalWords.2.2) := by
  have hs : Word.ofFloat (Scalar.invSqrtTwo : Float32) = ⟨0x3f3504f3⟩ := by decide +kernel
  have hzero : Word.ofFloat 0.0 = 0.0 := rfl
  simp only [normalWords, foldNormals, Vec3.ofWords, Vec3.toWords, Vec3.map, hs, hzero,
    real_ofWord_zero]
  rfl

theorem foldOffset_real : (foldOffset : Vec3 ℝ) = .ofWords offsetWords := by
  have hword (x : Float32) : Word.ofFloat (Scalar.ofWord (.ofFloat x) : Float32) = .ofFloat x :=
    congrArg Word.ofFloat (toFloat_ofFloat x)
  simp only [offsetWords, foldOffset, Vec3.splat, Vec3.ofWords, Vec3.toWords, Vec3.map, hword]

theorem foldScale_real : (foldScale : ℝ) = 1 / 2 := real_half

theorem foldFactor_real {n : UInt32} (h : n.toNat ≤ maxExponent) :
    (foldFactor n : ℝ) = (1 / 2) ^ n.toNat := by
  rw [foldFactor, Scalar.powi_real, foldScale_real, Nat.min_eq_left h]

theorem foldPoint_eq_iterate (n : ℕ) (p : Vec3 ℝ) : foldPoint n p = foldRound^[n] p := by
  induction n generalizing p with
  | zero => rfl
  | succ n ih => exact ih (foldRound p)

/-- The greatest number of halvings of one that binary32 arithmetic has a number for. -/
def maxHalvings : ℕ := 149

/-- The scales that a graph can hold, by exponent and significand. -/
theorem rank_foldFactor : ∀ n : Fin (maxHalvings + 1),
    rank? (Word.ofFloat (foldFactor (.ofNat n))).toFloat =
      some (toLex (1, toLex (max (-23 - (n : ℤ)) (-149), 2 ^ min 23 (149 - n.val)))) := by
  decide +kernel

/-- The scale of a loop is exact as long as it is not too small for a binary32 number. -/
theorem real_foldFactor {n : UInt32} (h : n.toNat ≤ maxHalvings) :
    (Scalar.ofWord (.ofFloat (foldFactor n)) : ℝ) = (1 / 2) ^ n.toNat := by
  have hrank := rank_foldFactor ⟨n.toNat, Nat.lt_succ_of_le h⟩
  rw [UInt32.ofNat_toNat] at hrank
  have hexponent : ((min 23 (149 - n.toNat) : ℕ) : ℤ) + max (-23 - (n.toNat : ℤ)) (-149) =
      -(n.toNat : ℤ) := by
    rw [maxHalvings] at h
    omega
  have hreal := toReal_of_rank hrank
  push_cast at hreal
  rw [← zpow_natCast (2 : ℝ), ← zpow_add₀ two_ne_zero, hexponent] at hreal
  rw [one_div, inv_pow, ← zpow_natCast, ← zpow_neg]
  exact hreal

end Intrinsic

namespace Shape

/-- A round of the fold from other shapes: three mirrors, a halving and a translation. -/
def foldOnce (a : Shape Word) : Shape Word :=
  let (n₁, n₂, n₃) := Intrinsic.normalWords
  mirror (.constant n₁) <| mirror (.constant n₂) <| mirror (.constant n₃) <|
    scale 0.5 <| translate (.constant Intrinsic.offsetWords) a

theorem closed_iterate {a : Shape Word} (h : a.Closed) (n : ℕ) : (foldOnce^[n] a).Closed := by
  induction n with
  | zero => exact h
  | succ n ih =>
    rw [Function.iterate_succ_apply']
    exact ⟨trivial, trivial, trivial, trivial, trivial, ih⟩

/-- A meaning of shapes in exact arithmetic that takes rounds of the fold as combinators and in a loop
alike, as long as there are not too many for the loop. -/
structure Unrolls (eval : Shape Word → Site (Vec3 ℝ) → Vec3 ℝ) (limit : ℕ) : Prop where
  round : ∀ a site, eval (foldOnce a) site =
    eval a (site.moved (Intrinsic.foldRound site.point)) * .splat (1 / 2)
  loop : ∀ n : UInt32, n.toNat ≤ limit → ∀ a site, eval (sierpinski n a) site =
    eval a (site.moved (Intrinsic.foldPoint n.toNat site.point)) * .splat ((1 / 2) ^ n.toNat)

namespace Unrolls

variable {eval : Shape Word → Site (Vec3 ℝ) → Vec3 ℝ} {limit : ℕ} (h : Unrolls eval limit)

include h

/-- The outermost round moves the point first and scales the distance last. -/
theorem iterate (n : ℕ) (a : Shape Word) (site : Site (Vec3 ℝ)) :
    eval (foldOnce^[n] a) site =
      eval a (site.moved (Intrinsic.foldPoint n site.point)) * .splat ((1 / 2) ^ n) := by
  induction n generalizing site with
  | zero =>
    refine Vec3.ext_axis fun axis => ?_
    rw [Function.iterate_zero_apply, Axis.lane_mul, Axis.lane_splat, pow_zero, mul_one]
    rfl
  | succ n ih =>
    rw [Function.iterate_succ_apply', h.round, ih]
    refine Vec3.ext_axis fun axis => ?_
    simp only [Axis.lane_mul, Axis.lane_splat, mul_assoc, ← pow_succ]
    rfl

/-- The loop is its rounds. -/
theorem sierpinski_eq {n : UInt32} (hn : n.toNat ≤ limit) (a : Shape Word) (site : Site (Vec3 ℝ)) :
    eval (sierpinski n a) site = eval (foldOnce^[n.toNat] a) site := by
  rw [h.loop n hn, h.iterate]

/-- Loops one within the other are one loop. -/
theorem sierpinski_sierpinski {m n : UInt32} (hmn : m.toNat + n.toNat ≤ limit) (hlimit : limit < 2 ^ 32)
    (a : Shape Word) (site : Site (Vec3 ℝ)) :
    eval (sierpinski m (sierpinski n a)) site = eval (sierpinski (m + n) a) site := by
  have hsum : (m + n).toNat = m.toNat + n.toNat := by
    rw [UInt32.toNat_add, Nat.mod_eq_of_lt (by omega)]
  rw [h.sierpinski_eq (by omega), h.iterate, h.sierpinski_eq (by omega), ← h.iterate,
    h.sierpinski_eq (hsum ▸ hmn), hsum, Function.iterate_add_apply]

end Unrolls

/-! ## Two meanings -/

/-- Where the combinators of a round take a point. -/
theorem foldRound_eq (p : Vec3 ℝ) :
    Intrinsic.foldRound p =
      mirrorPoint (.ofWords Intrinsic.normalWords.2.2)
        (mirrorPoint (.ofWords Intrinsic.normalWords.2.1)
          (mirrorPoint (.ofWords Intrinsic.normalWords.1) p)) / .splat (Scalar.ofWord 0.5) -
      .ofWords Intrinsic.offsetWords := by
  simp only [mirrorPoint_eq_mirror, Intrinsic.foldRound, Intrinsic.foldNormals_real,
    Intrinsic.foldOffset_real, real_ofWord_half]
  rfl

section
variable (bindings : Bindings ℝ)

theorem computed_mirror (normal : Term Word) (a : Shape Word) (site : Site (Vec3 ℝ)) :
    (mirror normal a).computed bindings site =
      a.computed bindings
        (site.moved (mirrorPoint (normal.computed bindings site) site.point)) := by
  unfold mirrorPoint Vec3.zero
  rw [← real_ofWord_zero, ← real_ofWord_two]
  rfl

/-- What a shape means knows loops of as many rounds as an exponent may count. -/
theorem unrolls_value :
    Unrolls (fun a site => a.value Scalar.ofWord bindings site) Intrinsic.maxExponent where
  round a site := by
    have hhalf : (1 / 2 : ℝ) = Scalar.ofWord (0.5 : Word) := by rw [real_ofWord_half, real_half]
    rw [foldRound_eq, hhalf]
    rfl
  loop n hn a site := by
    rw [← Intrinsic.foldFactor_real hn]
    rfl

/-- A graph holds the scale of a loop as a constant. -/
theorem unrolls_computed : Unrolls (fun a site => a.computed bindings site) Intrinsic.maxHalvings where
  round a site := by
    have hhalf : (1 / 2 : ℝ) = Scalar.ofWord (0.5 : Word) := by rw [real_ofWord_half, real_half]
    rw [foldRound_eq, hhalf]
    simp only [foldOnce, computed_mirror]
    rfl
  loop n hn a site := by
    rw [← Intrinsic.real_foldFactor hn]
    rfl

end

end Shape

end SphereTracer
