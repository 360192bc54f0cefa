import Mathlib
import SphereTracer.Trace.Random

/-!
# Seeds

The hash of a generator is made of steps that lose nothing: a multiplication by an odd word, an
addition, and a word laid over itself after a shift to the right.  The first shift is by an amount
that the word itself decides, but it decides it by its top four bits, and those survive.  So the
hash is a permutation of the words, and the seed of a pixel tells its row, its column, the frame and
the seed of the image apart.
-/

namespace SphereTracer

/-! ## Words laid over themselves -/

/-- A number that a shift leaves as it is has no bits. -/
theorem eq_zero_of_shiftRight_eq {n k : ℕ} (hk : 0 < k) (h : n >>> k = n) : n = 0 := by
  by_contra hn
  have hlt : n / 2 ^ k < n :=
    Nat.div_lt_self (Nat.pos_of_ne_zero hn) (Nat.one_lt_two_pow hk.ne')
  rw [Nat.shiftRight_eq_div_pow] at h
  omega

/-- A number can be read back once it has been laid over itself. -/
theorem shiftRight_xor_injective {k : ℕ} (hk : 0 < k) :
    Function.Injective fun n : ℕ => n >>> k ^^^ n := by
  intro a b hab
  -- Where two numbers differ is laid over itself as well, and nothing is left of it.
  have hdifference : (a ^^^ b) >>> k = a ^^^ b := by
    have hzero : (a >>> k ^^^ a) ^^^ (b >>> k ^^^ b) = 0 := Nat.xor_eq_zero_iff.2 hab
    refine Nat.xor_eq_zero_iff.1 ?_
    rw [Nat.shiftRight_xor_distrib, ← hzero]
    simp only [Nat.xor_comm, Nat.xor_left_comm]
  exact Nat.xor_eq_zero_iff.1 (eq_zero_of_shiftRight_eq hk hdifference)

/-- Laid over itself by `k` places or more, a word of `w` bits keeps its `k` upper bits. -/
theorem shiftRight_xor_shiftRight {n w k s : ℕ} (hn : n < 2 ^ w) (hk : k ≤ s) (hkw : k ≤ w) :
    (n >>> s ^^^ n) >>> (w - k) = n >>> (w - k) := by
  have hgone : n >>> s >>> (w - k) = 0 := by
    rw [← Nat.shiftRight_add, Nat.shiftRight_eq_div_pow]
    exact Nat.div_eq_of_lt (hn.trans_le (Nat.pow_le_pow_right two_pos (by omega)))
  rw [Nat.shiftRight_xor_distrib, hgone, Nat.zero_xor]

/-- Multiplication by a word that has an inverse loses nothing. -/
theorem mul_injective_of_inverse {m : UInt32} (inverse : UInt32) (h : m * inverse = 1) :
    Function.Injective fun n : UInt32 => n * m := by
  intro a b hab
  have hback := congrArg (· * inverse) hab
  simpa only [UInt32.mul_assoc, h, UInt32.mul_one] using hback

namespace Pcg

/-! ## The steps of the hash -/

theorem advance_injective : Function.Injective advance := by
  intro a b hab
  have hmul : a * 747796405 = b * 747796405 := add_right_cancel hab
  exact mul_injective_of_inverse 3425435293 (by decide) hmul

/-- The shift by what the top four bits say never wraps around. -/
theorem toNat_shift (n : UInt32) :
    (n >>> ((n >>> 28) + 4)).toNat = n.toNat >>> (n.toNat >>> 28 + 4) := by
  have hn := n.toNat_lt
  have htop : n.toNat >>> 28 < 16 := by
    rw [Nat.shiftRight_eq_div_pow]
    omega
  rw [UInt32.toNat_shiftRight, UInt32.toNat_add, UInt32.toNat_shiftRight]
  congr 1
  change (n.toNat >>> 28 + 4) % 2 ^ 32 % 32 = _
  omega

theorem shift_xor_injective :
    Function.Injective fun n : UInt32 => (n >>> ((n >>> 28) + 4)) ^^^ n := by
  intro a b hab
  have hnat : a.toNat >>> (a.toNat >>> 28 + 4) ^^^ a.toNat =
      b.toNat >>> (b.toNat >>> 28 + 4) ^^^ b.toNat := by
    have := congrArg UInt32.toNat hab
    simpa only [UInt32.toNat_xor, toNat_shift] using this
  -- The top four bits survive, so both words were shifted by the same number of places.
  have htop : a.toNat >>> 28 = b.toNat >>> 28 := by
    have := congrArg (· >>> 28) hnat
    have ha := shiftRight_xor_shiftRight (k := 4) (s := a.toNat >>> 28 + 4) a.toNat_lt
      (by omega) (by decide)
    have hb := shiftRight_xor_shiftRight (k := 4) (s := b.toNat >>> 28 + 4) b.toNat_lt
      (by omega) (by decide)
    exact ha.symm.trans (this.trans hb)
  rw [htop] at hnat
  exact UInt32.toNat_inj.1 (shiftRight_xor_injective (by omega) hnat)

theorem permute_injective : Function.Injective permute := by
  intro a b hab
  have hword : ((a >>> ((a >>> 28) + 4)) ^^^ a) * (277803737 : UInt32) =
      ((b >>> ((b >>> 28) + 4)) ^^^ b) * (277803737 : UInt32) := by
    have := congrArg UInt32.toNat hab
    simp only [permute, UInt32.toNat_xor, UInt32.toNat_shiftRight] at this
    exact UInt32.toNat_inj.1 (shiftRight_xor_injective (k := 22) (by decide) this)
  exact shift_xor_injective (mul_injective_of_inverse 2897767785 (by decide) hword)

theorem hash_injective : Function.Injective hash := permute_injective.comp advance_injective

theorem hash_bijective : Function.Bijective hash := by
  have : Finite UInt32 := Finite.of_injective UInt32.toBitVec fun _ _ => UInt32.toBitVec_inj.1
  exact Finite.injective_iff_bijective.1 hash_injective

/-! ## The generators of pixels

The column is under one hash, the row under two, the frame under three, the seed under four. -/

theorem forPixel_column_injective (u : Uniforms) (y : UInt32) :
    Function.Injective fun x => forPixel u x y := by
  intro a b hab
  exact add_right_cancel (hash_injective (Pcg.mk.inj hab))

theorem forPixel_row_injective (u : Uniforms) (x : UInt32) :
    Function.Injective fun y => forPixel u x y := by
  intro a b hab
  have hrow := hash_injective (add_left_cancel (hash_injective (Pcg.mk.inj hab)))
  exact add_right_cancel hrow

theorem forPixel_frame_injective (u : Uniforms) (x y : UInt32) :
    Function.Injective fun frame => forPixel { u with frame } x y := by
  intro a b hab
  have hrow := hash_injective (add_left_cancel (hash_injective (Pcg.mk.inj hab)))
  have hframe := hash_injective (add_left_cancel hrow)
  exact add_right_cancel hframe

theorem forPixel_seed_injective (u : Uniforms) (x y : UInt32) :
    Function.Injective fun seed => forPixel { u with seed } x y := by
  intro a b hab
  have hrow := hash_injective (add_left_cancel (hash_injective (Pcg.mk.inj hab)))
  have hframe := hash_injective (add_left_cancel hrow)
  have hsalt := hash_injective (add_left_cancel hframe)
  exact (UInt32.xor_left_inj _).1 hsalt

/-- The hash is a permutation of the words, and the generator of a pixel tells apart the columns of
a row, the rows of a column, the frames of an accumulation and the seeds of an image. -/
theorem hash_bijective_and_forPixel_injective :
    Function.Bijective hash ∧
      (∀ (u : Uniforms) (y : UInt32), Function.Injective fun x => forPixel u x y) ∧
      (∀ (u : Uniforms) (x : UInt32), Function.Injective fun y => forPixel u x y) ∧
      (∀ (u : Uniforms) (x y : UInt32),
        Function.Injective fun frame => forPixel { u with frame } x y) ∧
      ∀ (u : Uniforms) (x y : UInt32),
        Function.Injective fun seed => forPixel { u with seed } x y :=
  ⟨hash_bijective, forPixel_column_injective, forPixel_row_injective, forPixel_frame_injective,
    forPixel_seed_injective⟩

end Pcg

end SphereTracer
