import Mathlib
import SphereTracer.Proofs.Numbers.Order

/-!
# Rounding

A sum or a product is formed exactly, as a mantissa and an exponent, and then the mantissa is cut to
24 bits.  What is cut off decides whether the last bit goes up, so a result below the middle of a
power of two and the next number does not pass that power.
-/

namespace SphereTracer.Binary32

open Float.Model
open UnpackedFloat (Sign ExtendedMantissa)

/-! ## Mantissas and exponents -/

/-- The mantissa and the exponent of a number: 24 bits, of which the first is set unless the
exponent is the least one. -/
structure Canonical (m : ℕ) (e : ℤ) : Prop where
  lt : m < 2 ^ 24
  least : -149 ≤ e
  normal : 2 ^ 23 ≤ m ∨ e = -149

theorem canonical_of_unpack {b : BitVec Format.binary32.numBits} {s : Sign} {m : ℕ} {e : ℤ}
    {hm : 0 < m} (h : UnpackedFloat.unpack Format.binary32 b = .finite s m e hm) :
    Canonical m e ∧ e ≤ 104 := by
  have hmantissa : (@UnpackedFloat.unpackMantissa Format.binary32 b).toNat < 2 ^ 23 :=
    (UnpackedFloat.unpackMantissa b).isLt
  have hexponent : (@UnpackedFloat.unpackExponent Format.binary32 b).toNat < 2 ^ 8 :=
    (UnpackedFloat.unpackExponent b).isLt
  have hbias : ((Format.binary32.exponentBias : ℤ) + Format.binary32.mantissaBitsWithoutImplicit) =
      150 := rfl
  unfold UnpackedFloat.unpack at h
  dsimp only at h
  rw [hbias] at h
  split_ifs at h with hmax hzero hmin hzero
  · cases h
    rw [hmin]
    exact ⟨⟨by omega, by decide, .inr rfl⟩, by decide⟩
  · cases h
    have hbelow : (@UnpackedFloat.unpackExponent Format.binary32 b).toNat ≠ 255 := fun heq =>
      hmax (BitVec.eq_of_toNat_eq heq)
    have hpos : (@UnpackedFloat.unpackExponent Format.binary32 b).toNat ≠ 0 := fun heq =>
      hmin (BitVec.eq_of_toNat_eq heq)
    rw [BitVec.toNat_append]
    have hor : (1#1).toNat <<< Format.binary32.mantissaBitsWithoutImplicit |||
        (@UnpackedFloat.unpackMantissa Format.binary32 b).toNat =
          2 ^ 23 + (@UnpackedFloat.unpackMantissa Format.binary32 b).toNat :=
      (Nat.shiftLeft_add_eq_or_of_lt hmantissa 1).symm
    rw [hor]
    exact ⟨⟨by omega, by omega, .inl (by omega)⟩, by omega⟩

theorem unpack_pack {s : Sign} {m : ℕ} {e : ℤ} {hm : 0 < m} (h : Canonical m e) (he : e ≤ 104) :
    (Float32.Model.pack (.finite s m e hm)).unpack = .finite s m e hm := by
  obtain ⟨hlt, hleast, hnormal⟩ := h
  have hbits : m.log2 + 1 = Format.binary32.mantissaBits ↔ 2 ^ 23 ≤ m := by
    change m.log2 + 1 = 24 ↔ _
    rw [Nat.succ_inj, Nat.log2_eq_iff hm.ne']
    omega
  have hbias : (Format.binary32.exponentBias : ℤ) + (23 : ℕ) = 150 := rfl
  have hmantissa : (BitVec.ofNat 23 m).toNat = m % 2 ^ 23 := BitVec.toNat_ofNat ..
  change UnpackedFloat.unpack Format.binary32 (UnpackedFloat.pack Format.binary32 _) = _
  unfold UnpackedFloat.pack
  rw [add_assoc e, hbias]
  dsimp only
  rw [if_neg (show ¬ 2 ^ 8 ≤ (e + 150).toNat + 1 by omega)]
  unfold UnpackedFloat.unpack
  by_cases hfirst : 2 ^ 23 ≤ m
  · have hexponent : (BitVec.ofNat 8 (e + 150).toNat).toNat = (e + 150).toNat := by
      rw [BitVec.toNat_ofNat]
      omega
    have hmax : BitVec.ofNat 8 (e + 150).toNat ≠ -1#8 := fun heq => by
      rw [heq] at hexponent
      change 255 = _ at hexponent
      omega
    have hmin : BitVec.ofNat 8 (e + 150).toNat ≠ 0#8 := fun heq => by
      rw [heq] at hexponent
      change 0 = _ at hexponent
      omega
    rw [if_pos (hbits.2 hfirst)]
    simp only [UnpackedFloat.unpackMantissa_packComponents,
      UnpackedFloat.unpackExponent_packComponents, UnpackedFloat.unpackSign_packComponents,
      Sign.ofBitVec_toBitVec, hbias, if_neg hmax, if_neg hmin, UnpackedFloat.finite.injEq, true_and,
      hexponent]
    refine ⟨?_, by omega⟩
    rw [BitVec.toNat_append, ← Nat.shiftLeft_add_eq_or_of_lt (BitVec.isLt _), hmantissa]
    change 2 ^ 23 + m % 2 ^ 23 = m
    omega
  · have hne : BitVec.ofNat 23 m ≠ 0#23 := fun heq => by
      rw [heq] at hmantissa
      change 0 = _ at hmantissa
      omega
    have hmax : 0#8 ≠ -1#8 := by decide
    rw [if_neg (mt hbits.1 hfirst)]
    simp only [UnpackedFloat.unpackMantissa_packComponents,
      UnpackedFloat.unpackExponent_packComponents, UnpackedFloat.unpackSign_packComponents,
      Sign.ofBitVec_toBitVec, hbias, if_neg hmax, if_pos, dif_neg hne, UnpackedFloat.finite.injEq,
      true_and, hmantissa]
    refine ⟨by omega, ?_⟩
    change (0 : ℤ) - 150 + 1 = e
    omega

/-! ## Cutting a mantissa -/

theorem mantissa_shiftRight (em : ExtendedMantissa) (k : ℕ) :
    (em >>> k).mantissa = em.mantissa / 2 ^ k := by
  induction k with
  | zero => exact (Nat.div_one _).symm
  | succ k ih =>
    change (em >>> k).mantissa / 2 = _
    rw [ih, Nat.div_div_eq_div_mul, Nat.pow_succ]

/-- A mantissa without its last `k` bits, rounded. -/
def cut (m k : ℕ) : ℕ := (ExtendedMantissa.mk m false false >>> k).roundedMantissa

theorem cut_bounds (m k : ℕ) : m / 2 ^ k ≤ cut m k ∧ cut m k ≤ m / 2 ^ k + 1 := by
  have hmantissa := mantissa_shiftRight ⟨m, false, false⟩ k
  rw [cut, ← hmantissa]
  rcases ExtendedMantissa.mk m false false >>> k with ⟨n, _ | _, _ | _⟩ <;>
    simp [ExtendedMantissa.roundedMantissa, ExtendedMantissa.accuracy,
      UnpackedFloat.Accuracy.roundToNearestEven]
  omega

theorem cut_eq {m k : ℕ} (h : 2 * (m % 2 ^ k) < 2 ^ k) : cut m k = m / 2 ^ k := by
  have hmantissa := mantissa_shiftRight ⟨m, false, false⟩ k
  have hround : (ExtendedMantissa.mk m false false >>> k).roundBit = false := by
    cases k with
    | zero => rfl
    | succ k =>
      change ((ExtendedMantissa.mk m false false >>> k).mantissa % 2 != 0) = false
      rw [mantissa_shiftRight, bne_eq_false_iff_eq, ← Nat.mod_mul_right_div_self]
      change m % 2 ^ (k + 1) / 2 ^ k = 0
      exact Nat.div_eq_of_lt (by omega)
  rw [cut, ← hmantissa]
  rcases hshifted : ExtendedMantissa.mk m false false >>> k with ⟨n, roundBit, _ | _⟩ <;>
    rw [hshifted] at hround <;> dsimp only at hround <;> subst hround <;> rfl

theorem targetExponent_eq (m : ℕ) (e : ℤ) :
    Format.binary32.targetExponent (totalExponent m e) = max (m.log2 + e - 23) (-149) := by
  change max ((m.log2 : ℤ) + 1 + e - 24) (-149) = _
  congr 1
  omega

theorem shiftToTargetExponent_eq {m k : ℕ} {e : ℤ}
    (hk : (max (m.log2 + e - 23) (-149) - e).toNat = k) :
    UnpackedFloat.shiftToTargetExponent Format.binary32 m e .exact =
      (ExtendedMantissa.mk m false false >>> k, e + k) := by
  rw [UnpackedFloat.shiftToTargetExponent, targetExponent_eq, UnpackedFloat.shiftToExponent, hk]
  rfl

theorem cut_le {m k : ℕ} {e : ℤ} (hk : (max (m.log2 + e - 23) (-149) - e).toNat = k) :
    cut m k ≤ 2 ^ 24 := by
  -- The exponent is chosen so that 24 bits remain, and rounding may add one to them.
  have hm : m < 2 ^ 24 * 2 ^ k := by
    rw [← Nat.pow_add]
    exact Nat.lt_log2_self.trans_le (Nat.pow_le_pow_right (by decide) (by omega))
  have hquotient := Nat.div_lt_of_lt_mul (Nat.mul_comm _ _ ▸ hm)
  have hbounds := cut_bounds m k
  omega

/-- A mantissa that has been cut fits again, or is a power of two one bit above. -/
theorem roundWithAccuracy_eq (s : Sign) {m k : ℕ} {e : ℤ}
    (hk : (max (m.log2 + e - 23) (-149) - e).toNat = k) :
    UnpackedFloat.roundWithAccuracy Format.binary32 s m e .exact =
      if h : cut m k = 0 then .zero s
      else if cut m k < 2 ^ 24 then .finite s (cut m k) (e + k) (Nat.pos_of_ne_zero h)
      else .finite s (2 ^ 23) (e + k + 1) (by decide) := by
  unfold UnpackedFloat.roundWithAccuracy
  rw [shiftToTargetExponent_eq hk]
  dsimp only
  rw [← cut]
  -- The code rounds a second time, for the case that rounding has carried into a new bit.
  rcases (cut_le hk).lt_or_eq with hlt | heq
  · have hlog : (cut m k).log2 ≤ 23 := by
      by_cases hzero : cut m k = 0
      · rw [hzero]
        decide
      · exact Nat.le_of_lt_succ ((Nat.log2_lt hzero).2 hlt)
    rw [shiftToTargetExponent_eq (show _ = 0 by omega)]
    simp only [mantissa_shiftRight, pow_zero, Nat.div_one, Nat.cast_zero, add_zero, if_pos hlt]
  · have hlog : Nat.log2 (2 ^ 24) = 24 := Nat.log2_two_pow
    rw [heq, shiftToTargetExponent_eq (show _ = 1 by rw [hlog]; omega)]
    rfl

/-! ## Bounds by powers of two -/

/-- Not negative, and at most `2 ^ n`. -/
def AtMost (n : ℤ) : UnpackedFloat → Prop
  | .zero _ => True
  | .finite .positive m e _ => Canonical m e ∧ (m : ℚ) * 2 ^ e ≤ 2 ^ n
  | _ => False

variable {n : ℤ}

theorem AtMost.cases {f : UnpackedFloat} (h : AtMost n f) :
    (∃ s, f = .zero s) ∨ ∃ m e hm, f = .finite .positive m e hm ∧ Canonical m e ∧
      (m : ℚ) * 2 ^ e ≤ 2 ^ n := by
  rcases f with _ | _ | s | ⟨_ | _, m, e, hm⟩
  · exact h.elim
  · exact h.elim
  · exact .inl ⟨s, rfl⟩
  · exact h.elim
  · exact .inr ⟨m, e, hm, rfl, h⟩

theorem AtMost.mono {n' : ℤ} (hn : n ≤ n') {f : UnpackedFloat} (h : AtMost n f) : AtMost n' f := by
  rcases h.cases with ⟨s, rfl⟩ | ⟨m, e, hm, rfl, hcanonical, hle⟩
  · trivial
  · exact ⟨hcanonical, hle.trans (zpow_le_zpow_right₀ one_le_two hn)⟩

theorem two_pow_mul_zpow {k : ℕ} {d e : ℤ} (h : k + d = e) : (2 : ℚ) ^ k * 2 ^ d = 2 ^ e := by
  rw [← zpow_natCast, ← zpow_add₀ two_ne_zero, h]

theorem log2_add_le {m : ℕ} {e : ℤ} (hm : 0 < m) (h : (m : ℚ) * 2 ^ e < 2 ^ (n + 1)) :
    m.log2 + e ≤ n := by
  have hlog : (2 : ℚ) ^ m.log2 ≤ m := by exact_mod_cast Nat.log2_self_le hm.ne'
  have hpower : (2 : ℚ) ^ (m.log2 + e) < 2 ^ (n + 1) :=
    calc (2 : ℚ) ^ ((m.log2 : ℤ) + e) = 2 ^ m.log2 * 2 ^ e := by
          rw [zpow_add₀ two_ne_zero, zpow_natCast]
      _ ≤ m * 2 ^ e := by gcongr
      _ < 2 ^ (n + 1) := h
  exact Int.lt_add_one_iff.1 ((zpow_lt_zpow_iff_right₀ one_lt_two).1 hpower)

theorem exponent_le {m : ℕ} {e : ℤ} (h : Canonical m e) (hle : (m : ℚ) * 2 ^ e ≤ 2 ^ n)
    (hn : -126 ≤ n) : e ≤ n - 23 := by
  rcases h.normal with hfirst | rfl
  · have hlt : (m : ℚ) * 2 ^ e < 2 ^ (n + 1) :=
      hle.trans_lt (zpow_lt_zpow_right₀ one_lt_two (lt_add_one n))
    have hlog := log2_add_le (by omega) hlt
    have hbits : 23 ≤ m.log2 := (Nat.le_log2 (by omega)).2 hfirst
    omega
  · omega

theorem AtMost.unpack_pack {f : UnpackedFloat} (h : AtMost n f) (hlow : -126 ≤ n) (hhigh : n ≤ 127) :
    (Float32.Model.pack f).unpack = f := by
  rcases h.cases with ⟨s, rfl⟩ | ⟨m, e, hm, rfl, hcanonical, hle⟩
  · exact UnpackedFloat.unpack_packedZero
  · have hexponent := exponent_le hcanonical hle hlow
    exact Binary32.unpack_pack hcanonical (by omega)

theorem cut_eq_two_pow {m k : ℕ} (hm : 0 < m) (hlog : m.log2 = 23 + k)
    (hlt : 2 * m < 2 * 2 ^ (23 + k) + 2 ^ k) : cut m k = 2 ^ 23 := by
  have hfirst : 2 ^ (23 + k) ≤ m := hlog ▸ Nat.log2_self_le hm.ne'
  rw [Nat.pow_add] at hfirst hlt
  have hdiv : m / 2 ^ k = 2 ^ 23 := Nat.div_eq_of_lt_le hfirst (by omega)
  have hmod : m % 2 ^ k = m - 2 ^ 23 * 2 ^ k := by
    rw [← hdiv, Nat.mul_comm, ← Nat.mod_eq_sub_mul_div]
  rw [cut_eq (by omega), hdiv]

/-- What is below the middle of a power of two and the next number is cut to at most the power. -/
theorem cut_mul_le {m k : ℕ} {e : ℤ} (hm : 0 < m) (hk : e + k = max (m.log2 + e - 23) (-149))
    (hn : -125 ≤ n) (hlt : (m : ℚ) * 2 ^ e < 2 ^ n + 2 ^ (n - 24)) :
    (cut m k : ℚ) * 2 ^ (e + k) ≤ 2 ^ n := by
  rcases lt_or_ge (m.log2 + e) n with hsmall | hlarge
  · have hshift : (max (m.log2 + e - 23) (-149) - e).toNat = k := by omega
    have hcut : (cut m k : ℚ) ≤ 2 ^ 24 := by exact_mod_cast cut_le hshift
    calc (cut m k : ℚ) * 2 ^ (e + k) ≤ 2 ^ 24 * 2 ^ (n - 24) := by
          gcongr
          · exact one_le_two
          · omega
      _ = 2 ^ n := two_pow_mul_zpow (by omega)
  · have hnext : (2 : ℚ) ^ n + 2 ^ (n - 24) < 2 ^ (n + 1) := by
      have hless : (2 : ℚ) ^ (n - 24) < 2 ^ n := zpow_lt_zpow_right₀ one_lt_two (by omega)
      rw [zpow_add_one₀ two_ne_zero]
      linarith
    have hlog := log2_add_le hm (hlt.trans hnext)
    have hrest : 2 * m < 2 * 2 ^ (23 + k) + 2 ^ k := by
      have hscaled : ((2 * m : ℕ) : ℚ) * 2 ^ e < ((2 * 2 ^ (23 + k) + 2 ^ k : ℕ) : ℚ) * 2 ^ e := by
        have hpower : (2 : ℚ) ^ (23 + k) * 2 ^ e = 2 ^ n := two_pow_mul_zpow (by omega)
        have hhalf : 2 * (2 : ℚ) ^ (n - 24) = 2 ^ k * 2 ^ e := by
          rw [two_pow_mul_zpow (show k + e = 1 + (n - 24) by omega), zpow_one_add₀ two_ne_zero]
        push_cast
        linarith
      exact_mod_cast lt_of_mul_lt_mul_right hscaled (by positivity)
    rw [cut_eq_two_pow hm (by omega) hrest, Nat.cast_pow, Nat.cast_ofNat]
    exact (two_pow_mul_zpow (by omega)).le

theorem canonical_cut {m k : ℕ} {e : ℤ} (hm : 0 < m)
    (hk : e + k = max (m.log2 + e - 23) (-149)) (hlt : cut m k < 2 ^ 24) :
    Canonical (cut m k) (e + k) := by
  refine ⟨hlt, by omega, ?_⟩
  by_cases hleast : e + k = -149
  · exact .inr hleast
  · have hself := Nat.log2_self_le hm.ne'
    rw [show m.log2 = 23 + k by omega, Nat.pow_add] at hself
    exact .inl (((Nat.le_div_iff_mul_le (Nat.two_pow_pos k)).2 hself).trans (cut_bounds m k).1)

theorem atMost_roundWithAccuracy {m : ℕ} {e : ℤ} (hm : 0 < m)
    (he : e ≤ max (m.log2 + e - 23) (-149)) (hn : -125 ≤ n)
    (hlt : (m : ℚ) * 2 ^ e < 2 ^ n + 2 ^ (n - 24)) :
    AtMost n (UnpackedFloat.roundWithAccuracy Format.binary32 .positive m e .exact) := by
  obtain ⟨k, hk⟩ : ∃ k : ℕ, e + k = max (m.log2 + e - 23) (-149) :=
    ⟨(max (m.log2 + e - 23) (-149) - e).toNat, by omega⟩
  have hshift : (max (m.log2 + e - 23) (-149) - e).toNat = k := by omega
  have hvalue := cut_mul_le hm hk hn hlt
  rw [roundWithAccuracy_eq .positive hshift]
  split
  · trivial
  · split
    · next hlt => exact ⟨canonical_cut hm hk hlt, hvalue⟩
    · next hge =>
      have hcut : cut m k = 2 ^ 24 := le_antisymm (cut_le hshift) (not_lt.1 hge)
      refine ⟨⟨by decide, by omega, .inl le_rfl⟩, le_of_eq_of_le ?_ hvalue⟩
      rw [hcut, zpow_add_one₀ two_ne_zero]
      push_cast
      ring

theorem log2_shiftLeft {m : ℕ} (hm : 0 < m) (j : ℕ) : (m <<< j).log2 = m.log2 + j := by
  have hpos := Nat.two_pow_pos j
  rw [Nat.shiftLeft_eq, Nat.log2_eq_iff (Nat.mul_pos hm hpos).ne', Nat.pow_add, Nat.add_right_comm,
    Nat.pow_add]
  exact ⟨Nat.mul_le_mul_right _ (Nat.log2_self_le hm.ne'),
    Nat.mul_lt_mul_of_pos_right Nat.lt_log2_self hpos⟩

theorem shiftLeft_mul {m : ℕ} {e : ℤ} (j : ℕ) :
    ((m <<< j : ℕ) : ℚ) * 2 ^ (e - j) = m * 2 ^ e := by
  rw [Nat.shiftLeft_eq, Nat.cast_mul, Nat.cast_pow, Nat.cast_ofNat, mul_assoc, ← zpow_natCast,
    ← zpow_add₀ two_ne_zero, add_sub_cancel]

theorem atMost_round {m : ℕ} {e : ℤ} (hm : 0 < m) (hn : -125 ≤ n)
    (hlt : (m : ℚ) * 2 ^ e < 2 ^ n + 2 ^ (n - 24)) :
    AtMost n (UnpackedFloat.round Format.binary32 .positive m e) := by
  obtain ⟨j, hj⟩ : ∃ j : ℕ, (e - max (m.log2 + e - 23) (-149)).toNat = j := ⟨_, rfl⟩
  rw [UnpackedFloat.round, targetExponent_eq, UnpackedFloat.decreaseExponent, hj]
  dsimp only
  have hshifted : 0 < m <<< j := by
    rw [Nat.shiftLeft_eq]
    positivity
  refine atMost_roundWithAccuracy hshifted ?_ hn ?_
  · rw [log2_shiftLeft hm]
    omega
  · rw [shiftLeft_mul]
    exact hlt

/-! ## Sums and products -/

/-- A power of two absorbs what is added to it if that is small enough. -/
theorem AtMost.add {f g : UnpackedFloat} (hf : AtMost n f) (hg : AtMost (n - 25) g)
    (hn : -125 ≤ n) : AtMost n (UnpackedFloat.add Format.binary32 f g) := by
  have hg' := hg.mono (show n - 25 ≤ n by omega)
  rcases hf.cases with ⟨s, rfl⟩ | ⟨m, e, hm, rfl, -, hle⟩ <;>
    rcases hg.cases with ⟨s', rfl⟩ | ⟨m', e', hm', rfl, -, hle'⟩
  · rw [UnpackedFloat.add]
    split <;> trivial
  · exact hg'
  · exact hf
  · obtain ⟨j, hj⟩ : ∃ j : ℕ, (e - min e e').toNat = j := ⟨_, rfl⟩
    obtain ⟨j', hj'⟩ : ∃ j' : ℕ, (e' - min e e').toNat = j' := ⟨_, rfl⟩
    have hpos : 0 < m <<< j + m' <<< j' := by
      rw [Nat.shiftLeft_eq]
      positivity
    rw [UnpackedFloat.add]
    -- Under the lesser exponent the sum of the mantissas is exact; only then it is rounded.
    dsimp only [UnpackedFloat.decreaseExponent]
    rw [hj, hj']
    change AtMost n (UnpackedFloat.normalize Format.binary32
      (((m <<< j : ℕ) : ℤ) + ((m' <<< j' : ℕ) : ℤ)) _ _)
    rw [← Nat.cast_add, UnpackedFloat.normalize, compare_gt_iff_gt.2 (Int.natCast_pos.2 hpos),
      Int.toNat_natCast]
    refine atMost_round hpos hn ?_
    have hvalue : ((m <<< j : ℕ) : ℚ) * 2 ^ min e e' = m * 2 ^ e := by
      rw [show min e e' = e - j by omega, shiftLeft_mul]
    have hvalue' : ((m' <<< j' : ℕ) : ℚ) * 2 ^ min e e' = m' * 2 ^ e' := by
      rw [show min e e' = e' - j' by omega, shiftLeft_mul]
    have hless : (2 : ℚ) ^ (n - 25) < 2 ^ (n - 24) := zpow_lt_zpow_right₀ one_lt_two (by omega)
    rw [Nat.cast_add, add_mul, hvalue, hvalue']
    linarith

theorem AtMost.mul {n' : ℤ} {f g : UnpackedFloat} (hf : AtMost n f) (hg : AtMost n' g)
    (hn : -125 ≤ n + n') : AtMost (n + n') (UnpackedFloat.mul Format.binary32 f g) := by
  rcases hf.cases with ⟨s, rfl⟩ | ⟨m, e, hm, rfl, hcanonical, hle⟩ <;>
    rcases hg.cases with ⟨s', rfl⟩ | ⟨m', e', hm', rfl, hcanonical', hle'⟩
  · trivial
  · trivial
  · trivial
  · have hpos : 0 < m * m' := Nat.mul_pos hm hm'
    refine atMost_roundWithAccuracy hpos ?_ hn ?_
    · rcases hcanonical.normal with hfirst | rfl
      · have hlog : 23 ≤ (m * m').log2 :=
          (Nat.le_log2 hpos.ne').2 (hfirst.trans (Nat.le_mul_of_pos_right m hm'))
        omega
      · rcases hcanonical'.normal with hfirst | rfl
        · have hlog : 23 ≤ (m * m').log2 :=
            (Nat.le_log2 hpos.ne').2 (hfirst.trans (Nat.le_mul_of_pos_left m' hm))
          omega
        · omega
    · calc ((m * m' : ℕ) : ℚ) * 2 ^ (e + e') = (m * 2 ^ e) * (m' * 2 ^ e') := by
            rw [zpow_add₀ two_ne_zero]
            push_cast
            ring
        _ ≤ 2 ^ n * 2 ^ n' := by gcongr
        _ = 2 ^ (n + n') := (zpow_add₀ two_ne_zero n n').symm
        _ < 2 ^ (n + n') + 2 ^ (n + n' - 24) := lt_add_of_pos_right _ (by positivity)

/-! ## Numbers -/

/-- The number is not negative, and at most `2 ^ n`. -/
def Within (n : ℤ) (x : Float32) : Prop := AtMost n x.toModel.unpack

variable {x y : Float32}

theorem Within.add (hx : Within n x) (hy : Within (n - 25) y) (hlow : -125 ≤ n) (hhigh : n ≤ 127) :
    Within n (x + y) := by
  have hsum := AtMost.add hx hy hlow
  change AtMost n (Float32.Model.pack (UnpackedFloat.add Format.binary32 _ _)).unpack
  rwa [hsum.unpack_pack (by omega) hhigh]

theorem Within.mul {n' : ℤ} (hx : Within n x) (hy : Within n' y) (hlow : -125 ≤ n + n')
    (hhigh : n + n' ≤ 127) : Within (n + n') (x * y) := by
  have hproduct := AtMost.mul hx hy hlow
  change AtMost (n + n') (Float32.Model.pack (UnpackedFloat.mul Format.binary32 _ _)).unpack
  rwa [hproduct.unpack_pack (by omega) hhigh]

/-- A positive number up to a power of two, by the rank of the power. -/
theorem within_of_le (hpos : 0.0 < x) (hle : x ≤ y)
    (hy : rank? y = some (toLex (1, toLex (n - 23, 2 ^ 23)))) : Within n x := by
  obtain ⟨r₀, r, hr₀, hr, hlt⟩ := lt_iff.1 hpos
  obtain ⟨r', r₁, hr', hr₁, hrle⟩ := le_iff.1 hle
  cases hr.symm.trans hr'
  cases hy.symm.trans hr₁
  have hzero : rank? 0.0 = some (toLex (0, toLex (0, 0))) := by decide +kernel
  cases hzero.symm.trans hr₀
  unfold rank? at hr
  unfold Within
  rcases hunpack : x.toModel.unpack with (_ | _) | _ | _ | ⟨_ | _, m, e, hm⟩ <;>
    rw [hunpack] at hr <;> cases hr
  · simp [Prod.Lex.toLex_lt_toLex] at hlt
  · simp [Prod.Lex.toLex_le_toLex] at hrle
  · trivial
  · simp [Prod.Lex.toLex_lt_toLex] at hlt
  · have hcanonical := (canonical_of_unpack hunpack).1
    refine ⟨hcanonical, ?_⟩
    obtain ⟨-, hrest⟩ := (Prod.Lex.toLex_le_toLex.1 hrle).resolve_left (Int.lt_irrefl 1)
    rcases Prod.Lex.toLex_le_toLex.1 hrest with hless | ⟨heq, hle⟩
    · have hexponent : e ≤ n - 24 := by
        change e < n - 23 at hless
        omega
      calc (m : ℚ) * 2 ^ e ≤ 2 ^ 24 * 2 ^ (n - 24) := by
            gcongr
            · exact_mod_cast hcanonical.lt.le
            · exact one_le_two
        _ = 2 ^ n := two_pow_mul_zpow (by omega)
    · obtain rfl : e = n - 23 := heq
      have hmantissa : (m : ℤ) ≤ 2 ^ 23 := hle
      calc (m : ℚ) * 2 ^ (n - 23) ≤ 2 ^ 23 * 2 ^ (n - 23) := by
            gcongr
            exact_mod_cast hmantissa
        _ = 2 ^ n := two_pow_mul_zpow (by omega)

/-- A number whose rank shows a greater exponent is greater. -/
theorem Within.lt (hx : Within n x) (hn : -126 ≤ n) {e : ℤ} {m : ℤ} (he : n - 23 < e)
    (hy : rank? y = some (toLex (1, toLex (e, m)))) : x < y := by
  rw [lt_iff, rank?]
  rcases AtMost.cases hx with ⟨s, hunpack⟩ | ⟨m', e', hm', hunpack, hcanonical, hle⟩ <;> rw [hunpack]
  · exact ⟨_, _, rfl, hy, Prod.Lex.toLex_lt_toLex.2 (.inl Int.zero_lt_one)⟩
  · have hexponent := (exponent_le hcanonical hle hn).trans_lt he
    exact ⟨_, _, rfl, hy, Prod.Lex.toLex_lt_toLex.2
      (.inr ⟨rfl, Prod.Lex.toLex_lt_toLex.2 (.inl hexponent)⟩)⟩

/-! ## Zero and one -/

theorem ofModel_pack_unpack (x : Float32) : Float32.ofModel (.pack x.toModel.unpack) = x :=
  x.ofBits_toBits

theorem Canonical.targetExponent {m : ℕ} {e : ℤ} (hm : 0 < m) (h : Canonical m e) :
    max ((m.log2 : ℤ) + e - 23) (-149) = e := by
  have hupper : m.log2 ≤ 23 := Nat.le_of_lt_succ ((Nat.log2_lt hm.ne').2 h.lt)
  have hleast := h.least
  rcases h.normal with hfirst | hsub
  · have hlower := (Nat.le_log2 hm.ne').2 hfirst
    omega
  · omega

/-- Zeros behind the mantissa of a number are cut off. -/
theorem roundWithAccuracy_shiftLeft (s : Sign) {m : ℕ} {e : ℤ} (hm : 0 < m) (h : Canonical m e)
    (k : ℕ) : UnpackedFloat.roundWithAccuracy Format.binary32 s (m <<< k) (e - k) .exact =
      .finite s m e hm := by
  have hexponent := h.targetExponent hm
  have hlog := log2_shiftLeft hm k
  have hshift : (max (((m <<< k).log2 : ℤ) + (e - k) - 23) (-149) - (e - k)).toNat = k := by
    omega
  have hcut : cut (m <<< k) k = m := by
    have hpos := Nat.two_pow_pos k
    rw [Nat.shiftLeft_eq, cut_eq (by rw [Nat.mul_mod_left]; omega), Nat.mul_div_cancel _ hpos]
  rw [roundWithAccuracy_eq s hshift]
  simp only [hcut, dif_neg hm.ne', if_pos h.lt, UnpackedFloat.finite.injEq, true_and]
  omega

theorem one_mul_eq (x : Float32) : 1.0 * x = x := by
  have hproduct : UnpackedFloat.mul Format.binary32 (1.0 : Float32).toModel.unpack
      x.toModel.unpack = x.toModel.unpack := by
    obtain ⟨hpos, hone⟩ : ∃ h, (1.0 : Float32).toModel.unpack = .finite .positive (2 ^ 23) (-23) h :=
      ⟨by decide, rfl⟩
    rw [hone]
    rcases hunpack : x.toModel.unpack with s | _ | s | ⟨s, m, e, hm⟩
    · cases s <;> rfl
    · rfl
    · cases s <;> rfl
    · rw [UnpackedFloat.mul, show Sign.positive * s = s by cases s <;> rfl]
      rw [Nat.mul_comm, ← Nat.shiftLeft_eq, Int.add_comm]
      exact roundWithAccuracy_shiftLeft s hm (canonical_of_unpack hunpack).1 23
  change Float32.ofModel (.pack (UnpackedFloat.mul Format.binary32 _ _)) = x
  rw [hproduct, ofModel_pack_unpack]

/-- Zero added to a number gives the number, except that a negative zero loses its sign. -/
theorem zero_add_eq (x : Float32) : 0.0 + x = if x = -0.0 then 0.0 else x := by
  have hzero : (0.0 : Float32).toModel.unpack = .zero .positive := rfl
  change Float32.ofModel (.pack (UnpackedFloat.add Format.binary32 _ x.toModel.unpack)) = _
  rw [hzero]
  split
  · next heq =>
    subst heq
    rfl
  · next hne =>
    have hsum : UnpackedFloat.add Format.binary32 (.zero .positive) x.toModel.unpack =
        x.toModel.unpack := by
      rcases hunpack : x.toModel.unpack with s | _ | (_ | _) | ⟨s, m, e, hm⟩
      · rfl
      · rfl
      · have hnegative : x = -0.0 := by
          rw [← ofModel_pack_unpack x, hunpack]
          rfl
        exact absurd hnegative hne
      · rfl
      · rfl
    rw [hsum, ofModel_pack_unpack]

end SphereTracer.Binary32
