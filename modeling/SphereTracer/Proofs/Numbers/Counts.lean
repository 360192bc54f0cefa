import SphereTracer.Proofs.Numbers.Nonnegative

/-!
# Counts as numbers

A count becomes the nearest number, and a number becomes a count without its fraction.  There and back
a count keeps its first 24 bits, rounded by the rest; a result above the greatest count is the greatest
count.
-/

namespace SphereTracer.Binary32

open Float.Model
open UnpackedFloat (Sign)

theorem roundToInt_eq (m : ℕ) (e : ℤ) :
    UnpackedFloat.roundToInt .positive m e = (m * 2 ^ e.toNat / 2 ^ (-e).toNat : ℕ) := by
  have hmantissa := mantissa_shiftRight ⟨m <<< e.toNat, false, false⟩ (-e).toNat
  have hshift : (0 - (e - (e - 0).toNat)).toNat = (-e).toNat := by omega
  unfold UnpackedFloat.roundToInt UnpackedFloat.decreaseExponent UnpackedFloat.shiftToExponent
  dsimp only
  rw [hshift, sub_zero, ← Nat.shiftLeft_eq]
  exact congrArg Int.ofNat hmantissa

theorem round_count (n : ℕ) : UnpackedFloat.round Format.binary32 .positive n 0 =
    UnpackedFloat.roundWithAccuracy Format.binary32 .positive (n <<< (23 - n.log2))
      (-(23 - n.log2 : ℕ)) .exact := by
  have hshift : (0 - max ((n.log2 : ℤ) + 0 - 23) (-149)).toNat = 23 - n.log2 := by omega
  rw [UnpackedFloat.round, targetExponent_eq, UnpackedFloat.decreaseExponent, hshift, zero_sub]

/-- A count of at most 24 bits is a number. -/
theorem round_short_count {n : ℕ} (hpos : 0 < n) (hlog : n.log2 ≤ 23) : ∃ m e, ∃ hm : 0 < m,
    UnpackedFloat.round Format.binary32 .positive n 0 = .finite .positive m e hm ∧
      Canonical m e ∧ e ≤ 104 ∧ m * 2 ^ e.toNat / 2 ^ (-e).toNat = n := by
  obtain ⟨j, hj⟩ : ∃ j, 23 - n.log2 = j := ⟨_, rfl⟩
  have hpadded : (n <<< j).log2 = 23 := by
    rw [log2_shiftLeft hpos]
    omega
  have hne : n <<< j ≠ 0 := by
    intro hzero
    rw [hzero] at hpadded
    exact absurd hpadded (by decide)
  obtain ⟨hfirst, hlast⟩ := (Nat.log2_eq_iff hne).1 hpadded
  have hcut : cut (n <<< j) 0 = n <<< j := by rw [cut_eq (by omega), pow_zero, Nat.div_one]
  refine ⟨n <<< j, -j, Nat.pos_of_ne_zero hne, ?_, ⟨hlast, by omega, .inl hfirst⟩, by omega, ?_⟩
  · rw [round_count, hj, roundWithAccuracy_eq .positive (show _ = 0 by rw [hpadded]; omega)]
    simp only [hcut, dif_neg hne, if_pos hlast, Nat.cast_zero, add_zero]
  · rw [neg_neg, Int.toNat_natCast, Int.toNat_of_nonpos (by omega), pow_zero, Nat.mul_one,
      Nat.shiftLeft_eq]
    exact Nat.mul_div_cancel _ (Nat.two_pow_pos j)

/-- A longer count is cut to 24 bits. -/
theorem round_long_count {n k : ℕ} (hpos : 0 < n) (hlog : n.log2 = 23 + k) (hk : k ≤ 80) :
    ∃ m e, ∃ hm : 0 < m, UnpackedFloat.round Format.binary32 .positive n 0 = .finite .positive m e hm ∧
      Canonical m e ∧ e ≤ 104 ∧ m * 2 ^ e.toNat / 2 ^ (-e).toNat = cut n k * 2 ^ k := by
  have hround : UnpackedFloat.round Format.binary32 .positive n 0 =
      UnpackedFloat.roundWithAccuracy Format.binary32 .positive n 0 .exact := by
    rw [round_count, show 23 - n.log2 = 0 by omega]
    rfl
  have hshift : (max ((n.log2 : ℤ) + 0 - 23) (-149) - 0).toNat = k := by omega
  have hfirst : 2 ^ 23 ≤ n / 2 ^ k := by
    rw [Nat.le_div_iff_mul_le (Nat.two_pow_pos k), ← Nat.pow_add, ← hlog]
    exact Nat.log2_self_le hpos.ne'
  have hne : cut n k ≠ 0 := by
    have hbounds := (cut_bounds n k).1
    omega
  have hinteger (m k : ℕ) : m * 2 ^ (k : ℤ).toNat / 2 ^ (-(k : ℤ)).toNat = m * 2 ^ k := by
    rw [Int.toNat_natCast, Int.toNat_of_nonpos (by omega), pow_zero, Nat.div_one]
  rw [hround, roundWithAccuracy_eq .positive hshift, zero_add, dif_neg hne]
  -- Rounding may carry into a new bit, and then the count is a power of two.
  by_cases hlt : cut n k < 2 ^ 24
  · have hcanonical := canonical_cut hpos (show (0 : ℤ) + k = _ by omega) hlt
    rw [zero_add] at hcanonical
    exact ⟨cut n k, k, Nat.pos_of_ne_zero hne, if_pos hlt, hcanonical, by omega, hinteger _ _⟩
  · have hcut : cut n k = 2 ^ 24 := le_antisymm (cut_le hshift) (not_lt.1 hlt)
    refine ⟨2 ^ 23, (k + 1 : ℕ), by decide, if_neg hlt, ⟨by decide, by omega, .inl le_rfl⟩, by omega,
      ?_⟩
    rw [hinteger, hcut]
    omega

theorem toNat_ofNatClamp (n : ℕ) : (UInt32.ofNatClamp n).toNat = min n (2 ^ 32 - 1) := by
  unfold UInt32.ofNatClamp
  split
  · next hlt => exact (min_eq_left (Nat.le_pred_of_lt hlt)).symm
  · next hge => exact (min_eq_right (Nat.le_trans (Nat.pred_le _) (not_lt.1 hge))).symm

/-- There and back, a count is rounded to a multiple of a power of two. -/
theorem toNat_toUInt32_toFloat32 (count : UInt32) :
    count.toFloat32.toUInt32.toNat =
      min (cut count.toNat (count.toNat.log2 - 23) * 2 ^ (count.toNat.log2 - 23)) (2 ^ 32 - 1) := by
  by_cases hzero : count.toNat = 0
  · obtain rfl : count = 0 := UInt32.toNat_inj.1 hzero
    decide +kernel
  have hpos : 0 < count.toNat := Nat.pos_of_ne_zero hzero
  have hlog : count.toNat.log2 < 32 := (Nat.log2_lt hpos.ne').2 count.toNat_lt
  have hnumber : ∃ m e, ∃ hm : 0 < m,
      UnpackedFloat.round Format.binary32 .positive count.toNat 0 = .finite .positive m e hm ∧
        Canonical m e ∧ e ≤ 104 ∧ m * 2 ^ e.toNat / 2 ^ (-e).toNat =
          cut count.toNat (count.toNat.log2 - 23) * 2 ^ (count.toNat.log2 - 23) := by
    by_cases hshort : count.toNat.log2 ≤ 23
    · rw [Nat.sub_eq_zero_of_le hshort, cut_eq (by omega), pow_zero, Nat.div_one, Nat.mul_one]
      exact round_short_count hpos hshort
    · exact round_long_count hpos (by omega) (by omega)
  obtain ⟨m, e, hm, hround, hcanonical, hexponent, hvalue⟩ := hnumber
  show (UInt32.ofNatClamp (UnpackedFloat.toInt 0 (UInt32.size - 1) (Float32.Model.pack
    (UnpackedFloat.ofUInt32 Format.binary32 count)).unpack).toNat).toNat = _
  rw [ofUInt32_eq hpos, hround, unpack_pack hcanonical hexponent, UnpackedFloat.toInt, roundToInt_eq,
    Int.toNat_natCast, hvalue, toNat_ofNatClamp]

/-- A count that has at most 24 significant bits, or is the greatest one. -/
def Survives (count : UInt32) : Prop :=
  (∃ m k, m < 2 ^ 24 ∧ count.toNat = m * 2 ^ k) ∨ count.toNat = 2 ^ 32 - 1

theorem toUInt32_toFloat32_eq_iff (count : UInt32) :
    count.toFloat32.toUInt32 = count ↔ Survives count := by
  rw [← UInt32.toNat_inj, toNat_toUInt32_toFloat32]
  unfold Survives
  have hlt := count.toNat_lt
  generalize count.toNat = n at hlt ⊢
  obtain ⟨k, hk⟩ : ∃ k, n.log2 - 23 = k := ⟨_, rfl⟩
  rw [hk]
  constructor
  · intro h
    rcases min_choice (cut n k * 2 ^ k) (2 ^ 32 - 1) with hmin | hmin <;> rw [hmin] at h
    · rcases (cut_le (show (max ((n.log2 : ℤ) + 0 - 23) (-149) - 0).toNat = k by omega)).lt_or_eq
        with hshort | hcarry
      · exact .inl ⟨cut n k, k, hshort, h.symm⟩
      · rw [hcarry] at h
        exact .inl ⟨2 ^ 23, k + 1, by decide, by omega⟩
    · exact .inr h.symm
  · rintro (⟨m, k', hm, hn⟩ | hn)
    · have hdvd : 2 ^ k ∣ n := by
        rcases Nat.eq_zero_or_pos n with hzero | hpos
        · exact hzero ▸ dvd_zero _
        · have hlog : n.log2 < 24 + k' := by
            rw [Nat.log2_lt hpos.ne', hn, Nat.pow_add]
            exact Nat.mul_lt_mul_of_pos_right hm (Nat.two_pow_pos k')
          exact (pow_dvd_pow 2 (by omega)).trans (hn ▸ dvd_mul_left _ _)
      have hcut : cut n k = n / 2 ^ k := cut_eq (by
        rw [Nat.mod_eq_zero_of_dvd hdvd]
        exact Nat.two_pow_pos k)
      rw [hcut, Nat.div_mul_cancel hdvd]
      exact min_eq_left (by omega)
    · subst hn hk
      decide +kernel

theorem survives_of_le {count : UInt32} (h : count.toNat ≤ 2 ^ 24) : Survives count := by
  rcases h.lt_or_eq with hlt | heq
  · exact .inl ⟨count.toNat, 0, hlt, (Nat.mul_one _).symm⟩
  · exact .inl ⟨2 ^ 23, 1, by decide, heq⟩

instance (count : UInt32) : Decidable (Survives count) :=
  decidable_of_iff (count.toFloat32.toUInt32 = count) (toUInt32_toFloat32_eq_iff count)

theorem toUInt32_toFloat32_ne_zero {count : UInt32} (h : count ≠ 0) :
    count.toFloat32.toUInt32 ≠ 0 := by
  have hpos : count.toNat ≠ 0 := fun hzero => h (UInt32.toNat_inj.1 hzero)
  have hpower : 2 ^ (count.toNat.log2 - 23) ≤ count.toNat :=
    (Nat.pow_le_pow_right (by decide) (Nat.sub_le _ _)).trans (Nat.log2_self_le hpos)
  have hcut : 0 < cut count.toNat (count.toNat.log2 - 23) :=
    (Nat.div_pos hpower (Nat.two_pow_pos _)).trans_le (cut_bounds _ _).1
  rw [ne_eq, ← UInt32.toNat_inj, toNat_toUInt32_toFloat32]
  have hproduct := Nat.mul_pos hcut (Nat.two_pow_pos (count.toNat.log2 - 23))
  exact (lt_min hproduct (by decide)).ne'

end SphereTracer.Binary32
