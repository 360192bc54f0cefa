import Mathlib
import SphereTracer.Proofs.Numbers.Bits
import SphereTracer.Proofs.Numbers.Differences

/-!
# Exact results

A number of the format is a power of two taken fewer than `2 ^ 24` times.  Where the exact result of
an operation is such a number, rounding cuts off zeros only, and the operation gives the exact
result: for a count of 24 bits, for a quotient by a power of two, and for a difference that still
fits.
-/

namespace SphereTracer.Binary32

open Float.Model
open UnpackedFloat (Sign)

variable {x y : Float32} {f g : UnpackedFloat} {q r : ℚ}

/-! ## Numbers of the format -/

/-- The format has this number, which is not negative. -/
def Fits (q : ℚ) : Prop := ∃ (n : ℕ) (d : ℤ), n < 2 ^ 24 ∧ -149 ≤ d ∧ d ≤ 104 ∧ n * 2 ^ d = q

/-- What stands for exactly this number. -/
def Exactly (q : ℚ) : UnpackedFloat → Prop
  | .zero _ => q = 0
  | .finite .positive m e _ => Canonical m e ∧ e ≤ 104 ∧ m * 2 ^ e = q
  | _ => False

theorem Exactly.cases (h : Exactly q f) :
    (∃ s, f = .zero s ∧ q = 0) ∨ ∃ m e hm, f = .finite .positive m e hm ∧ Canonical m e ∧
      e ≤ 104 ∧ m * 2 ^ e = q := by
  rcases f with _ | _ | s | ⟨_ | _, m, e, hm⟩
  · exact h.elim
  · exact h.elim
  · exact .inl ⟨s, rfl, h⟩
  · exact h.elim
  · exact .inr ⟨m, e, hm, rfl, h⟩

theorem Exactly.nonneg (h : Exactly q f) : 0 ≤ q := by
  rcases h.cases with ⟨s, -, rfl⟩ | ⟨m, e, hm, -, -, -, rfl⟩
  · exact le_rfl
  · positivity

theorem Exactly.unpack_pack (h : Exactly q f) : (Float32.Model.pack f).unpack = f := by
  rcases h.cases with ⟨s, rfl, -⟩ | ⟨m, e, hm, rfl, hcanonical, he, -⟩
  · exact UnpackedFloat.unpack_packedZero
  · exact Binary32.unpack_pack hcanonical he

theorem exists_canonical {n : ℕ} {d : ℤ} (hpos : 0 < n) (hlt : n < 2 ^ 24) (hd : -149 ≤ d) :
    ∃ m e, 0 < m ∧ Canonical m e ∧ e ≤ d ∧ (m : ℚ) * 2 ^ e = n * 2 ^ d := by
  obtain ⟨j, hj⟩ : ∃ j : ℕ, d - j = max ((n.log2 : ℤ) + d - 23) (-149) := by
    have hlog : n.log2 ≤ 23 := Nat.le_of_lt_succ ((Nat.log2_lt hpos.ne').2 hlt)
    exact ⟨(d - max ((n.log2 : ℤ) + d - 23) (-149)).toNat, by omega⟩
  have hlog := log2_shiftLeft hpos j
  have hshifted : 0 < n <<< j := by
    rw [Nat.shiftLeft_eq]
    positivity
  refine ⟨n <<< j, d - j, hshifted, ⟨?_, by omega, ?_⟩, by omega, shiftLeft_mul j⟩
  · rw [← Nat.log2_lt hshifted.ne']
    omega
  · by_cases hleast : d - j = -149
    · exact .inr hleast
    · exact .inl ((Nat.le_log2 hshifted.ne').1 (by omega))

theorem eq_shiftLeft {m c k : ℕ} {e t : ℤ} (ht : t = e + k) (h : (m : ℚ) * 2 ^ e = c * 2 ^ t) :
    m = c <<< k := by
  have hscaled : (m : ℚ) * 2 ^ e = ((c <<< k : ℕ) : ℚ) * 2 ^ e := by
    rw [h, ← shiftLeft_mul k, show t - k = e by omega]
  exact_mod_cast mul_right_cancel₀ (zpow_ne_zero e two_ne_zero) hscaled

/-! ## Rounding -/

/-- What equals a number of the format is rounded to that number. -/
theorem round_eq (s : Sign) {m c : ℕ} {e t : ℤ} (hm : 0 < m) (hc : 0 < c) (h : Canonical c t)
    (hvalue : (m : ℚ) * 2 ^ e = c * 2 ^ t) :
    UnpackedFloat.round Format.binary32 s m e = .finite s c t hc := by
  have hexponent := h.targetExponent hc
  rw [UnpackedFloat.round, targetExponent_eq, UnpackedFloat.decreaseExponent]
  dsimp only
  rcases le_total t e with hle | hle
  · obtain ⟨k, hk⟩ := Int.le.dest hle
    obtain rfl : c = m <<< k := eq_shiftLeft hk.symm hvalue.symm
    rw [log2_shiftLeft hm] at hexponent
    rw [show (e - max ((m.log2 : ℤ) + e - 23) (-149)).toNat = k by omega,
      show e - k = t - (0 : ℕ) by omega]
    exact roundWithAccuracy_shiftLeft s hc h 0
  · obtain ⟨k, hk⟩ := Int.le.dest hle
    obtain rfl : m = c <<< k := eq_shiftLeft hk.symm hvalue
    rw [log2_shiftLeft hc, show (e - max (((c.log2 + k : ℕ) : ℤ) + e - 23) (-149)).toNat = 0 by omega,
      show e - (0 : ℕ) = t - k by omega]
    exact roundWithAccuracy_shiftLeft s hc h k

theorem exactly_round {m : ℕ} {e : ℤ} (hm : 0 < m) (h : Fits (m * 2 ^ e)) :
    Exactly (m * 2 ^ e) (UnpackedFloat.round Format.binary32 .positive m e) := by
  obtain ⟨n, d, hn, hlow, hhigh, hvalue⟩ := h
  have hpos : 0 < n := by
    rcases Nat.eq_zero_or_pos n with rfl | hpos
    · have hproduct : (0 : ℚ) < m * 2 ^ e := by positivity
      rw [← hvalue, Nat.cast_zero, zero_mul] at hproduct
      exact hproduct.false.elim
    · exact hpos
  obtain ⟨c, t, hc, hcanonical, ht, hsame⟩ := exists_canonical hpos hn hlow
  rw [hvalue] at hsame
  rw [round_eq .positive hm hc hcanonical hsame.symm]
  exact ⟨hcanonical, ht.trans hhigh, hsame⟩

theorem exactly_normalize {d e : ℤ} (h : Fits (d * 2 ^ e)) :
    Exactly (d * 2 ^ e) (UnpackedFloat.normalize Format.binary32 d e .positive) := by
  have hnonneg : 0 ≤ d := by
    obtain ⟨n, d', -, -, -, hvalue⟩ := h
    have hproduct : (0 : ℚ) ≤ d * 2 ^ e := by
      rw [← hvalue]
      positivity
    exact_mod_cast nonneg_of_mul_nonneg_left hproduct (by positivity)
  obtain ⟨m, rfl⟩ := Int.eq_ofNat_of_zero_le hnonneg
  rw [Int.cast_natCast] at h ⊢
  unfold UnpackedFloat.normalize
  rcases Nat.eq_zero_or_pos m with rfl | hpos
  · show ((0 : ℕ) : ℚ) * 2 ^ e = 0
    rw [Nat.cast_zero, zero_mul]
  · rw [compare_gt_iff_gt.2 (Int.natCast_pos.2 hpos), Int.toNat_natCast]
    exact exactly_round hpos h

/-! ## Operations -/

theorem exactly_ofUInt32 {count : UInt32} (h : count.toNat < 2 ^ 24) :
    Exactly count.toNat (UnpackedFloat.ofUInt32 Format.binary32 count) := by
  have hvalue : ((count.toNat : ℤ) : ℚ) * 2 ^ (0 : ℤ) = count.toNat := by
    rw [zpow_zero, mul_one, Int.cast_natCast]
  have hcount := exactly_normalize (d := count.toNat) (e := 0)
    ⟨count.toNat, 0, h, by decide, by decide, hvalue ▸ (by rw [zpow_zero, mul_one])⟩
  rwa [hvalue] at hcount

theorem div_two_pow_eq (s : Sign) {m j : ℕ} {e : ℤ} (hm : 0 < m) (htwo : 0 < 2 ^ 23)
    (h : Canonical m (e - j)) :
    UnpackedFloat.div Format.binary32 (.finite s m e hm) (.finite .positive (2 ^ 23) (j - 23) htwo) =
      .finite s m (e - j) hm := by
  have hexponent := h.targetExponent hm
  obtain ⟨k, hk⟩ : ∃ k : ℕ, e - j - k = max ((m.log2 : ℤ) + (e - j) - 24) (-149) :=
    ⟨(e - j - max ((m.log2 : ℤ) + (e - j) - 24) (-149)).toNat, by omega⟩
  have htarget : min (e - (j - 23)) (Format.binary32.targetExponent
      (totalExponent m e - totalExponent (2 ^ 23) (j - 23))) = e - j - k := by
    have htotal : Format.binary32.targetExponent (totalExponent m e -
        totalExponent (2 ^ 23) (j - 23)) = max ((m.log2 : ℤ) + (e - j) - 24) (-149) := by
      show max ((m.log2 : ℤ) + 1 + e - (((2 ^ 23 : ℕ).log2 : ℤ) + 1 + (j - 23)) - 24) (-149) = _
      rw [Nat.log2_two_pow]
      congr 1
      omega
    rw [htotal]
    omega
  have hcore : UnpackedFloat.divCore Format.binary32 m e (2 ^ 23) (j - 23) =
      (m <<< k, e - j - k, .exact) := by
    have hshift : m <<< (k + 23) = m <<< k * 2 ^ 23 := by
      rw [Nat.shiftLeft_add, Nat.shiftLeft_eq (m <<< k)]
    rw [UnpackedFloat.divCore, htarget, show (e - (j - 23) - (e - j - k)).toNat = k + 23 by omega,
      hshift]
    show (m <<< k * 2 ^ 23 / 2 ^ 23, _,
      UnpackedFloat.accuracyOfFraction (m <<< k * 2 ^ 23 % 2 ^ 23) (2 ^ 23)) = _
    rw [Nat.mul_div_cancel _ htwo, Nat.mul_mod_left]
    rfl
  rw [UnpackedFloat.div, hcore, show s / .positive = s by cases s <;> rfl]
  exact roundWithAccuracy_shiftLeft s hm h k

/-- A quotient by a power of two is exact unless it is too small to have 24 bits. -/
theorem Exactly.div_two_pow (hf : Exactly q f) {j : ℕ} (htwo : 0 < 2 ^ 23)
    (hlow : q = 0 ∨ 2 ^ (-126 : ℤ) ≤ q / 2 ^ j) :
    Exactly (q / 2 ^ j)
      (UnpackedFloat.div Format.binary32 f (.finite .positive (2 ^ 23) (j - 23) htwo)) := by
  rcases hf.cases with ⟨s, rfl, rfl⟩ | ⟨m, e, hm, rfl, hcanonical, he, hvalue⟩
  · show (0 : ℚ) / 2 ^ j = 0
    rw [zero_div]
  · have hquotient : (m : ℚ) * 2 ^ (e - j) = q / 2 ^ j := by
      rw [← hvalue, zpow_sub₀ two_ne_zero, zpow_natCast, mul_div_assoc]
    have hpos : 0 < q := by
      rw [← hvalue]
      positivity
    have hleast : -149 ≤ e - j := by
      by_contra hlt
      have hsmall : (m : ℚ) * 2 ^ (e - j) < 2 ^ (-126 : ℤ) :=
        calc (m : ℚ) * 2 ^ (e - j) < 2 ^ 24 * 2 ^ (e - j) := by
              gcongr
              exact_mod_cast hcanonical.lt
          _ ≤ 2 ^ 24 * 2 ^ (-150 : ℤ) := by
              gcongr
              · exact one_le_two
              · omega
          _ = 2 ^ (-126 : ℤ) := by norm_num
      rw [hquotient] at hsmall
      exact (hsmall.trans_le (hlow.resolve_left hpos.ne')).false
    have hnormal : 2 ^ 23 ≤ m ∨ e - j = -149 := hcanonical.normal.imp_right (by omega)
    rw [div_two_pow_eq .positive hm htwo ⟨hcanonical.lt, hleast, hnormal⟩]
    exact ⟨⟨hcanonical.lt, hleast, hnormal⟩, by omega, hquotient⟩

/-- A difference that the format has is exact. -/
theorem Exactly.sub (hf : Exactly q f) (hg : Exactly r g) (h : Fits (q - r)) :
    Exactly (q - r) (UnpackedFloat.sub Format.binary32 f g) := by
  have hnonneg : 0 ≤ q - r := by
    obtain ⟨n, d, -, -, -, hvalue⟩ := h
    rw [← hvalue]
    positivity
  rcases hf.cases with ⟨s, rfl, rfl⟩ | ⟨m, e, hm, rfl, hcanonical, he, rfl⟩ <;>
    rcases hg.cases with ⟨s', rfl, rfl⟩ | ⟨m', e', hm', rfl, hcanonical', he', rfl⟩
  · rw [UnpackedFloat.sub]
    split <;> exact sub_self _
  · have hpositive : (0 : ℚ) < m' * 2 ^ e' := by positivity
    linarith
  · exact ⟨hcanonical, he, (sub_zero _).symm⟩
  · obtain ⟨j, hj⟩ : ∃ j : ℕ, (e - min e e').toNat = j := ⟨_, rfl⟩
    obtain ⟨j', hj'⟩ : ∃ j' : ℕ, (e' - min e e').toNat = j' := ⟨_, rfl⟩
    have hvalue : (((m <<< j : ℕ) : ℤ) - ((m' <<< j' : ℕ) : ℤ) : ℤ) * (2 : ℚ) ^ min e e' =
        m * 2 ^ e - m' * 2 ^ e' := by
      rw [← shiftLeft_mul (m := m) j, ← shiftLeft_mul (m := m') j', show e - j = min e e' by omega,
        show e' - j' = min e e' by omega, Int.cast_sub, Int.cast_natCast, Int.cast_natCast, sub_mul]
    rw [UnpackedFloat.sub]
    -- Under the lesser exponent the difference of the mantissas is exact.
    dsimp only [UnpackedFloat.decreaseExponent]
    rw [hj, hj', ← hvalue]
    exact exactly_normalize (hvalue ▸ h)

/-! ## Numbers -/

theorem exactly_ofCount {count : UInt32} (h : count.toNat < 2 ^ 24) :
    Exactly count.toNat (Scalar.ofCount count : Float32).toModel.unpack := by
  have hcount := exactly_ofUInt32 h
  show Exactly _ (Float32.Model.pack (UnpackedFloat.ofUInt32 Format.binary32 count)).unpack
  rwa [hcount.unpack_pack]

theorem exactly_div_two_pow (hx : Exactly q x.toModel.unpack) {j : ℕ} {htwo : 0 < 2 ^ 23}
    (hy : y.toModel.unpack = .finite .positive (2 ^ 23) (j - 23) htwo)
    (hlow : q = 0 ∨ 2 ^ (-126 : ℤ) ≤ q / 2 ^ j) :
    Exactly (q / 2 ^ j) (x / y).toModel.unpack := by
  have hquotient := hx.div_two_pow htwo hlow
  show Exactly _ (Float32.Model.pack (UnpackedFloat.div Format.binary32 _ y.toModel.unpack)).unpack
  rwa [hy, hquotient.unpack_pack]

theorem exactly_sub (hx : Exactly q x.toModel.unpack) (hy : Exactly r y.toModel.unpack)
    (h : Fits (q - r)) : Exactly (q - r) (x - y).toModel.unpack := by
  have hdifference := hx.sub hy h
  show Exactly _ (Float32.Model.pack (UnpackedFloat.sub Format.binary32 _ _)).unpack
  rwa [hdifference.unpack_pack]

theorem zero_le_of_exactly (hx : Exactly q x.toModel.unpack) : 0.0 ≤ x := by
  refine zero_le_iff.2 (.inl ?_)
  rcases hx.cases with ⟨s, hzero, -⟩ | ⟨m, e, hm, hfinite, -⟩
  · unfold Finite Within
    rw [hzero]
    trivial
  · exact finite_of_unpack hfinite

theorem le_of_exactly (hx : Exactly q x.toModel.unpack) (hy : Exactly r y.toModel.unpack)
    (h : x ≤ y) : q ≤ r := by
  obtain ⟨a, b, ha, hb, hab⟩ := le_iff.1 h
  unfold rank? at ha hb
  rcases hx.cases with ⟨s, hunpack, rfl⟩ | ⟨m, e, hm, hunpack, hcanonical, -, rfl⟩
  · exact hy.nonneg
  · rcases hy.cases with ⟨s', hunpack', rfl⟩ | ⟨m', e', hm', hunpack', hcanonical', -, rfl⟩ <;>
      rw [hunpack] at ha <;> rw [hunpack'] at hb <;> cases ha <;> cases hb
    · simp [Prod.Lex.toLex_le_toLex] at hab
    · obtain ⟨-, hrest⟩ := (Prod.Lex.toLex_le_toLex.1 hab).resolve_left (Int.lt_irrefl _)
      exact mul_le_of_rank hcanonical hcanonical' hrest

theorem lt_of_exactly (hx : Exactly q x.toModel.unpack) (hy : Exactly r y.toModel.unpack)
    (h : q < r) : x < y := by
  by_contra hnot
  have hle := le_of_not_lt (not_isNaN_of_zero_le (zero_le_of_exactly hx))
    (not_isNaN_of_zero_le (zero_le_of_exactly hy)) hnot
  exact (h.trans_le (le_of_exactly hy hx hle)).false

theorem toReal_ofFloat (hx : Exactly q x.toModel.unpack) : (Word.ofFloat x).toReal = q := by
  unfold Word.toReal
  rw [toFloat_ofFloat]
  rcases hx.cases with ⟨s, hzero, rfl⟩ | ⟨m, e, hm, hfinite, -, -, rfl⟩
  · rw [hzero, Rat.cast_zero]
    rfl
  · rw [hfinite]
    push_cast
    rfl

end SphereTracer.Binary32
