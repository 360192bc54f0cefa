import Mathlib
import SphereTracer.Proofs.Numbers.Nonnegative

/-!
# Differences

A number less one that is not above it is not negative, however it is rounded.  Infinity less itself
is the one difference of that kind that is not a number.
-/

namespace SphereTracer.Binary32

open Float.Model
open UnpackedFloat (Sign)

variable {x y : Float32} {n : ℤ}

theorem mul_le_of_rank {m m' : ℕ} {e e' : ℤ} (h : Canonical m e) (h' : Canonical m' e')
    (hle : toLex (e, (m : ℤ)) ≤ toLex (e', (m' : ℤ))) : (m : ℚ) * 2 ^ e ≤ m' * 2 ^ e' := by
  -- A greater exponent has the first bit of its mantissa set, which outweighs 24 bits below.
  rcases Prod.Lex.toLex_le_toLex.1 hle with hlt | ⟨heq, hm⟩
  · change e < e' at hlt
    have hleast := h.least
    have hfirst : (2 ^ 23 : ℚ) ≤ m' := by
      exact_mod_cast h'.normal.resolve_right (by omega)
    calc (m : ℚ) * 2 ^ e ≤ 2 ^ 24 * 2 ^ (e' - 1) := by
          gcongr
          · exact_mod_cast h.lt.le
          · exact one_le_two
          · omega
      _ = 2 ^ 23 * 2 ^ e' := by
          rw [zpow_sub_one₀ two_ne_zero]
          ring
      _ ≤ m' * 2 ^ e' := by gcongr
  · change e = e' at heq
    change (m : ℤ) ≤ m' at hm
    subst heq
    gcongr
    exact_mod_cast hm

theorem atMost_normalize {d e : ℤ} (hd : 0 ≤ d) (hn : -125 ≤ n)
    (hlt : (d : ℚ) * 2 ^ e < 2 ^ n + 2 ^ (n - 24)) :
    AtMost n (UnpackedFloat.normalize Format.binary32 d e .positive) := by
  unfold UnpackedFloat.normalize
  rcases hd.eq_or_lt with hzero | hpos
  · rw [compare_eq_iff_eq.2 hzero.symm]
    trivial
  · rw [compare_gt_iff_gt.2 hpos]
    refine atMost_round (by omega) hn ?_
    have hcast : ((d.toNat : ℕ) : ℚ) = d := by
      exact_mod_cast congrArg (Int.cast : ℤ → ℚ) (Int.toNat_of_nonneg hd)
    rwa [hcast]

/-- The number of a sign, a mantissa and an exponent. -/
def signedValue (s : Sign) (m : ℕ) (e : ℤ) : ℚ := (s.apply m : ℤ) * 2 ^ e

theorem signedValue_le {s s' : Sign} {m m' : ℕ} {e e' : ℤ} {hm : 0 < m} {hm' : 0 < m'}
    {a b : ℤ ×ₗ ℤ ×ₗ ℤ} (h : Canonical m e) (h' : Canonical m' e')
    (ha : rankUnpacked? (.finite s m e hm) = some a)
    (hb : rankUnpacked? (.finite s' m' e' hm') = some b) (hle : a ≤ b) :
    signedValue s m e ≤ signedValue s' m' e' := by
  unfold signedValue
  rcases s with _ | _ <;> rcases s' with _ | _ <;> cases ha <;> cases hb
  · obtain ⟨-, hrest⟩ := (Prod.Lex.toLex_le_toLex.1 hle).resolve_left (Int.lt_irrefl _)
    have hmagnitude : toLex (e', (m' : ℤ)) ≤ toLex (e, (m : ℤ)) := by
      simp only [Prod.Lex.toLex_le_toLex] at hrest ⊢
      omega
    have hvalue := mul_le_of_rank h' h hmagnitude
    simp only [Sign.apply, Int.cast_neg, Int.cast_natCast]
    linarith
  · have hneg : (0 : ℚ) ≤ m * 2 ^ e := by positivity
    have hpos : (0 : ℚ) ≤ m' * 2 ^ e' := by positivity
    simp only [Sign.apply, Int.cast_neg, Int.cast_natCast]
    linarith
  · simp [Prod.Lex.toLex_le_toLex] at hle
  · obtain ⟨-, hrest⟩ := (Prod.Lex.toLex_le_toLex.1 hle).resolve_left (Int.lt_irrefl _)
    exact mul_le_of_rank h h' hrest

theorem abs_signedValue_le {s : Sign} {m : ℕ} {e : ℤ} (hm : 0 < m) (h : Canonical m e)
    (he : e ≤ 104) : |signedValue s m e| ≤ 2 ^ (128 : ℤ) := by
  have hvalue : |signedValue s m e| = m * 2 ^ e := by
    unfold signedValue
    rcases s with _ | _ <;> simp [Sign.apply, abs_mul]
  rw [hvalue]
  have hatMost : AtMost 128 (.finite .positive m e hm) := h.atMost he
  exact hatMost.2

theorem signedValue_shiftLeft (s : Sign) (m : ℕ) {e₀ e : ℤ} {j : ℕ} (he : e = e₀ + j) :
    ((s.apply (m <<< j : ℕ) : ℤ) : ℚ) * 2 ^ e₀ = signedValue s m e := by
  have hvalue := shiftLeft_mul (m := m) (e := e) j
  rw [show e - j = e₀ by omega] at hvalue
  unfold signedValue
  rcases s with _ | _ <;> simp only [Sign.apply, Int.cast_neg, Int.cast_natCast, neg_mul, hvalue]

/-- The mantissas are subtracted exactly under the lesser exponent. -/
theorem atMost_sub_finite {s s' : Sign} {m m' : ℕ} {e e' : ℤ} {hm : 0 < m} {hm' : 0 < m'}
    (h : Canonical m e) (he : e ≤ 104) (h' : Canonical m' e') (he' : e' ≤ 104)
    (hle : signedValue s' m' e' ≤ signedValue s m e) :
    AtMost 129 (UnpackedFloat.sub Format.binary32 (.finite s m e hm) (.finite s' m' e' hm')) := by
  obtain ⟨j, hj⟩ : ∃ j : ℕ, (e - min e e').toNat = j := ⟨_, rfl⟩
  obtain ⟨j', hj'⟩ : ∃ j' : ℕ, (e' - min e e').toNat = j' := ⟨_, rfl⟩
  have hdifference : (((s.apply (m <<< j : ℕ) : ℤ) - (s'.apply (m' <<< j' : ℕ) : ℤ) : ℤ) : ℚ) *
      2 ^ min e e' = signedValue s m e - signedValue s' m' e' := by
    rw [Int.cast_sub, sub_mul, signedValue_shiftLeft s m (show e = min e e' + j by omega),
      signedValue_shiftLeft s' m' (show e' = min e e' + j' by omega)]
  rw [UnpackedFloat.sub]
  dsimp only [UnpackedFloat.decreaseExponent]
  rw [hj, hj']
  apply atMost_normalize
  · have hpos : (0 : ℚ) < 2 ^ min e e' := by positivity
    have hnonneg := sub_nonneg.2 hle
    rw [← hdifference] at hnonneg
    exact_mod_cast nonneg_of_mul_nonneg_left hnonneg hpos
  · decide
  · rw [hdifference]
    have hbound := abs_le.1 (abs_signedValue_le (s := s) hm h he)
    have hbound' := abs_le.1 (abs_signedValue_le (s := s') hm' h' he')
    norm_num at hbound hbound' ⊢
    linarith

/-- A number less a number of at most its rank is not a number, infinite or not negative. -/
theorem sub_cases {f g : UnpackedFloat} {a b : ℤ ×ₗ ℤ ×ₗ ℤ}
    (hf : ∀ s m e hm, f = .finite s m e hm → Canonical m e ∧ e ≤ 104)
    (hg : ∀ s m e hm, g = .finite s m e hm → Canonical m e ∧ e ≤ 104)
    (ha : rankUnpacked? g = some a) (hb : rankUnpacked? f = some b) (hle : a ≤ b) :
    UnpackedFloat.sub Format.binary32 f g = .notANumber ∨
      UnpackedFloat.sub Format.binary32 f g = .infinity .positive ∨
        AtMost 129 (UnpackedFloat.sub Format.binary32 f g) := by
  rcases f with (_ | _) | _ | s | ⟨s, m, e, hm⟩
  · rcases g with (_ | _) | _ | _ | ⟨_ | _, m', e', hm'⟩ <;> cases ha <;> cases hb
    · exact .inl rfl
    all_goals exact absurd hle (by simp [Prod.Lex.toLex_le_toLex])
  · rcases g with (_ | _) | _ | _ | _
    · exact .inr (.inl rfl)
    · exact .inl rfl
    · cases ha
    · exact .inr (.inl rfl)
    · exact .inr (.inl rfl)
  · cases hb
  · rcases g with (_ | _) | _ | s' | ⟨_ | _, m', e', hm'⟩ <;> cases ha <;> cases hb
    · exact .inr (.inl rfl)
    · exact absurd hle (by simp [Prod.Lex.toLex_le_toLex])
    · right
      right
      rw [UnpackedFloat.sub]
      split <;> trivial
    · obtain ⟨h', he'⟩ := hg _ _ _ _ rfl
      exact .inr (.inr ((h'.atMost he').mono (by decide)))
    · exact absurd hle (by simp [Prod.Lex.toLex_le_toLex])
  · obtain ⟨h, he⟩ := hf _ _ _ _ rfl
    rcases g with (_ | _) | _ | s' | ⟨s', m', e', hm'⟩
    · exact .inr (.inl rfl)
    · rcases s with _ | _ <;> cases ha <;> cases hb <;>
        exact absurd hle (by simp [Prod.Lex.toLex_le_toLex])
    · cases ha
    · rcases s with _ | _ <;> cases ha <;> cases hb
      · exact absurd hle (by simp [Prod.Lex.toLex_le_toLex])
      · exact .inr (.inr ((h.atMost he).mono (by decide)))
    · obtain ⟨h', he'⟩ := hg _ _ _ _ rfl
      exact .inr (.inr (atMost_sub_finite h he h' he' (signedValue_le h' h ha hb hle)))

theorem zero_le_sub (hle : y ≤ x) (hnumber : ¬ (x - y).isNaN) : 0.0 ≤ x - y := by
  obtain ⟨a, b, ha, hb, hab⟩ := le_iff.1 hle
  have hpacked : (x - y).toModel.unpack = (Float32.Model.pack
    (UnpackedFloat.sub Format.binary32 x.toModel.unpack y.toModel.unpack)).unpack := rfl
  have hcases := sub_cases (f := x.toModel.unpack) (g := y.toModel.unpack)
    (fun _ _ _ _ => canonical_of_unpack) (fun _ _ _ _ => canonical_of_unpack) ha hb hab
  rcases hcases with hdifference | hdifference | hdifference
  · refine absurd (isNaN_iff_unpack.2 ?_) hnumber
    rw [hpacked, hdifference, unpack_notANumber]
  · refine zero_le_iff.2 (.inr ?_)
    rw [Infinite, hpacked, hdifference, unpack_infinity]
  · exact zero_le_iff.2 (finite_or_infinite_pack hdifference)

theorem isNaN_sub_left (hx : x.isNaN) (y : Float32) : (x - y).isNaN := by
  rw [isNaN_iff_unpack] at hx ⊢
  have hdifference (f : UnpackedFloat) :
      UnpackedFloat.sub Format.binary32 .notANumber f = .notANumber := by
    cases f <;> rfl
  show (Float32.Model.pack (UnpackedFloat.sub Format.binary32 x.toModel.unpack _)).unpack = _
  rw [hx, hdifference, unpack_notANumber]

end SphereTracer.Binary32
