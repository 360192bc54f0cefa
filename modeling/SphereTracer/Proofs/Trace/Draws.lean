import Mathlib
import SphereTracer.Trace.Path
import SphereTracer.Proofs.Numbers.Exact
import SphereTracer.Proofs.Trace.Seeds

/-!
# Draws

A draw shows the upper 24 bits of a hashed state as a fraction of `2 ^ 24`.  A number has 24 bits, so
nothing is rounded: the conversion of the bits, the division, and the difference to one are exact.
The hash permutes the states, so over all of them every fraction comes up as often as the lower bits
have values.
-/

namespace SphereTracer.Pcg

open Binary32

/-! ## Fractions -/

theorem toNat_shiftRight_eight (state : UInt32) :
    (state >>> 8).toNat = state.toNat / 2 ^ 8 ∧ (state >>> 8).toNat < 2 ^ 24 := by
  have hshift : (state >>> 8).toNat = state.toNat / 2 ^ 8 := by
    rw [UInt32.toNat_shiftRight, Nat.shiftRight_eq_div_pow]
    rfl
  have hlt := state.toNat_lt
  rw [hshift]
  exact ⟨rfl, by omega⟩

/-- Exactly divided, a draw is in `[0, 1)` as well. -/
theorem fraction_real (rng : Pcg) : 0 ≤ (rng.fraction : ℝ) ∧ (rng.fraction : ℝ) < 1 := by
  have hfraction : (rng.fraction : ℝ) = (rng.state >>> 8).toNat / 2 ^ 24 := by
    show ((rng.state >>> 8).toNat : ℝ) / OfScientific.ofScientific 167772160 true 1 = _
    norm_num
  have hlt : ((rng.state >>> 8).toNat : ℝ) < 2 ^ 24 := by
    exact_mod_cast (toNat_shiftRight_eight rng.state).2
  rw [hfraction]
  exact ⟨by positivity, (div_lt_one (by norm_num)).2 hlt⟩

theorem exactly_fraction {count : UInt32} (h : count.toNat < 2 ^ 24) :
    Exactly (count.toNat / 2 ^ 24) ((Scalar.ofCount count : Float32) / 16777216.0).toModel.unpack := by
  obtain ⟨htwo, hunpack⟩ : ∃ h, (16777216.0 : Float32).toModel.unpack =
      .finite .positive (2 ^ 23) ((24 : ℕ) - 23) h := ⟨by decide, rfl⟩
  refine exactly_div_two_pow (exactly_ofCount h) hunpack ?_
  rcases Nat.eq_zero_or_pos count.toNat with hzero | hpos
  · exact .inl (by rw [hzero, Nat.cast_zero])
  · right
    have hone : (1 : ℚ) ≤ count.toNat := by exact_mod_cast hpos
    calc (2 : ℚ) ^ (-126 : ℤ) ≤ 1 / 2 ^ 24 := by norm_num
      _ ≤ count.toNat / 2 ^ 24 := by gcongr

theorem fits_one_sub {k : ℕ} (h : k < 2 ^ 24) : Fits (1 - k / 2 ^ 24) := by
  rcases Nat.eq_zero_or_pos k with rfl | hpos
  · exact ⟨1, 0, by decide, by decide, by decide, by norm_num⟩
  · refine ⟨2 ^ 24 - k, -24, by omega, by decide, by decide, ?_⟩
    rw [Nat.cast_sub h.le]
    push_cast
    rw [zpow_neg, sub_mul, ← div_eq_mul_inv, ← div_eq_mul_inv]
    norm_num

theorem exactly_one : Exactly 1 (1.0 : Float32).toModel.unpack := by
  show Canonical (2 ^ 23) (-23) ∧ (-23 : ℤ) ≤ 104 ∧ ((2 ^ 23 : ℕ) : ℚ) * 2 ^ (-23 : ℤ) = 1
  exact ⟨⟨by decide, by decide, .inl le_rfl⟩, by decide, by norm_num⟩

theorem exactly_zero : Exactly 0 (0.0 : Float32).toModel.unpack := rfl

/-- The bits that a generator shows next. -/
def shown (rng : Pcg) : ℕ := (hash rng.state).toNat / 2 ^ 8

theorem shown_lt (rng : Pcg) : rng.shown < 2 ^ 24 := by
  have hlt := (hash rng.state).toNat_lt
  unfold shown
  omega

theorem exactly_draw (rng : Pcg) :
    Exactly (rng.shown / 2 ^ 24) (rng.draw : Float32 × Pcg).1.toModel.unpack := by
  obtain ⟨hshown, hlt⟩ := toNat_shiftRight_eight (hash rng.state)
  have hfraction := exactly_fraction hlt
  rwa [hshown] at hfraction

theorem exactly_one_sub_draw (rng : Pcg) :
    Exactly (1 - rng.shown / 2 ^ 24) (1.0 - (rng.draw : Float32 × Pcg).1).toModel.unpack :=
  exactly_sub exactly_one rng.exactly_draw (fits_one_sub rng.shown_lt)

theorem shown_div_le (rng : Pcg) : (1 : ℚ) / 2 ^ 24 ≤ 1 - rng.shown / 2 ^ 24 := by
  have hle : (rng.shown : ℚ) + 1 ≤ 2 ^ 24 := by exact_mod_cast rng.shown_lt
  linarith

theorem draw_bounds (rng : Pcg) :
    0.0 ≤ (rng.draw : Float32 × Pcg).1 ∧ (rng.draw : Float32 × Pcg).1 < 1.0 := by
  have hgap := rng.shown_div_le
  exact ⟨zero_le_of_exactly rng.exactly_draw,
    lt_of_exactly rng.exactly_draw exactly_one (by linarith)⟩

/-- What the logarithm of a free path is taken of is positive. -/
theorem one_sub_draw_pos (rng : Pcg) : 0.0 < 1.0 - (rng.draw : Float32 × Pcg).1 := by
  have hgap := rng.shown_div_le
  exact lt_of_exactly exactly_zero rng.exactly_one_sub_draw (by linarith)

/-! ## Counting -/

theorem next_bijective : Function.Bijective next := by
  constructor
  · rintro ⟨a⟩ ⟨b⟩ hab
    exact congrArg mk (hash_injective (Pcg.mk.inj hab))
  · rintro ⟨a⟩
    obtain ⟨b, rfl⟩ := hash_bijective.surjective a
    exact ⟨⟨b⟩, rfl⟩

theorem ncard_upper {k : ℕ} (h : k < 2 ^ 24) : {w : UInt32 | w.toNat / 2 ^ 8 = k}.ncard = 2 ^ 8 := by
  have himage : UInt32.toNat '' {w : UInt32 | w.toNat / 2 ^ 8 = k} =
      Set.Ico (k * 2 ^ 8) ((k + 1) * 2 ^ 8) := by
    ext n
    constructor
    · rintro ⟨w, rfl, rfl⟩
      exact ⟨Nat.div_mul_le_self _ _, Nat.lt_mul_of_div_lt (Nat.lt_succ_self _) (by decide)⟩
    · rintro ⟨hlow, hhigh⟩
      have hn : (UInt32.ofNat n).toNat = n := UInt32.toNat_ofNat_of_lt' (by
        show n < 2 ^ 32
        omega)
      refine ⟨.ofNat n, ?_, hn⟩
      show (UInt32.ofNat n).toNat / 2 ^ 8 = k
      rw [hn]
      exact Nat.div_eq_of_lt_le hlow hhigh
  rw [← Set.ncard_image_of_injective _ fun _ _ => UInt32.toNat_inj.1, himage,
    Set.ncard_eq_toFinset_card', Set.toFinset_Ico, Nat.card_Ico]
  omega

/-- As many states show some bits next as there are words that have these bits. -/
theorem ncard_shown {k : ℕ} (h : k < 2 ^ 24) : {rng : Pcg | rng.shown = k}.ncard = 2 ^ 8 := by
  -- The next state runs through the words with these upper bits, each once.
  have himage : (fun rng => rng.next.state) '' {rng : Pcg | rng.shown = k} =
      {w : UInt32 | w.toNat / 2 ^ 8 = k} := by
    ext w
    constructor
    · rintro ⟨rng, hrng, rfl⟩
      exact hrng
    · intro hw
      obtain ⟨v, rfl⟩ := hash_bijective.surjective w
      exact ⟨⟨v⟩, hw, rfl⟩
  have hinjective : Function.Injective fun rng : Pcg => rng.next.state := fun a b hab =>
    next_bijective.injective (congrArg mk hab)
  rw [← Set.ncard_image_of_injective _ hinjective, himage, ncard_upper h]

/-- States that draw the same number show the same bits. -/
theorem draw_eq_iff (rng : Pcg) {count : UInt32} (h : count.toNat < 2 ^ 24) :
    (rng.draw : Float32 × Pcg).1 = Scalar.ofCount count / 16777216.0 ↔ rng.shown = count.toNat := by
  constructor
  · intro heq
    have hdraw := toReal_ofFloat rng.exactly_draw
    have hcount := toReal_ofFloat (exactly_fraction h)
    rw [← heq, hdraw, Rat.cast_inj, div_left_inj' (by norm_num)] at hcount
    exact_mod_cast hcount
  · intro hshown
    have hcount : hash rng.state >>> 8 = count := by
      rw [← UInt32.toNat_inj, (toNat_shiftRight_eight _).1]
      exact hshown
    show Scalar.ofCount (hash rng.state >>> 8) / 16777216.0 = _
    rw [hcount]

/-- A draw is a fraction of `2 ^ 24` that is uniform over the states, without any rounding, and the
logarithm of a free path is taken of one less a draw, which is positive. -/
theorem draw_exactly_uniform :
    (∀ rng : Pcg, ∃ k : ℕ, k < 2 ^ 24 ∧ k = (hash rng.state).toNat / 2 ^ 8 ∧
      (Word.ofFloat (Scalar.ofCount (rng.next.state >>> 8))).toReal = k ∧
      (Word.ofFloat (rng.draw : Float32 × Pcg).1).toReal = k / 2 ^ 24 ∧
      0.0 ≤ (rng.draw : Float32 × Pcg).1 ∧ (rng.draw : Float32 × Pcg).1 < 1.0 ∧
      (Word.ofFloat (1.0 - (rng.draw : Float32 × Pcg).1)).toReal = 1 - k / 2 ^ 24 ∧
      (2 : ℝ)⁻¹ ^ 24 ≤ 1 - k / 2 ^ 24) ∧
    (∀ (medium : Surface Float32) (rng : Pcg), ∃ u : Float32, 0.0 < u ∧
      u = 1.0 - (rng.draw : Float32 × Pcg).1 ∧
      Path.freePath medium rng =
        if Scalar.lt 0.0 medium.scatter && Scalar.lt medium.scatter maxDistance then
          (-(Scalar.log u) * medium.scatter, rng.next)
        else (unbounded, rng)) ∧
    (∀ k : Fin (2 ^ 24), ∃ x : Float32, (Word.ofFloat x).toReal = k / 2 ^ 24 ∧
      {rng : Pcg | (rng.draw : Float32 × Pcg).1 = x}.ncard = 256) ∧
    Function.Bijective next := by
  refine ⟨fun rng => ⟨rng.shown, rng.shown_lt, rfl, ?_, ?_, rng.draw_bounds.1, rng.draw_bounds.2,
    ?_, ?_⟩, fun medium rng => ⟨_, rng.one_sub_draw_pos, rfl, rfl⟩, fun k => ?_, next_bijective⟩
  · obtain ⟨hshown, hlt⟩ := toNat_shiftRight_eight rng.next.state
    rw [toReal_ofFloat (exactly_ofCount hlt), Rat.cast_natCast, hshown]
    rfl
  · rw [toReal_ofFloat rng.exactly_draw]
    push_cast
    rfl
  · rw [toReal_ofFloat rng.exactly_one_sub_draw]
    push_cast
    rfl
  · have hgap : ((1 / 2 ^ 24 : ℚ) : ℝ) ≤ ((1 - rng.shown / 2 ^ 24 : ℚ) : ℝ) :=
      Rat.cast_le.2 rng.shown_div_le
    push_cast at hgap
    rwa [inv_pow, ← one_div]
  · have hcount : (UInt32.ofNat k).toNat = k :=
      UInt32.toNat_ofNat_of_lt' (k.isLt.trans (by decide))
    have hlt : (UInt32.ofNat k).toNat < 2 ^ 24 := hcount.symm ▸ k.isLt
    refine ⟨Scalar.ofCount (.ofNat k) / 16777216.0, ?_, ?_⟩
    · rw [toReal_ofFloat (exactly_fraction hlt), hcount]
      push_cast
      rfl
    · simp only [draw_eq_iff _ hlt, hcount]
      exact ncard_shown k.isLt

end SphereTracer.Pcg
