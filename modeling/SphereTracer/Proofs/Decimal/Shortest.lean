import SphereTracer.Proofs.Decimal.Rounding

/-!
# Shortest decimals read back

The decimal that is found for a binary32 number lies among the numbers that it is nearest to, so it
reads as that number.
-/

namespace SphereTracer.Decimal

variable {r : Rounded} {bits : ℕ}

/-- The test for points of a grid decides whether they are among the nearest. -/
theorem holds_iff (hr : r.Binary32 bits) (k : ℤ) (d : ℕ) :
    r.holds k d = true ↔ r.Near (value ⟨d, k⟩) := by
  obtain ⟨-, hdown, hten⟩ := power_spec 10 (by norm_num) k
  obtain ⟨-, hden, htwo⟩ := power_spec 2 (by norm_num) (r.q - 2)
  have hdown' : (0 : ℚ) < (power 10 k).2 := Nat.cast_pos.2 hdown
  have hden' : (0 : ℚ) < (power 2 (r.q - 2)).2 := Nat.cast_pos.2 hden
  have hscale : (0 : ℚ) < (power 10 k).2 * (power 2 (r.q - 2)).2 := mul_pos hdown' hden'
  have hquarter : (2 : ℚ) ^ r.q = 4 * 2 ^ (r.q - 2) := by
    rw [zpow_sub₀ two_ne_zero]
    norm_num
    ring
  have hbelow : r.below ≤ 4 * r.m := by
    have hpos := hr.pos
    rw [hr.below]
    split <;> omega
  push_cast at hten htwo
  have hpoint : ((d * (power 10 k).1 * (power 2 (r.q - 2)).2 : ℕ) : ℚ) =
      value ⟨d, k⟩ * ((power 10 k).2 * (power 2 (r.q - 2)).2) := by
    push_cast
    rw [hten, value]
    ring
  have hlow : (((4 * r.m - r.below) * (power 2 (r.q - 2)).1 * (power 10 k).2 : ℕ) : ℚ) =
      (r.m - r.below / 4) * 2 ^ r.q * ((power 10 k).2 * (power 2 (r.q - 2)).2) := by
    push_cast [Nat.cast_sub hbelow]
    rw [htwo, hquarter]
    ring
  have hhigh : (((4 * r.m + 2) * (power 2 (r.q - 2)).1 * (power 10 k).2 : ℕ) : ℚ) =
      (r.m + 1 / 2) * 2 ^ r.q * ((power 10 k).2 * (power 2 (r.q - 2)).2) := by
    push_cast
    rw [htwo, hquarter]
    ring
  have hle {a b : ℕ} {x y : ℚ} (ha : (a : ℚ) = x * ((power 10 k).2 * (power 2 (r.q - 2)).2))
      (hb : (b : ℚ) = y * ((power 10 k).2 * (power 2 (r.q - 2)).2)) :
      (a ≤ b ↔ x ≤ y) ∧ (a < b ↔ x < y) := by
    rw [← Nat.cast_le (α := ℚ), ← Nat.cast_lt (α := ℚ), ha, hb]
    exact ⟨mul_le_mul_iff_left₀ hscale, mul_lt_mul_iff_left₀ hscale⟩
  unfold Rounded.Near
  rw [← (hle hlow hpoint).1, ← (hle hlow hpoint).2, ← (hle hpoint hhigh).1, ← (hle hpoint hhigh).2]
  unfold Rounded.holds
  cases r.closed <;> simp

theorem holds_of_nearest {tie : Tie} {k : ℤ} {d : ℕ} (h : r.nearest? tie k = some d) :
    r.holds k d = true := by
  unfold Rounded.nearest? at h
  generalize r.floorOn k = place at h
  obtain ⟨d', rest⟩ := place
  simp only at h
  split at h
  · next h₁ h₂ =>
    split at h
    · exact Option.some.inj h ▸ h₁
    · exact Option.some.inj h ▸ h₂
  · next h₁ _ => exact Option.some.inj h ▸ h₁
  · next _ h₂ => exact Option.some.inj h ▸ h₂
  · exact absurd h (by simp)

theorem near_self (hr : r.Binary32 bits) : r.Near (r.m * 2 ^ r.q) := by
  have hunit : (0 : ℚ) < 2 ^ r.q := by positivity
  have hbelow := hr.one_le_below
  unfold Rounded.Near
  split
  · constructor <;> nlinarith
  · constructor <;> nlinarith

/-- A search ends with a decimal that reads back, of an exponent that is not too small. -/
theorem search_near (hr : r.Binary32 bits) (tie : Tie) (fuel : ℕ) (k : ℤ) :
    r.Near (r.search tie fuel k).value ∧
      (k - fuel ≤ (r.search tie fuel k).exponent ∨ -149 ≤ (r.search tie fuel k).exponent) := by
  -- The exponent goes down by one with each step, and the last resort is not below -149.
  induction fuel generalizing k with
  | zero =>
    have hself := near_self hr
    unfold Rounded.search
    split
    · next hq =>
      obtain ⟨n, hn⟩ := Int.eq_ofNat_of_zero_le hq
      rw [hn] at hself ⊢
      refine ⟨?_, .inr (by norm_num)⟩
      simpa [value] using hself
    · next hq =>
      obtain ⟨n, hn⟩ : ∃ n : ℕ, r.q = -n := ⟨(-r.q).toNat, by omega⟩
      refine ⟨?_, .inr hr.least⟩
      rw [hn] at hself ⊢
      have hvalue : value ⟨r.m * Nat.pow 5 (- -(n : ℤ)).toNat, -n⟩ = r.m * 2 ^ (-n : ℤ) := by
        have hten : (10 : ℚ) ^ n = 5 ^ n * 2 ^ n := by rw [← mul_pow]; norm_num
        simp only [value, neg_neg, Int.toNat_natCast, zpow_neg, zpow_natCast, hten, Nat.pow_eq]
        push_cast
        field_simp
      rw [hvalue]
      exact hself
  | succ fuel ih =>
    unfold Rounded.search
    cases hd : r.nearest? tie k with
    | none =>
      obtain ⟨hnear, hexponent⟩ := ih (k - 1)
      refine ⟨hnear, hexponent.imp_left fun h => ?_⟩
      simp only
      omega
    | some d =>
      refine ⟨(holds_iff hr k d).1 (holds_of_nearest hd), .inl ?_⟩
      simp only
      omega

theorem shortest_near (hr : r.Binary32 bits) (tie : Tie) :
    r.Near (r.shortest tie).value ∧ -149 ≤ (r.shortest tie).exponent := by
  obtain ⟨hnear, hexponent⟩ := search_near hr tie 24 r.magnitude
  refine ⟨hnear, ?_⟩
  change _ ≤ (r.search tie 24 r.magnitude).exponent
  have hleast := hr.least
  have hmagnitude : -43 ≤ r.magnitude := by
    unfold Rounded.magnitude
    omega
  omega

end SphereTracer.Decimal
