import Mathlib
import SphereTracer.Decimal.Nearest
import SphereTracer.Decimal.Style

/-!
# Rounding decimals

Around every positive binary32 number lies an interval of numbers that it is nearest to.  A decimal in
the interval reads as the number.
-/

namespace SphereTracer.Decimal

/-- The number that a decimal stands for. -/
def value (d : Decimal) : ℚ := d.digits * 10 ^ d.exponent

theorem power_spec (base : ℕ) (hbase : 0 < base) (n : ℤ) :
    0 < (power base n).1 ∧ 0 < (power base n).2 ∧
      ((power base n).1 : ℚ) = base ^ n * (power base n).2 := by
  have hne : (base : ℚ) ≠ 0 := Nat.cast_ne_zero.2 hbase.ne'
  unfold power
  split
  · next hn =>
    obtain ⟨k, rfl⟩ := Int.eq_ofNat_of_zero_le hn
    refine ⟨Nat.pow_pos hbase, Nat.one_pos, ?_⟩
    simp
  · next hn =>
    obtain ⟨k, rfl⟩ : ∃ k : ℕ, n = -k := ⟨(-n).toNat, by omega⟩
    refine ⟨Nat.one_pos, Nat.pow_pos hbase, ?_⟩
    simp [hne]

/-- The nearest integer, a half to the even one. -/
theorem roundDiv_eq {num den n : ℕ} (hden : 0 < den) (hlow : (n : ℚ) - 1 / 2 ≤ num / den)
    (hhigh : (num : ℚ) / den ≤ n + 1 / 2)
    (htie : (n : ℚ) - 1 / 2 = num / den ∨ (num : ℚ) / den = n + 1 / 2 → n % 2 = 0) :
    roundDiv num den = n := by
  have hpos : (0 : ℚ) < den := Nat.cast_pos.2 hden
  rw [le_div_iff₀ hpos] at hlow
  rw [div_le_iff₀ hpos] at hhigh
  rw [eq_div_iff hpos.ne', div_eq_iff hpos.ne'] at htie
  have hdiv := Nat.div_add_mod num den
  have hmod := Nat.mod_lt num hden
  have hlow' : 2 * n * den ≤ 2 * num + den := by
    have : (2 * n * den : ℚ) ≤ 2 * num + den := by linarith
    exact_mod_cast this
  have hhigh' : 2 * num ≤ (2 * n + 1) * den := by
    have : (2 * num : ℚ) ≤ (2 * n + 1) * den := by linarith
    exact_mod_cast this
  have htie' : 2 * n * den = 2 * num + den ∨ 2 * num = (2 * n + 1) * den → n % 2 = 0 := by
    rintro (h | h)
    · refine htie (.inl ?_)
      have : (2 * n * den : ℚ) = 2 * num + den := by exact_mod_cast h
      linarith
    · refine htie (.inr ?_)
      have : (2 * num : ℚ) = (2 * n + 1) * den := by exact_mod_cast h
      linarith
  unfold roundDiv
  generalize num / den = d at *
  generalize num % den = r at *
  -- Half a unit around `n` reaches the floor of the quotient and its successor only.
  have hcases : n = d ∨ n = d + 1 := by
    have habove : n < d + 2 := by
      by_contra hge
      have := Nat.mul_le_mul_right den (Nat.le_of_not_lt hge)
      linarith
    have hbelow : d ≤ n := by
      by_contra hlt
      have := Nat.mul_le_mul_right den (Nat.succ_le_of_lt (Nat.lt_of_not_le hlt))
      linarith
    omega
  rcases hcases with rfl | rfl
  · have hle : 2 * r ≤ den := by linarith
    rcases hle.lt_or_eq with hlt | heq
    · simp only [compare_lt_iff_lt.2 hlt]
    · have heven := htie' (.inr (by linarith))
      simp only [heq, compare_eq_iff_eq.2, heven, if_true]
  · have hge : den ≤ 2 * r := by linarith
    rcases hge.lt_or_eq with hlt | heq
    · simp only [compare_gt_iff_gt.2 hlt]
    · have heven := htie' (.inl (by linarith))
      have hodd : ¬ d % 2 = 0 := by omega
      simp only [← heq, compare_eq_iff_eq.2, hodd, if_false]

/-- A quotient lies between two powers of two that its logarithms give. -/
theorem quotient_between {num den : ℕ} (hnum : 0 < num) (hden : 0 < den) :
    (2 : ℚ) ^ ((num.log2 : ℤ) - den.log2 - 1) ≤ num / den ∧
      (num : ℚ) / den < 2 ^ ((num.log2 : ℤ) - den.log2 + 1) := by
  have hpos : (0 : ℚ) < den := Nat.cast_pos.2 hden
  have htwo : (2 : ℚ) ≠ 0 := by norm_num
  have hnumLow : (2 : ℚ) ^ num.log2 ≤ num := by exact_mod_cast Nat.log2_self_le hnum.ne'
  have hnumHigh : (num : ℚ) < 2 ^ (num.log2 + 1) := by exact_mod_cast Nat.lt_log2_self
  have hdenLow : (2 : ℚ) ^ den.log2 ≤ den := by exact_mod_cast Nat.log2_self_le hden.ne'
  have hdenHigh : (den : ℚ) < 2 ^ (den.log2 + 1) := by exact_mod_cast Nat.lt_log2_self
  constructor
  · rw [le_div_iff₀ hpos]
    have hpow : (2 : ℚ) ^ ((num.log2 : ℤ) - den.log2 - 1) * 2 ^ (den.log2 + 1) = 2 ^ num.log2 := by
      rw [← zpow_natCast, ← zpow_natCast, ← zpow_add₀ htwo]
      congr 1
      push_cast
      ring
    have hscale : (0 : ℚ) < 2 ^ ((num.log2 : ℤ) - den.log2 - 1) := by positivity
    nlinarith
  · rw [div_lt_iff₀ hpos]
    have hpow : (2 : ℚ) ^ ((num.log2 : ℤ) - den.log2 + 1) * 2 ^ den.log2 = 2 ^ (num.log2 + 1) := by
      rw [← zpow_natCast, ← zpow_natCast, ← zpow_add₀ htwo]
      congr 1
      push_cast
      ring
    have hscale : (0 : ℚ) < 2 ^ ((num.log2 : ℤ) - den.log2 + 1) := by positivity
    nlinarith

/-- The exponent of a quotient's leading bit, which decides the spacing. -/
theorem exists_leading {num den : ℕ} (hnum : 0 < num) (hden : 0 < den) :
    ∃ e : ℤ, spacing num den = max (e - 23) (-149) ∧ (2 : ℚ) ^ e ≤ num / den ∧
      (num : ℚ) / den < 2 ^ (e + 1) := by
  obtain ⟨hlow, hhigh⟩ := quotient_between hnum hden
  obtain ⟨-, hb, hpower⟩ := power_spec 2 (by norm_num) ((num.log2 : ℤ) - den.log2)
  have hb' : (0 : ℚ) < (power 2 ((num.log2 : ℤ) - den.log2)).2 := Nat.cast_pos.2 hb
  have hden' : (0 : ℚ) < den := Nat.cast_pos.2 hden
  have htest : num * (power 2 ((num.log2 : ℤ) - den.log2)).2 <
      den * (power 2 ((num.log2 : ℤ) - den.log2)).1 ↔
      (num : ℚ) / den < 2 ^ ((num.log2 : ℤ) - den.log2) := by
    rw [div_lt_iff₀ hden', ← mul_lt_mul_iff_left₀ hb', ← Nat.cast_lt (α := ℚ)]
    push_cast at hpower ⊢
    rw [hpower]
    ring_nf
  by_cases hlt : (num : ℚ) / den < 2 ^ ((num.log2 : ℤ) - den.log2)
  · refine ⟨(num.log2 : ℤ) - den.log2 - 1, ?_, hlow, by rwa [sub_add_cancel]⟩
    unfold spacing
    simp only [if_pos (htest.2 hlt)]
  · refine ⟨(num.log2 : ℤ) - den.log2, ?_, le_of_not_gt hlt, hhigh⟩
    unfold spacing
    simp only [if_neg (fun h => hlt (htest.1 h))]

/-- The spacing is that of the numbers of 24 bits around a quotient, and at least the least. -/
theorem spacing_spec {num den : ℕ} (hnum : 0 < num) (hden : 0 < den) :
    -149 ≤ spacing num den ∧ (num : ℚ) / den < 2 ^ (spacing num den + 24) ∧
      (spacing num den = -149 ∨ (2 : ℚ) ^ (spacing num den + 23) ≤ num / den) := by
  obtain ⟨e, he, hbelow, habove⟩ := exists_leading hnum hden
  rw [he]
  refine ⟨le_max_right _ _, ?_, ?_⟩
  · refine habove.trans_le (zpow_le_zpow_right₀ (by norm_num) ?_)
    have := le_max_left (e - 23) (-149)
    omega
  · rcases le_total (e - 23) (-149) with hle | hle
    · exact .inl (max_eq_right hle)
    · refine .inr ?_
      rw [max_eq_left hle, sub_add_cancel]
      exact hbelow

/-- A positive binary32 number of the given pattern. -/
structure Rounded.Binary32 (r : Rounded) (bits : ℕ) : Prop where
  pattern : bits = (r.q + 149).toNat * 0x800000 + r.m
  least : -149 ≤ r.q
  pos : 0 < r.m
  lt : r.m < 0x1000000
  normal : r.q = -149 ∨ 0x800000 ≤ r.m
  below : r.below = if r.m = 0x800000 ∧ r.q ≠ -149 then 1 else 2
  closed : r.closed = decide (r.m % 2 = 0)

theorem ofBits_binary32 {bits : ℕ} (hbits : 0 < bits) :
    (Rounded.ofBits 23 (-149) bits).Binary32 bits := by
  have hdiv := Nat.div_add_mod bits 0x800000
  have hmod := Nat.mod_lt bits (show 0 < 0x800000 by norm_num)
  have hpow : Nat.pow 2 23 = 0x800000 := rfl
  unfold Rounded.ofBits
  simp only [hpow]
  generalize bits / 0x800000 = exponent at *
  generalize bits % 0x800000 = fraction at *
  split
  · next h =>
    subst h
    exact ⟨by simp; omega, le_refl _, by simp; omega, by simp; omega, .inl rfl, by simp, rfl⟩
  · next h =>
    refine ⟨?_, ?_, ?_, ?_, ?_, ?_, ?_⟩ <;> simp only
    · omega
    · omega
    · omega
    · omega
    · omega
    · split <;> split <;> omega

/-- The numbers that a binary number is nearest to. -/
def Rounded.Near (r : Rounded) (x : ℚ) : Prop :=
  if r.closed then (r.m - r.below / 4 : ℚ) * 2 ^ r.q ≤ x ∧ x ≤ (r.m + 1 / 2) * 2 ^ r.q
  else (r.m - r.below / 4 : ℚ) * 2 ^ r.q < x ∧ x < (r.m + 1 / 2) * 2 ^ r.q

theorem Rounded.Near.le {r : Rounded} {x : ℚ} (h : r.Near x) :
    (r.m - r.below / 4 : ℚ) * 2 ^ r.q ≤ x ∧ x ≤ (r.m + 1 / 2) * 2 ^ r.q := by
  unfold Near at h
  split at h
  · exact h
  · exact ⟨h.1.le, h.2.le⟩

theorem Rounded.Near.even {r : Rounded} {bits : ℕ} (hr : r.Binary32 bits) {x : ℚ} (h : r.Near x)
    (hend : x = (r.m - r.below / 4 : ℚ) * 2 ^ r.q ∨ x = (r.m + 1 / 2) * 2 ^ r.q) :
    r.m % 2 = 0 := by
  by_contra hodd
  have hopen : r.closed = false := hr.closed.trans (decide_eq_false hodd)
  unfold Near at h
  rw [hopen] at h
  rcases hend with rfl | rfl
  · exact lt_irrefl _ h.1
  · exact lt_irrefl _ h.2

theorem quotient_scaled (num : ℕ) {den : ℕ} (hden : 0 < den) (q : ℤ) :
    0 < den * (power 2 q).1 ∧
      ((num * (power 2 q).2 : ℕ) : ℚ) / (den * (power 2 q).1 : ℕ) = num / den / 2 ^ q := by
  obtain ⟨ha, hb, hpower⟩ := power_spec 2 (by norm_num) q
  refine ⟨Nat.mul_pos hden ha, ?_⟩
  have hb' : ((power 2 q).2 : ℚ) ≠ 0 := Nat.cast_ne_zero.2 hb.ne'
  have hden' : (den : ℚ) ≠ 0 := Nat.cast_ne_zero.2 hden.ne'
  have htwo : (2 : ℚ) ^ q ≠ 0 := by positivity
  push_cast at hpower ⊢
  rw [hpower]
  field_simp

section
variable {r : Rounded} {bits num den : ℕ}

theorem Rounded.Binary32.below_le (hr : r.Binary32 bits) : (r.below : ℚ) ≤ 2 := by
  rw [hr.below]
  split <;> norm_num

theorem Rounded.Binary32.one_le_below (hr : r.Binary32 bits) : (1 : ℚ) ≤ r.below := by
  rw [hr.below]
  split <;> norm_num

theorem Rounded.Binary32.near_pos (hr : r.Binary32 bits) {x : ℚ} (hx : r.Near x) : 0 < x := by
  have hunit : (0 : ℚ) < 2 ^ r.q := by positivity
  have hm : (1 : ℚ) ≤ r.m := by exact_mod_cast hr.pos
  have hbelow := hr.below_le
  exact lt_of_lt_of_le (by nlinarith) hx.le.1

/-- In units of its own last place, a number is the nearest integer. -/
theorem roundDiv_of_near (hr : r.Binary32 bits) (hden : 0 < den) (hx : r.Near (num / den)) :
    roundDiv (num * (power 2 r.q).2) (den * (power 2 r.q).1) = r.m := by
  obtain ⟨hscaled, hquotient⟩ := quotient_scaled num hden r.q
  obtain ⟨hlow, hhigh⟩ := hx.le
  have hunit : (0 : ℚ) < 2 ^ r.q := by positivity
  have hbelow := hr.below_le
  apply roundDiv_eq hscaled
  · rw [hquotient, le_div_iff₀ hunit]
    nlinarith
  · rw [hquotient, div_le_iff₀ hunit]
    exact hhigh
  · rw [hquotient, eq_div_iff hunit.ne', div_eq_iff hunit.ne']
    rintro (heq | heq)
    · refine hx.even hr (.inl (le_antisymm ?_ hlow))
      rw [← heq]
      nlinarith
    · exact hx.even hr (.inr heq)

/-- Below a power of two the spacing halves, and a quotient that is read as the power is so in terms
of the smaller spacing. -/
theorem roundDiv_of_near_power (hden : 0 < den) (hx : r.Near (num / den)) {q : ℤ}
    (hq : r.q = q + 1) (hbelow : r.below = 1) (hm : r.m = 0x800000)
    (hlt : (num : ℚ) / den < 2 ^ (q + 24)) :
    roundDiv (num * (power 2 q).2) (den * (power 2 q).1) = 0x1000000 := by
  obtain ⟨hscaled, hquotient⟩ := quotient_scaled num hden q
  have hunit : (0 : ℚ) < 2 ^ q := by positivity
  have hlow := hx.le.1
  rw [hbelow, hm, hq, zpow_add₀ two_ne_zero, zpow_one] at hlow
  rw [zpow_add₀ two_ne_zero] at hlt
  apply roundDiv_eq hscaled
  · rw [hquotient, le_div_iff₀ hunit]
    push_cast at hlow ⊢
    linarith
  · rw [hquotient, div_le_iff₀ hunit]
    push_cast
    norm_num at hlt
    linarith
  · intro
    norm_num

/-- The spacing around a quotient is that of the number which it is nearest to, or half of it: then
the quotient is just below the number, and the number is a power of two. -/
theorem Rounded.Binary32.spacing_cases (hr : r.Binary32 bits) (hnum : 0 < num) (hden : 0 < den)
    (hx : r.Near (num / den)) :
    spacing num den = r.q ∨ r.q = spacing num den + 1 ∧ r.below = 1 ∧ r.m = 0x800000 := by
  obtain ⟨hlow, hhigh⟩ := hx.le
  obtain ⟨hleast, hbefore, hafter⟩ := spacing_spec hnum hden
  have hunit : (0 : ℚ) < 2 ^ r.q := by positivity
  have hm : (r.m : ℚ) ≤ 0xffffff := by exact_mod_cast Nat.le_of_lt_succ hr.lt
  have hbelow := hr.below_le
  generalize spacing num den = q at *
  have hshift (k : ℕ) (q : ℤ) : (2 : ℚ) ^ (q + k) = 2 ^ k * 2 ^ q := by
    rw [zpow_add₀ two_ne_zero, zpow_natCast, mul_comm]
  -- A coarser spacing would put the quotient beyond the largest mantissa.
  have hle : q ≤ r.q := by
    by_contra hlt
    have hbig := hafter.resolve_left (by have := hr.least; omega)
    have hpow : (2 : ℚ) ^ (r.q + (24 : ℕ)) ≤ 2 ^ (q + 23) :=
      zpow_le_zpow_right₀ (by norm_num) (by push_cast; omega)
    rw [hshift] at hpow
    nlinarith
  rcases hle.eq_or_lt with heq | hlt
  · exact .inl heq
  have hnormal := hr.normal.resolve_left (by omega)
  have hsmall : (2 : ℚ) ^ (q + 24) ≤ 2 ^ (r.q + (23 : ℕ)) :=
    zpow_le_zpow_right₀ (by norm_num) (by push_cast; omega)
  rw [hshift] at hsmall
  have hpower : r.m = 0x800000 := by
    refine le_antisymm (Nat.le_of_lt_succ ?_) hnormal
    have hreal : (r.m : ℚ) < 0x800001 := by nlinarith
    exact_mod_cast hreal
  have hone : r.below = 1 := by rw [hr.below, if_pos ⟨hpower, by omega⟩]
  refine .inr ⟨?_, hone, hpower⟩
  by_contra hne
  have hfar : (2 : ℚ) ^ (q + 24) ≤ 2 ^ (r.q + (22 : ℕ)) :=
    zpow_le_zpow_right₀ (by norm_num) (by push_cast; omega)
  rw [hshift] at hfar
  rw [hpower, hone] at hlow
  push_cast at hlow
  nlinarith

/-- A quotient is read as the number that it is nearest to. -/
theorem quotientBits_eq (hr : r.Binary32 bits) (hbits : bits < 0x7f800000) (hden : 0 < den)
    (hx : r.Near (num / den)) : quotientBits num den = bits := by
  have hx0 := hr.near_pos hx
  have hnum : 0 < num := by
    refine Nat.pos_of_ne_zero fun h0 => ?_
    rw [h0, Nat.cast_zero, zero_div] at hx0
    exact lt_irrefl _ hx0
  obtain ⟨hleast, hbefore, -⟩ := spacing_spec hnum hden
  have hround : (spacing num den + 149).toNat * 0x800000 +
      roundDiv (num * (power 2 (spacing num den)).2) (den * (power 2 (spacing num den)).1) =
        bits := by
    rw [hr.pattern]
    rcases hr.spacing_cases hnum hden hx with heq | ⟨hq, hbelow, hpower⟩
    · rw [heq, roundDiv_of_near hr hden hx]
    · rw [roundDiv_of_near_power hden hx hq hbelow hpower hbefore, hpower]
      omega
  unfold quotientBits
  rw [if_neg hnum.ne']
  simp only [hround]
  omega

/-! ## Decimals far from every number -/

theorem Rounded.Binary32.near_lt (hr : r.Binary32 bits) (hbits : bits < 0x7f800000) {x : ℚ}
    (hx : r.Near x) : (2 : ℚ) ^ (-150 : ℤ) ≤ x ∧ x < 2 ^ 128 := by
  obtain ⟨hlow, hhigh⟩ := hx.le
  have hm : (1 : ℚ) ≤ r.m := by exact_mod_cast hr.pos
  have hm' : (r.m : ℚ) ≤ 0xffffff := by exact_mod_cast Nat.le_of_lt_succ hr.lt
  have hbelow := hr.below_le
  constructor
  · have hunit : (2 : ℚ) ^ (-149 : ℤ) ≤ 2 ^ r.q := zpow_le_zpow_right₀ (by norm_num) hr.least
    have hhalf : (2 : ℚ) ^ (-150 : ℤ) = 1 / 2 * 2 ^ (-149 : ℤ) := by norm_num
    have hfirst : 1 / 2 ≤ (r.m - r.below / 4 : ℚ) := by linarith
    rw [hhalf]
    exact (mul_le_mul hfirst hunit (by positivity) (by linarith)).trans hlow
  · have hq : r.q ≤ 104 := by
      have hpattern := hr.pattern
      have hnormal := hr.normal
      omega
    have hunit : (2 : ℚ) ^ r.q ≤ 2 ^ (104 : ℤ) := zpow_le_zpow_right₀ (by norm_num) hq
    norm_num at hunit ⊢
    nlinarith

theorem log2_digits_le {d : Decimal} (hdigits : d.digits ≠ 0) (hexponent : -160 ≤ d.exponent)
    (hlt : d.value < 2 ^ 128) : d.digits.log2 ≤ 768 := by
  have hlow : (2 : ℚ) ^ d.digits.log2 ≤ d.digits := by exact_mod_cast Nat.log2_self_le hdigits
  have hten : (10 : ℚ) ^ (-160 : ℤ) ≤ 10 ^ d.exponent :=
    zpow_le_zpow_right₀ (by norm_num) hexponent
  have hvalue : (2 : ℚ) ^ d.digits.log2 * 10 ^ (-160 : ℤ) < 2 ^ 128 :=
    lt_of_le_of_lt (mul_le_mul hlow hten (by positivity) (by positivity)) hlt
  rw [zpow_neg, mul_inv_lt_iff₀ (by positivity)] at hvalue
  have hpow : (2 : ℚ) ^ d.digits.log2 < 2 ^ 768 :=
    calc (2 : ℚ) ^ d.digits.log2 < 2 ^ 128 * 10 ^ 160 := hvalue
      _ ≤ 2 ^ 128 * 16 ^ 160 := by gcongr; norm_num
      _ = 2 ^ 128 * (2 ^ 4) ^ 160 := by norm_num only
      _ = 2 ^ 768 := by rw [← pow_mul, ← pow_add]
  exact ((pow_lt_pow_iff_right₀ (by norm_num)).1 hpow).le

/-- Ten binary digits are more than three decimal ones. -/
theorem ten_pow_le_two_pow (n : ℕ) : (10 : ℚ) ^ (3 * (n / 10)) ≤ 2 ^ n :=
  calc (10 : ℚ) ^ (3 * (n / 10)) = 1000 ^ (n / 10) := by rw [pow_mul]; norm_num
    _ ≤ 1024 ^ (n / 10) := pow_le_pow_left₀ (by norm_num) (by norm_num) _
    _ = 2 ^ (10 * (n / 10)) := by rw [pow_mul]; norm_num
    _ ≤ 2 ^ n := pow_le_pow_right₀ (by norm_num) (Nat.mul_div_le _ _)

/-- Three binary digits are less than a decimal one. -/
theorem two_pow_le_ten_pow (n : ℕ) : (2 : ℚ) ^ n ≤ 10 ^ (n / 3 + 1) :=
  calc (2 : ℚ) ^ n ≤ 2 ^ (3 * (n / 3 + 1)) := pow_le_pow_right₀ (by norm_num) (by omega)
    _ = 8 ^ (n / 3 + 1) := by rw [pow_mul]; norm_num
    _ ≤ 10 ^ (n / 3 + 1) := pow_le_pow_left₀ (by norm_num) (by norm_num) _

/-- The estimate of the decimal place rules out only what is far outside of the binary numbers. -/
theorem place_range {d : Decimal} (hdigits : d.digits ≠ 0) (hexponent : -160 ≤ d.exponent)
    (hmin : (2 : ℚ) ^ (-150 : ℤ) ≤ d.value) (hmax : d.value < 2 ^ 128) :
    -80 ≤ (d.digits.log2 : ℤ) * 30103 / 100000 + d.exponent ∧
      (d.digits.log2 : ℤ) * 30103 / 100000 + d.exponent ≤ 60 := by
  have hlog := log2_digits_le hdigits hexponent hmax
  have hlow : (2 : ℚ) ^ d.digits.log2 ≤ d.digits := by exact_mod_cast Nat.log2_self_le hdigits
  have hhigh : (d.digits : ℚ) < 2 ^ (d.digits.log2 + 1) := by exact_mod_cast Nat.lt_log2_self
  have hten : (0 : ℚ) < 10 ^ d.exponent := by positivity
  constructor
  · by_contra hplace
    have hfar : (10 : ℚ) ^ ((d.digits.log2 + 1) / 3 + 1) * 10 ^ d.exponent ≤ 10 ^ (-50 : ℤ) := by
      rw [← zpow_natCast, ← zpow_add₀ (by norm_num)]
      exact zpow_le_zpow_right₀ (by norm_num) (by omega)
    have hvalue : d.value ≤ 10 ^ (-50 : ℤ) :=
      (mul_le_mul_of_nonneg_right (hhigh.le.trans (two_pow_le_ten_pow _)) hten.le).trans hfar
    norm_num at hvalue hmin
    linarith
  · by_contra hplace
    have hfar : (10 : ℚ) ^ (50 : ℤ) ≤ 10 ^ (3 * (d.digits.log2 / 10)) * 10 ^ d.exponent := by
      rw [← zpow_natCast, ← zpow_add₀ (by norm_num)]
      exact zpow_le_zpow_right₀ (by norm_num) (by omega)
    have hvalue : (10 : ℚ) ^ (50 : ℤ) ≤ d.value :=
      hfar.trans (mul_le_mul_of_nonneg_right ((ten_pow_le_two_pow _).trans hlow) hten.le)
    norm_num at hvalue hmax
    linarith

/-- A decimal is read as the number that it is nearest to: the tests for what is out of range do not
apply to it. -/
theorem nearestBits_eq (hr : r.Binary32 bits) (hbits : bits < 0x7f800000) {d : Decimal}
    (hexponent : -160 ≤ d.exponent) (hx : r.Near d.value) : nearestBits d = bits := by
  obtain ⟨hmin, hmax⟩ := hr.near_lt hbits hx
  have hdigits : d.digits ≠ 0 := by
    intro h0
    have hpos := hr.near_pos hx
    rw [value, h0, Nat.cast_zero, zero_mul] at hpos
    exact lt_irrefl _ hpos
  obtain ⟨hsmall, hlarge⟩ := place_range hdigits hexponent hmin hmax
  obtain ⟨-, hb, hpower⟩ := power_spec 10 (by norm_num) d.exponent
  unfold nearestBits
  simp only [if_neg hdigits, if_neg (not_lt.2 hlarge), if_neg (not_lt.2 hsmall)]
  apply quotientBits_eq hr hbits hb
  have hb' : ((power 10 d.exponent).2 : ℚ) ≠ 0 := Nat.cast_ne_zero.2 hb.ne'
  push_cast at hpower ⊢
  rw [hpower, ← mul_assoc, mul_div_cancel_right₀ _ hb']
  exact hx

end

end SphereTracer.Decimal
