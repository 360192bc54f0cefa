import SphereTracer.Proofs.Decimal.Written
import SphereTracer.Proofs.Numbers.Patterns

/-!
# The nearest number

The patterns without sign stand for numbers in increasing order.  The interval of the numbers that are
read as a pattern ends halfway to its two neighbours, so the pattern is nearest to exactly these
numbers, and of two that are equally near the even one is taken.
-/

namespace SphereTracer

namespace Decimal

/-! ## The numbers of patterns -/

/-- The number of a pattern without sign.  Patterns beyond those of finite numbers go on as if
exponents had no limit. -/
def patternValue (n : ℕ) : ℚ :=
  (Rounded.ofBits 23 (-149) n).m * 2 ^ (Rounded.ofBits 23 (-149) n).q

section
variable {n : ℕ}

theorem ofBits_subnormal (h : n / 0x800000 = 0) : Rounded.ofBits 23 (-149) n =
    ⟨n % 0x800000, -149, 2, n % 0x800000 % 2 = 0⟩ :=
  if_pos h

theorem ofBits_normal (h : n / 0x800000 ≠ 0) : Rounded.ofBits 23 (-149) n =
    ⟨0x800000 + n % 0x800000, -149 + (n / 0x800000 : ℕ) - 1,
      if n % 0x800000 = 0 ∧ 1 < n / 0x800000 then 1 else 2, (0x800000 + n % 0x800000) % 2 = 0⟩ :=
  if_neg h

theorem ofBits_carry (hcarry : (n + 1) % 0x800000 = 0) : Rounded.ofBits 23 (-149) (n + 1) =
    ⟨0x800000, -149 + (n / 0x800000 : ℕ), if 0 < n / 0x800000 then 1 else 2, true⟩ := by
  have hdiv : (n + 1) / 0x800000 = n / 0x800000 + 1 := by omega
  have hq : (-149 + (n / 0x800000 + 1 : ℕ) - 1 : ℤ) = -149 + (n / 0x800000 : ℕ) := by
    push_cast
    ring
  rw [ofBits_normal (by omega), hdiv, hcarry, hq]
  simp

end

/-- The next pattern stands for the number one unit further. -/
theorem patternValue_succ (n : ℕ) :
    patternValue (n + 1) = patternValue n + 2 ^ (Rounded.ofBits 23 (-149) n).q := by
  unfold patternValue
  by_cases hcarry : (n + 1) % 0x800000 = 0
  · have hmod : n % 0x800000 = 0x7fffff := by omega
    rw [ofBits_carry hcarry]
    by_cases hzero : n / 0x800000 = 0
    · rw [ofBits_subnormal hzero, hmod, hzero]
      norm_num
    · rw [ofBits_normal hzero, hmod]
      simp only [zpow_sub_one₀ (two_ne_zero (α := ℚ))]
      push_cast
      ring
  · have hdiv : (n + 1) / 0x800000 = n / 0x800000 := by omega
    have hmod : (n + 1) % 0x800000 = n % 0x800000 + 1 := by omega
    by_cases hzero : n / 0x800000 = 0
    · rw [ofBits_subnormal hzero, ofBits_subnormal (hdiv.trans hzero), hmod]
      push_cast
      ring
    · rw [ofBits_normal hzero, ofBits_normal (hdiv ▸ hzero), hdiv, hmod]
      push_cast
      ring

theorem patternValue_strictMono : StrictMono patternValue :=
  strictMono_nat_of_lt_succ fun n => by
    rw [patternValue_succ]
    exact lt_add_of_pos_right _ (by positivity)

/-- The interval of a number goes half as far down as its neighbour is away. -/
theorem patternValue_pred (n : ℕ) : patternValue n = patternValue (n + 1) -
    (Rounded.ofBits 23 (-149) (n + 1)).below / 2 * 2 ^ (Rounded.ofBits 23 (-149) (n + 1)).q := by
  have hunit : (2 : ℚ) ^ (Rounded.ofBits 23 (-149) n).q =
      (Rounded.ofBits 23 (-149) (n + 1)).below / 2 * 2 ^ (Rounded.ofBits 23 (-149) (n + 1)).q := by
    by_cases hcarry : (n + 1) % 0x800000 = 0
    · rw [ofBits_carry hcarry]
      by_cases hzero : n / 0x800000 = 0
      · rw [ofBits_subnormal hzero, hzero]
        norm_num
      · rw [ofBits_normal hzero, if_pos (Nat.pos_of_ne_zero hzero)]
        simp only [zpow_sub_one₀ (two_ne_zero (α := ℚ))]
        push_cast
        ring
    · have hdiv : (n + 1) / 0x800000 = n / 0x800000 := by omega
      by_cases hzero : n / 0x800000 = 0
      · rw [ofBits_subnormal hzero, ofBits_subnormal (hdiv.trans hzero)]
        norm_num
      · rw [ofBits_normal hzero, ofBits_normal (hdiv ▸ hzero), hdiv]
        simp only [hcarry, false_and, if_false]
        norm_num
  rw [patternValue_succ, hunit]
  ring

/-! ## The nearest pattern -/

/-- The number of a pattern is as near to a number as that of any other pattern; if another is equally
near, the pattern is even. -/
def Nearest (n : ℕ) (x : ℚ) : Prop :=
  ∀ k ≠ n, |x - patternValue n| ≤ |x - patternValue k| ∧
    (|x - patternValue n| = |x - patternValue k| → n % 2 = 0)

theorem nearest_patternValue (n : ℕ) : Nearest n (patternValue n) := by
  intro k hk
  have hne : patternValue n - patternValue k ≠ 0 := fun h =>
    hk (patternValue_strictMono.injective (sub_eq_zero.1 h)).symm
  rw [sub_self, abs_zero]
  exact ⟨abs_nonneg _, fun h => absurd h.symm (abs_ne_zero.2 hne)⟩

/-- The nearer of two numbers is the one on the same side of the middle. -/
theorem abs_sub_le_abs_sub_iff {a b x : ℚ} (hlt : a < b) :
    (|x - b| ≤ |x - a| ↔ (a + b) / 2 ≤ x) ∧ (|x - a| ≤ |x - b| ↔ x ≤ (a + b) / 2) := by
  rw [← sq_le_sq, ← sq_le_sq]
  constructor
  · constructor <;> intro h <;> nlinarith
  · constructor <;> intro h <;> nlinarith

section
variable {n : ℕ} {x : ℚ}

/-- The interval of a number ends halfway to its neighbours, and the ends belong to it if it is
even. -/
theorem near_iff_between : (Rounded.ofBits 23 (-149) (n + 1)).Near x ↔
    ((patternValue n + patternValue (n + 1)) / 2 ≤ x ∧
        x ≤ (patternValue (n + 1) + patternValue (n + 2)) / 2) ∧
      (x = (patternValue n + patternValue (n + 1)) / 2 ∨
        x = (patternValue (n + 1) + patternValue (n + 2)) / 2 → (n + 1) % 2 = 0) := by
  have hr := ofBits_binary32 n.succ_pos
  have hlow : (patternValue n + patternValue (n + 1)) / 2 =
      ((Rounded.ofBits 23 (-149) (n + 1)).m - (Rounded.ofBits 23 (-149) (n + 1)).below / 4 : ℚ) *
        2 ^ (Rounded.ofBits 23 (-149) (n + 1)).q := by
    rw [patternValue_pred, patternValue]
    ring
  have hhigh : (patternValue (n + 1) + patternValue (n + 2)) / 2 =
      ((Rounded.ofBits 23 (-149) (n + 1)).m + 1 / 2 : ℚ) *
        2 ^ (Rounded.ofBits 23 (-149) (n + 1)).q := by
    rw [patternValue_succ (n + 1), patternValue]
    ring
  have heven : (Rounded.ofBits 23 (-149) (n + 1)).closed = decide ((n + 1) % 2 = 0) := by
    rw [hr.closed, decide_eq_decide]
    have := hr.pattern
    omega
  rw [Rounded.Near, heven, hlow, hhigh]
  by_cases hparity : (n + 1) % 2 = 0
  · simp [hparity]
  · simp only [hparity, decide_false, Bool.false_eq_true, if_false, imp_false, not_or]
    constructor
    · rintro ⟨hbelow, habove⟩
      exact ⟨⟨hbelow.le, habove.le⟩, hbelow.ne', habove.ne⟩
    · rintro ⟨⟨hbelow, habove⟩, hneLow, hneHigh⟩
      exact ⟨hbelow.lt_of_ne' hneLow, habove.lt_of_ne hneHigh⟩

/-- A positive pattern is nearest to the numbers of its interval. -/
theorem nearest_iff_near (hn : 0 < n) : Nearest n x ↔ (Rounded.ofBits 23 (-149) n).Near x := by
  obtain ⟨n, rfl⟩ := Nat.exists_eq_succ_of_ne_zero hn.ne'
  rw [Nat.succ_eq_add_one, near_iff_between]
  have hbelow := abs_sub_le_abs_sub_iff (x := x) (patternValue_strictMono n.lt_succ_self)
  have habove := abs_sub_le_abs_sub_iff (x := x) (patternValue_strictMono (n + 1).lt_succ_self)
  -- One way, the two neighbours alone decide; the other way, all further patterns are further off.
  constructor
  · intro h
    obtain ⟨hlow, htieLow⟩ := h n n.lt_succ_self.ne
    obtain ⟨hhigh, htieHigh⟩ := h (n + 2) (n + 1).lt_succ_self.ne'
    refine ⟨⟨hbelow.1.1 hlow, habove.2.1 hhigh⟩, ?_⟩
    rintro (heq | heq)
    · exact htieLow (le_antisymm hlow (hbelow.2.2 heq.le))
    · exact htieHigh (le_antisymm hhigh (habove.1.2 heq.ge))
  · rintro ⟨⟨hlow, hhigh⟩, htie⟩ k hk
    rcases lt_or_gt_of_ne hk with hlt | hgt
    · have hmono := patternValue_strictMono.monotone (Nat.le_of_lt_succ hlt)
      have hmiddle := abs_sub_le_abs_sub_iff (x := x) (patternValue_strictMono hlt)
      refine ⟨hmiddle.1.2 (by linarith), fun heq => htie (.inl ?_)⟩
      have := hmiddle.2.1 heq.ge
      linarith
    · have hmono := patternValue_strictMono.monotone (Nat.succ_le_of_lt hgt)
      have hmiddle := abs_sub_le_abs_sub_iff (x := x) (patternValue_strictMono hgt)
      refine ⟨hmiddle.2.2 (by linarith), fun heq => htie (.inr ?_)⟩
      have := hmiddle.1.1 heq.ge
      linarith

end

end Decimal

/-! ## Signs -/

namespace Word

open Decimal Float.Model

variable {w : Word}

theorem magnitudeRank_eq (n : ℕ) : magnitudeRank n =
    toLex ((Rounded.ofBits 23 (-149) n).q, ((Rounded.ofBits 23 (-149) n).m : ℤ)) := by
  unfold magnitudeRank
  by_cases hzero : n / 0x800000 = 0
  · rw [ofBits_subnormal hzero, if_pos (by omega), Nat.mod_eq_of_lt (by omega)]
  · rw [ofBits_normal hzero, if_neg (by omega)]
    simp only [EmbeddingLike.apply_eq_iff_eq, Prod.mk.injEq]
    omega

theorem toReal_magnitude (h : w.isFinite) :
    (⟨w.magnitude⟩ : Word).toReal = patternValue w.magnitude.toNat := by
  have hlt := magnitude_lt h
  rcases Nat.eq_zero_or_pos w.magnitude.toNat with hzero | hpos
  · have hbits : w.magnitude.toBitVec = 0#32 := BitVec.eq_of_toNat_eq hzero
    rw [toReal, unpack_toFloat, hbits, hzero]
    simp [patternValue, Rounded.ofBits]
    rfl
  · have hrank : Binary32.rank? (⟨w.magnitude⟩ : Word).toFloat =
        some (toLex (1, magnitudeRank w.magnitude.toNat)) := by
      rw [Binary32.rank?, unpack_toFloat]
      exact rank_magnitude hlt hpos
    rw [magnitudeRank_eq] at hrank
    rw [Binary32.toReal_of_rank hrank, patternValue]
    push_cast
    rfl

/-- A finite number is the number of its pattern without sign, or the negative of it. -/
theorem toReal_eq (h : w.isFinite) : w.toReal =
    if w.isNegative then -(patternValue w.magnitude.toNat : ℝ)
    else patternValue w.magnitude.toNat := by
  rw [← toReal_magnitude h]
  split
  · next hsign =>
    rw [toReal, toFloat_eq_neg h hsign, Binary32.unpack_neg, toReal]
    rcases (⟨w.magnitude⟩ : Word).toFloat.toModel.unpack with _ | _ | _ | ⟨_ | _, m, e, hm⟩ <;>
      simp [UnpackedFloat.neg, realUnpacked]
  · next hsign => rw [magnitude_eq hsign]

end Word

end SphereTracer
