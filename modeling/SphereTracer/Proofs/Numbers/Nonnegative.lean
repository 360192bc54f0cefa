import Mathlib
import SphereTracer.Proofs.Numbers.Real
import SphereTracer.Proofs.Numbers.Rounding

/-!
# Numbers that are not negative

Zero, the positive numbers and positive infinity.  They stay so in sums.  They stay so in products as
well, with one exception: zero times infinity is not a number.
-/

namespace SphereTracer.Binary32

open Float.Model
open UnpackedFloat (Sign)

variable {x y : Float32} {n : ℤ}

/-! ## Kinds of numbers -/

theorem isNaN_iff_eq {f : UnpackedFloat} : f.isNaN ↔ f = .notANumber := by
  cases f <;> simp [UnpackedFloat.isNaN]

theorem isNaN_iff_unpack : x.isNaN ↔ x.toModel.unpack = .notANumber := isNaN_iff_eq

/-- Not negative, and not above any number. -/
def Finite (x : Float32) : Prop := Within 128 x

def Infinite (x : Float32) : Prop := x.toModel.unpack = .infinity .positive

theorem unpack_infinity (s : Sign) :
    (Float32.Model.pack (.infinity s)).unpack = .infinity s := by
  cases s <;> rfl

theorem unpack_notANumber : (Float32.Model.pack .notANumber).unpack = .notANumber := by
  rw [← isNaN_iff_eq]
  decide

/-- No number exceeds its largest mantissa under its largest exponent. -/
theorem Canonical.atMost {m : ℕ} {e : ℤ} {hm : 0 < m} (h : Canonical m e) (he : e ≤ 104) :
    AtMost 128 (.finite .positive m e hm) := by
  refine ⟨h, ?_⟩
  calc (m : ℚ) * 2 ^ e ≤ 2 ^ 24 * 2 ^ (104 : ℤ) := by
        gcongr
        · exact_mod_cast h.lt.le
        · exact one_le_two
    _ = 2 ^ (128 : ℤ) := by norm_num

theorem atMost_of_unpack {s : Sign} {m : ℕ} {e : ℤ} {hm : 0 < m}
    (h : x.toModel.unpack = .finite s m e hm) : AtMost 128 (.finite .positive m e hm) :=
  (canonical_of_unpack h).1.atMost (canonical_of_unpack h).2

theorem finite_of_unpack {m : ℕ} {e : ℤ} {hm : 0 < m}
    (h : x.toModel.unpack = .finite .positive m e hm) : Finite x := by
  unfold Finite Within
  rw [h]
  exact atMost_of_unpack h

theorem zero_le_iff : 0.0 ≤ x ↔ Finite x ∨ Infinite x := by
  have hzero : rank? 0.0 = some (toLex (0, toLex (0, 0))) := by decide
  rw [le_iff, hzero]
  unfold rank? Infinite
  rcases hunpack : x.toModel.unpack with (_ | _) | _ | _ | ⟨_ | _, m, e, hm⟩
  · simp [Finite, Within, hunpack, AtMost, rankUnpacked?, Prod.Lex.toLex_le_toLex]
  · simp [rankUnpacked?, Prod.Lex.toLex_le_toLex]
  · simp [Finite, Within, hunpack, AtMost, rankUnpacked?]
  · simp [Finite, Within, hunpack, AtMost, rankUnpacked?]
  · simp [Finite, Within, hunpack, AtMost, rankUnpacked?, Prod.Lex.toLex_le_toLex]
  · simp [finite_of_unpack hunpack, rankUnpacked?, Prod.Lex.toLex_le_toLex]

theorem Finite.not_infinite (h : Finite x) : ¬ Infinite x := by
  intro hinfinite
  unfold Finite Within at h
  rw [show x.toModel.unpack = _ from hinfinite] at h
  exact h

theorem not_isNaN_of_zero_le (h : 0.0 ≤ x) : ¬ x.isNaN := by
  obtain ⟨a, b, -, hb, -⟩ := le_iff.1 h
  rw [isNaN_iff, hb]
  exact Option.some_ne_none b

theorem isInf_iff (h : 0.0 ≤ x) : x.isInf ↔ Infinite x := by
  change x.toModel.unpack.isInf ↔ x.toModel.unpack = .infinity .positive
  rcases zero_le_iff.1 h with hfinite | hinfinite
  · rcases AtMost.cases hfinite with ⟨s, hunpack⟩ | ⟨m, e, hm, hunpack, -⟩ <;>
      simp [hunpack, UnpackedFloat.isInf]
  · rw [show x.toModel.unpack = _ from hinfinite]
    simp [UnpackedFloat.isInf]

/-- A number whose mantissa and exponent fit the format is itself, or too large for it. -/
theorem finite_or_infinite_pack {f : UnpackedFloat} (h : AtMost n f) :
    Finite (.ofModel (.pack f)) ∨ Infinite (.ofModel (.pack f)) := by
  rcases h.cases with ⟨s, rfl⟩ | ⟨m, e, hm, rfl, hcanonical, -⟩
  · left
    show AtMost 128 (Float32.Model.pack (.zero s)).unpack
    rw [show (Float32.Model.pack (.zero s)).unpack = .zero s from UnpackedFloat.unpack_packedZero]
    trivial
  · by_cases he : e ≤ 104
    · exact .inl (finite_of_unpack (Binary32.unpack_pack hcanonical he))
    · right
      have hbias : (Format.binary32.exponentBias : ℤ) + (23 : ℕ) = 150 := rfl
      have hpack : UnpackedFloat.pack Format.binary32 (.finite .positive m e hm) =
          UnpackedFloat.packedInfinity Format.binary32 .positive := by
        unfold UnpackedFloat.pack
        dsimp only
        rw [add_assoc e, hbias, if_pos (show 2 ^ 8 ≤ (e + 150).toNat + 1 by omega)]
      show UnpackedFloat.unpack Format.binary32 (UnpackedFloat.pack Format.binary32 _) = _
      rw [hpack]
      exact unpack_infinity .positive

theorem zero_le_abs (h : ¬ x.abs.isNaN) : 0.0 ≤ x.abs := by
  have habs : x.abs = .ofModel (.pack x.toModel.unpack.abs) := rfl
  rw [habs] at h ⊢
  rcases hunpack : x.toModel.unpack with s | _ | s | ⟨s, m, e, hm⟩
  · exact zero_le_iff.2 (.inr (unpack_infinity .positive))
  · rw [hunpack] at h
    exact absurd (isNaN_iff_unpack.2 unpack_notANumber) h
  · show 0.0 ≤ Float32.ofModel (.pack (.zero .positive))
    decide
  · exact zero_le_iff.2 (finite_or_infinite_pack (atMost_of_unpack hunpack))

/-! ## Sums -/

theorem isNaN_add_left (hx : x.isNaN) (y : Float32) : (x + y).isNaN := by
  rw [isNaN_iff_unpack] at hx ⊢
  have hsum (f : UnpackedFloat) : UnpackedFloat.add Format.binary32 .notANumber f = .notANumber := by
    cases f <;> rfl
  show (Float32.Model.pack (UnpackedFloat.add Format.binary32 x.toModel.unpack _)).unpack = _
  rw [hx, hsum, unpack_notANumber]

theorem Infinite.add (hx : Infinite x) (hy : 0.0 ≤ y) : Infinite (x + y) := by
  show (Float32.Model.pack (UnpackedFloat.add Format.binary32 x.toModel.unpack _)).unpack = _
  rw [show x.toModel.unpack = _ from hx]
  rcases zero_le_iff.1 hy with hfinite | hinfinite
  · rcases AtMost.cases hfinite with ⟨s, hunpack⟩ | ⟨m, e, hm, hunpack, -⟩
    · rw [hunpack]
      exact unpack_infinity .positive
    · rw [hunpack]
      exact unpack_infinity .positive
  · rw [show y.toModel.unpack = _ from hinfinite]
    exact unpack_infinity .positive

theorem Infinite.add_left (hy : Infinite y) (hx : 0.0 ≤ x) : Infinite (x + y) := by
  rcases zero_le_iff.1 hx with hfinite | hinfinite
  · show (Float32.Model.pack (UnpackedFloat.add Format.binary32 _ y.toModel.unpack)).unpack = _
    rw [show y.toModel.unpack = _ from hy]
    rcases AtMost.cases hfinite with ⟨s, hunpack⟩ | ⟨m, e, hm, hunpack, -⟩
    · rw [hunpack]
      exact unpack_infinity .positive
    · rw [hunpack]
      exact unpack_infinity .positive
  · exact hinfinite.add (zero_le_iff.2 (.inr hy))

theorem zero_le_add (hx : 0.0 ≤ x) (hy : 0.0 ≤ y) : 0.0 ≤ x + y := by
  rcases zero_le_iff.1 hx with hxfinite | hxinfinite
  · rcases zero_le_iff.1 hy with hyfinite | hyinfinite
    · have hsum : AtMost 153 (UnpackedFloat.add Format.binary32 x.toModel.unpack y.toModel.unpack) :=
        AtMost.add (AtMost.mono (by decide) hxfinite) hyfinite (by decide)
      exact zero_le_iff.2 (finite_or_infinite_pack hsum)
    · exact zero_le_iff.2 (.inr (hyinfinite.add_left hx))
  · exact zero_le_iff.2 (.inr (hxinfinite.add hy))

/-! ## Products -/

theorem isNaN_mul_right (x : Float32) (hy : y.isNaN) : (x * y).isNaN := by
  rw [isNaN_iff_unpack] at hy ⊢
  show (Float32.Model.pack (UnpackedFloat.mul Format.binary32 _ y.toModel.unpack)).unpack = _
  have hproduct (f : UnpackedFloat) :
      UnpackedFloat.mul Format.binary32 f .notANumber = .notANumber := by
    cases f <;> rfl
  rw [hy, hproduct, unpack_notANumber]

theorem zero_le_mul (hx : Finite x) (hy : Finite y) : 0.0 ≤ x * y := by
  have hproduct : AtMost (128 + 128)
      (UnpackedFloat.mul Format.binary32 x.toModel.unpack y.toModel.unpack) :=
    AtMost.mul hx hy (by decide)
  exact zero_le_iff.2 (finite_or_infinite_pack hproduct)

theorem beq_zero_iff : (x == 0.0) = true ↔ ∃ s, x.toModel.unpack = .zero s := by
  have hzero : rank? 0.0 = some (toLex (0, toLex (0, 0))) := by decide
  rw [beq_iff, hzero]
  unfold rank?
  rcases x.toModel.unpack with (_ | _) | _ | _ | ⟨_ | _, m, e, hm⟩ <;> simp [rankUnpacked?]

/-- Zero times infinity. -/
theorem Infinite.isNaN_mul (hy : Infinite y) (hx : (x == 0.0) = true) : (x * y).isNaN := by
  obtain ⟨s, hzero⟩ := beq_zero_iff.1 hx
  rw [isNaN_iff_unpack]
  show (Float32.Model.pack
    (UnpackedFloat.mul Format.binary32 x.toModel.unpack y.toModel.unpack)).unpack = _
  rw [hzero, show y.toModel.unpack = _ from hy]
  exact unpack_notANumber

theorem Infinite.mul (hy : Infinite y) (hx : Finite x) (hne : ¬ (x == 0.0) = true) :
    Infinite (x * y) := by
  show (Float32.Model.pack
    (UnpackedFloat.mul Format.binary32 x.toModel.unpack y.toModel.unpack)).unpack = _
  rcases AtMost.cases hx with ⟨s, hunpack⟩ | ⟨m, e, hm, hunpack, -⟩
  · exact absurd (beq_zero_iff.2 ⟨s, hunpack⟩) hne
  · rw [hunpack, show y.toModel.unpack = _ from hy]
    exact unpack_infinity .positive

/-! ## Numbers up to a power of two -/

/-- A number that is not negative and does not exceed a power of two, by the rank of the power. -/
theorem within_of_zero_le (hx : 0.0 ≤ x) (hle : x ≤ y)
    (hy : rank? y = some (toLex (1, toLex (n - 23, 2 ^ 23)))) : Within n x := by
  by_cases hzero : (x == 0.0) = true
  · obtain ⟨s, hunpack⟩ := beq_zero_iff.1 hzero
    unfold Within
    rw [hunpack]
    trivial
  · apply within_of_le _ hle hy
    obtain ⟨a, b, ha, hb, hab⟩ := le_iff.1 hx
    refine lt_iff.2 ⟨a, b, ha, hb, lt_of_le_of_ne hab fun heq => hzero ?_⟩
    subst heq
    exact beq_iff.2 ⟨a, hb, ha⟩

theorem within_zero_of_le_one (hx : 0.0 ≤ x) (hle : x ≤ 1.0) : Within 0 x :=
  within_of_zero_le hx hle (show rank? 1.0 = some (toLex (1, toLex (-23, 2 ^ 23))) by decide)

/-- A word between zero and a power of two stands for a real number between the two. -/
theorem toReal_of_within {w : Word} (h : Within n w.toFloat) :
    0 ≤ w.toReal ∧ w.toReal ≤ 2 ^ n := by
  unfold Word.toReal
  rcases AtMost.cases h with ⟨s, hzero⟩ | ⟨m, e, hm, hfinite, -, hle⟩
  · rw [hzero]
    exact ⟨le_rfl, by positivity⟩
  · rw [hfinite]
    have hreal : (((m : ℚ) * 2 ^ e : ℚ) : ℝ) ≤ ((2 ^ n : ℚ) : ℝ) := Rat.cast_le.2 hle
    push_cast at hreal
    have hpos : (0 : ℝ) ≤ m * 2 ^ e := by positivity
    exact ⟨hpos, hreal⟩

theorem toReal_of_rank {w : Word} {m e : ℤ}
    (h : rank? w.toFloat = some (toLex (1, toLex (e, m)))) : w.toReal = m * 2 ^ e := by
  unfold Word.toReal
  unfold rank? at h
  rcases hunpack : w.toFloat.toModel.unpack with (_ | _) | _ | _ | ⟨_ | _, m', e', hm⟩ <;>
    rw [hunpack] at h <;> cases h
  rw [realUnpacked, Int.cast_natCast]

/-! ## Counts -/

theorem ofUInt32_eq {count : UInt32} (hpos : 0 < count.toNat) :
    UnpackedFloat.ofUInt32 Format.binary32 count =
      UnpackedFloat.round Format.binary32 .positive count.toNat 0 := by
  show UnpackedFloat.normalize Format.binary32 (count.toNat : ℤ) 0 .positive = _
  rw [UnpackedFloat.normalize, compare_gt_iff_gt.2 (Int.natCast_pos.2 hpos), Int.toNat_natCast]

theorem within_ofCount {count : UInt32} (h : count.toNat < 2 ^ 31) :
    Within 31 (Scalar.ofCount count) := by
  by_cases hzero : count.toNat = 0
  · have hcount : count = 0 := UInt32.toNat_inj.1 hzero
    rw [hcount]
    show AtMost 31 (Float32.Model.pack (UnpackedFloat.ofUInt32 Format.binary32 0)).unpack
    exact trivial
  · have hpos : 0 < count.toNat := Nat.pos_of_ne_zero hzero
    have hbound : ((count.toNat : ℕ) : ℚ) * 2 ^ (0 : ℤ) < 2 ^ (31 : ℤ) + 2 ^ (31 - 24 : ℤ) := by
      have hlt : (count.toNat : ℚ) < 2 ^ 31 := by exact_mod_cast h
      norm_num at hlt ⊢
      linarith
    have hatMost := atMost_round hpos (by decide) hbound
    show AtMost 31 (Float32.Model.pack (UnpackedFloat.ofUInt32 Format.binary32 count)).unpack
    rw [ofUInt32_eq hpos, hatMost.unpack_pack (by decide) (by decide)]
    exact hatMost

end SphereTracer.Binary32
