import Mathlib
import SphereTracer.Proofs.Numbers.Nonnegative
import SphereTracer.Proofs.Numbers.Sign

/-!
# The order of bit patterns

Among numbers that are not negative the greater pattern stands for the greater number, and among
negative numbers it stands for the lesser.  Rounding to an integer clears bits at the end of a
pattern, so what it does to the number can be read off the patterns.
-/

namespace SphereTracer

open Float.Model
open UnpackedFloat (Sign)

/-! ## Patterns as numbers -/

namespace Binary32

theorem unpack_pack_of_canonical {f : UnpackedFloat}
    (h : ∀ s m e hm, f = .finite s m e hm → Canonical m e ∧ e ≤ 104) :
    (Float32.Model.pack f).unpack = f := by
  rcases f with s | _ | s | ⟨s, m, e, hm⟩
  · exact unpack_infinity s
  · exact unpack_notANumber
  · exact UnpackedFloat.unpack_packedZero
  · obtain ⟨hcanonical, he⟩ := h s m e hm rfl
    exact unpack_pack hcanonical he

theorem unpack_neg (x : Float32) : (-x).toModel.unpack = x.toModel.unpack.neg := by
  refine unpack_pack_of_canonical (f := x.toModel.unpack.neg) fun s m e hm hneg => ?_
  rcases hunpack : x.toModel.unpack with _ | _ | _ | ⟨s', m', e', hm'⟩ <;>
    rw [hunpack] at hneg <;> cases hneg
  exact canonical_of_unpack hunpack

/-- The place of the negative of a number. -/
def negRank (r : ℤ ×ₗ ℤ ×ₗ ℤ) : ℤ ×ₗ ℤ ×ₗ ℤ :=
  toLex (-(ofLex r).1, toLex (-(ofLex (ofLex r).2).1, -(ofLex (ofLex r).2).2))

theorem negRank_le {a b : ℤ ×ₗ ℤ ×ₗ ℤ} (h : a ≤ b) : negRank b ≤ negRank a := by
  obtain ⟨a, a', a''⟩ := a
  obtain ⟨b, b', b''⟩ := b
  change toLex (a, toLex (a', a'')) ≤ toLex (b, toLex (b', b'')) at h
  show toLex (-b, toLex (-b', -b'')) ≤ toLex (-a, toLex (-a', -a''))
  simp only [Prod.Lex.toLex_le_toLex] at h ⊢
  omega

theorem rank_neg (x : Float32) : rank? (-x) = (rank? x).map negRank := by
  rw [rank?, rank?, unpack_neg]
  rcases x.toModel.unpack with (_ | _) | _ | _ | ⟨_ | _, m, e, hm⟩ <;>
    simp [UnpackedFloat.neg, rankUnpacked?, negRank]

theorem neg_le_neg {x y : Float32} (h : x ≤ y) : -y ≤ -x := by
  obtain ⟨a, b, ha, hb, hab⟩ := le_iff.1 h
  exact le_iff.2 ⟨negRank b, negRank a, by rw [rank_neg, hb, Option.map_some],
    by rw [rank_neg, ha, Option.map_some], negRank_le hab⟩

end Binary32

namespace Word

/-- The number of a pattern is the pattern taken apart. -/
theorem unpack_toFloat (w : Word) :
    w.toFloat.toModel.unpack = UnpackedFloat.unpack Format.binary32 w.bits.toBitVec :=
  Binary32.unpack_pack_of_canonical fun _ _ _ _ => Binary32.canonical_of_unpack

theorem toNat_magnitude (w : Word) : w.magnitude.toNat = w.bits.toNat % 2 ^ 31 := by
  rw [magnitude, UInt32.toNat_and]
  exact Nat.and_two_pow_sub_one_eq_mod _ 31

theorem toNat_exponent (w : Word) : w.exponent.toNat = w.bits.toNat / 2 ^ 23 % 2 ^ 8 := by
  rw [exponent, UInt32.toNat_and, UInt32.toNat_shiftRight, Nat.shiftRight_eq_div_pow]
  exact Nat.and_two_pow_sub_one_eq_mod _ 8

theorem isNegative_iff_le (w : Word) : w.isNegative ↔ 2 ^ 31 ≤ w.bits.toNat := by
  have hmsb : w.bits.toBitVec.msb = w.bits.toBitVec.getLsbD 31 := BitVec.msb_eq_getLsbD_last _
  rw [isNegative_iff, ← hmsb, BitVec.msb_eq_decide, decide_eq_true_iff]
  rfl

theorem isFinite_iff_lt (w : Word) : w.isFinite ↔ w.bits.toNat % 2 ^ 31 < 255 * 2 ^ 23 := by
  rw [isFinite, decide_eq_true_iff, UInt32.lt_iff_toNat_lt, toNat_magnitude]
  rfl

end Word

/-! ## Ranks of patterns -/

/-- The exponent and the mantissa of a pattern without a sign. -/
def magnitudeRank (n : ℕ) : ℤ ×ₗ ℤ :=
  if n < 2 ^ 23 then toLex (-149, (n : ℤ)) else toLex ((n : ℤ) / 2 ^ 23 - 150, 2 ^ 23 + n % 2 ^ 23)

theorem magnitudeRank_mono {m n : ℕ} (h : m ≤ n) : magnitudeRank m ≤ magnitudeRank n := by
  unfold magnitudeRank
  split <;> split <;> rw [Prod.Lex.toLex_le_toLex] <;> omega

section
variable {b : BitVec 32}

theorem toNat_unpackExponent (hfinite : b.toNat < 255 * 2 ^ 23) :
    (@UnpackedFloat.unpackExponent Format.binary32 b).toNat = b.toNat / 2 ^ 23 := by
  rw [(unpack_parts b).1, BitVec.extractLsb'_toNat, Nat.shiftRight_eq_div_pow]
  exact Nat.mod_eq_of_lt (show b.toNat / 2 ^ 23 < 2 ^ 8 by omega)

theorem toNat_unpackMantissa :
    (@UnpackedFloat.unpackMantissa Format.binary32 b).toNat = b.toNat % 2 ^ 23 := by
  rw [(unpack_parts b).2.1, BitVec.extractLsb'_toNat, Nat.shiftRight_zero]

theorem unpackSign_eq_zero (hfinite : b.toNat < 255 * 2 ^ 23) :
    @UnpackedFloat.unpackSign Format.binary32 b = 0#1 := by
  rw [(unpack_parts b).2.2]
  apply BitVec.eq_of_toNat_eq
  rw [BitVec.extractLsb'_toNat, Nat.shiftRight_eq_div_pow]
  show b.toNat / 2 ^ 31 % 2 = 0
  omega

theorem toNat_one_append_mantissa :
    (1#1 ++ @UnpackedFloat.unpackMantissa Format.binary32 b).toNat = 2 ^ 23 + b.toNat % 2 ^ 23 := by
  have hor := Nat.shiftLeft_add_eq_or_of_lt
    (@UnpackedFloat.unpackMantissa Format.binary32 b).isLt 1
  rw [BitVec.toNat_append, ← toNat_unpackMantissa]
  exact hor.symm

theorem rank_magnitude (hfinite : b.toNat < 255 * 2 ^ 23) (hpos : 0 < b.toNat) :
    rankUnpacked? (UnpackedFloat.unpack Format.binary32 b) =
      some (toLex (1, magnitudeRank b.toNat)) := by
  have hE := toNat_unpackExponent hfinite
  have hmax : @UnpackedFloat.unpackExponent Format.binary32 b ≠ -1#_ := fun heq => by
    have hnat := hE.symm.trans (congrArg BitVec.toNat heq)
    change b.toNat / 2 ^ 23 = 255 at hnat
    omega
  have hmin : @UnpackedFloat.unpackExponent Format.binary32 b = 0#_ ↔ b.toNat < 2 ^ 23 := by
    rw [← BitVec.toNat_inj, hE]
    show b.toNat / 2 ^ 23 = 0 ↔ _
    omega
  have hbias : ((Format.binary32.exponentBias : ℤ) + Format.binary32.mantissaBitsWithoutImplicit) =
      150 := rfl
  unfold UnpackedFloat.unpack
  dsimp only
  rw [hbias, unpackSign_eq_zero hfinite, if_neg hmax]
  split_ifs with hsmall hzero
  · have hlt := hmin.1 hsmall
    have hnat := toNat_unpackMantissa.symm.trans (congrArg BitVec.toNat hzero)
    change b.toNat % 2 ^ 23 = 0 at hnat
    omega
  · have hlt := hmin.1 hsmall
    show some (toLex (1, toLex (_, _))) = _
    rw [magnitudeRank, if_pos hlt, toNat_unpackMantissa, Nat.mod_eq_of_lt hlt, hsmall]
    rfl
  · show some (toLex (1, toLex (_, _))) = _
    rw [magnitudeRank, if_neg fun hlt => hsmall (hmin.2 hlt), toNat_one_append_mantissa, hE]
    push_cast
    rfl

end

namespace Word

variable {v w : Word}

/-- Among patterns without a sign the greater one is the greater number. -/
theorem toFloat_le_of_le (hle : v.bits.toNat ≤ w.bits.toNat) (hw : w.bits.toNat < 255 * 2 ^ 23) :
    v.toFloat ≤ w.toFloat := by
  have hrank (u : Word) (hu : u.bits.toNat < 255 * 2 ^ 23) : Binary32.rank? u.toFloat =
      some (if u.bits.toNat = 0 then toLex (0, toLex (0, 0))
        else toLex (1, magnitudeRank u.bits.toNat)) := by
    rw [Binary32.rank?, unpack_toFloat]
    split
    · next hzero =>
      rw [show u.bits.toBitVec = 0#32 from BitVec.eq_of_toNat_eq hzero]
      rfl
    · next hne => exact rank_magnitude hu (Nat.pos_of_ne_zero hne)
  refine Binary32.le_iff.2 ⟨_, _, hrank v (hle.trans_lt hw), hrank w hw, ?_⟩
  have hmono := magnitudeRank_mono hle
  split <;> split
  · exact le_rfl
  · exact Prod.Lex.toLex_le_toLex.2 (.inl Int.zero_lt_one)
  · omega
  · exact Prod.Lex.toLex_le_toLex.2 (.inr ⟨rfl, hmono⟩)

/-- Among patterns with a sign the greater one is the lesser number. -/
theorem toFloat_le_of_ge (hle : w.bits.toNat ≤ v.bits.toNat) (hw : 2 ^ 31 ≤ w.bits.toNat)
    (hv : v.bits.toNat < 2 ^ 31 + 255 * 2 ^ 23) : v.toFloat ≤ w.toFloat := by
  have hneg (u : Word) (hlow : 2 ^ 31 ≤ u.bits.toNat) (hhigh : u.bits.toNat < 2 ^ 31 + 255 * 2 ^ 23) :
      u.toFloat = -(⟨u.magnitude⟩ : Word).toFloat :=
    toFloat_eq_neg ((isFinite_iff_lt u).2 (by omega)) ((isNegative_iff_le u).2 hlow)
  rw [hneg v (by omega) hv, hneg w hw (by omega)]
  apply Binary32.neg_le_neg
  apply toFloat_le_of_le
  · rw [toNat_magnitude, toNat_magnitude]
    omega
  · rw [toNat_magnitude]
    omega

theorem toReal_pos (hfinite : w.isFinite) (hpos : 0.0 < w.toFloat) : 0 < w.toReal := by
  obtain ⟨a, b, ha, hb, hlt⟩ := Binary32.lt_iff.1 hpos
  have hzero : Binary32.rank? 0.0 = some (toLex (0, toLex (0, 0))) := by decide +kernel
  cases hzero.symm.trans ha
  unfold Binary32.rank? at hb
  unfold toReal
  rcases hunpack : w.toFloat.toModel.unpack with (_ | _) | _ | _ | ⟨_ | _, m, e, hm⟩ <;>
    rw [hunpack] at hb <;> cases hb
  · simp [Prod.Lex.toLex_lt_toLex] at hlt
  · have hexponent : @UnpackedFloat.unpackExponent Format.binary32 w.bits.toBitVec = -1#_ := by
      by_contra hne
      rw [unpack_toFloat, UnpackedFloat.unpack] at hunpack
      dsimp only at hunpack
      rw [if_neg hne] at hunpack
      split_ifs at hunpack
    have hnat := congrArg BitVec.toNat ((unpack_parts w.bits.toBitVec).1.symm.trans hexponent)
    rw [BitVec.extractLsb'_toNat, Nat.shiftRight_eq_div_pow] at hnat
    change w.bits.toNat / 2 ^ 23 % 2 ^ 8 = 255 at hnat
    rw [isFinite_iff_lt] at hfinite
    omega
  · exact hlt.false.elim
  · simp [Prod.Lex.toLex_lt_toLex] at hlt
  · have hvalue : (0 : ℝ) < m * 2 ^ e := by positivity
    exact hvalue

/-! ## Rounding down -/

/-- Clearing the last bits of a pattern. -/
theorem toNat_clear {x m : UInt32} {k : ℕ} (hm : m.toNat = 2 ^ k - 1) :
    (x &&& ~~~m).toNat = x.toNat - x.toNat % 2 ^ k := by
  have hnot : (~~~m).toNat = 2 ^ 32 - (m.toNat + 1) := by
    rw [UInt32.toNat_not, Nat.sub_sub, Nat.add_comm]
    rfl
  have hshift : x.toNat - x.toNat % 2 ^ k = (x.toNat >>> k) <<< k := by
    rw [Nat.shiftRight_eq_div_pow, Nat.shiftLeft_eq, Nat.div_mul_self_eq_mod_sub_self]
  rw [hshift]
  -- Bit by bit: the mask is the complement of the last `k` bits, as far as the word goes.
  refine Nat.eq_of_testBit_eq fun i => ?_
  rw [UInt32.toNat_and, Nat.testBit_and, hnot, Nat.testBit_two_pow_sub_succ m.toNat_lt, hm,
    Nat.testBit_two_pow_sub_one, Nat.testBit_shiftLeft, Nat.testBit_shiftRight]
  rcases lt_or_ge i k with hlow | hkept
  · simp [hlow]
  · rcases lt_or_ge i 32 with hi | hbeyond
    · simp [hi, hkept]
    · have hx : x.toNat.testBit i = false :=
        Nat.testBit_lt_two_pow (x.toNat_lt.trans_le (Nat.pow_le_pow_right (by decide) hbeyond))
      simp [hx, hkept]

theorem toNat_fractionMask {k : ℕ} (hk : k ≤ 23) (he : w.exponent.toNat + k = 150) :
    w.fractionMask.toNat = 2 ^ k - 1 := by
  have hshift : (w.exponent - 127).toNat = 23 - k := by
    rw [UInt32.toNat_sub_of_le _ _ (UInt32.le_iff_toNat_le.2 (show 127 ≤ _ by omega))]
    show w.exponent.toNat - 127 = _
    omega
  rw [fractionMask, UInt32.toNat_shiftRight, hshift, Nat.shiftRight_eq_div_pow,
    Nat.mod_eq_of_lt (by omega)]
  show (2 ^ 23 - 1) / 2 ^ (23 - k) = _
  interval_cases k <;> rfl

theorem clear_le {m : UInt32} {k : ℕ} (hm : m.toNat = 2 ^ k - 1)
    (hfinite : w.bits.toNat < 255 * 2 ^ 23) :
    (⟨w.bits &&& ~~~m⟩ : Word).toFloat ≤ w.toFloat := by
  have hclear := toNat_clear (x := w.bits) hm
  apply toFloat_le_of_le _ hfinite
  show (w.bits &&& ~~~m).toNat ≤ _
  omega

/-- With a sign the pattern is rounded up to a multiple of a power of two. -/
theorem clear_add_le {m : UInt32} {k : ℕ} (hm : m.toNat = 2 ^ k - 1) (hneg : 2 ^ 31 ≤ w.bits.toNat)
    (hfinite : w.bits.toNat + 2 ^ k ≤ 2 ^ 31 + 255 * 2 ^ 23) :
    (⟨(w.bits + m) &&& ~~~m⟩ : Word).toFloat ≤ w.toFloat := by
  have hpower := Nat.two_pow_pos k
  have hsum : (w.bits + m).toNat = w.bits.toNat + (2 ^ k - 1) := by
    rw [UInt32.toNat_add, hm]
    exact Nat.mod_eq_of_lt (by omega)
  have hclear := toNat_clear (x := w.bits + m) hm
  have hrest := Nat.mod_lt (w.bits + m).toNat hpower
  apply toFloat_le_of_ge _ hneg
  · show ((w.bits + m) &&& ~~~m).toNat < _
    omega
  · show _ ≤ ((w.bits + m) &&& ~~~m).toNat
    omega

/-- The integer part of a number is not above it. -/
theorem floor_le (hw : ¬ w.toFloat.isNaN) : w.floor.toFloat ≤ w.toFloat := by
  have hself := Binary32.le_of_not_lt hw hw (Binary32.lt_irrefl _)
  have hexponent := toNat_exponent w
  have hbits := w.bits.toNat_lt
  -- By the exponent: below one, at least 2 ^ 23 and so an integer already, or in between.
  unfold floor
  split
  · next hsmall =>
    have hlt : w.exponent.toNat < 127 := UInt32.lt_iff_toNat_lt.1 hsmall
    split
    · exact hself
    · split
      · next hneg =>
        refine toFloat_le_of_ge ?_ ((isNegative_iff_le w).1 hneg) (by decide)
        show _ ≤ 0xbf800000
        omega
      · next hpos =>
        rw [isNegative_iff_le] at hpos
        exact toFloat_le_of_le (Nat.zero_le _) (by omega)
  · next hlow =>
    split
    · exact hself
    · next hhigh =>
      have hge : 127 ≤ w.exponent.toNat := not_lt.1 fun hlt => hlow (UInt32.lt_iff_toNat_lt.2 hlt)
      have hlt : w.exponent.toNat < 150 := not_le.1 fun hle => hhigh (UInt32.le_iff_toNat_le.2 hle)
      obtain ⟨k, hk⟩ : ∃ k, w.exponent.toNat + k = 150 := ⟨150 - w.exponent.toNat, by omega⟩
      have hmask := toNat_fractionMask (by omega) hk
      have hpower : 2 ^ k ≤ 2 ^ 23 := Nat.pow_le_pow_right (by decide) (by omega)
      dsimp only
      split
      · exact hself
      · split
        · next hneg => exact clear_add_le hmask ((isNegative_iff_le w).1 hneg) (by omega)
        · next hpos =>
          rw [isNegative_iff_le] at hpos
          exact clear_le hmask (by omega)

end Word

end SphereTracer
