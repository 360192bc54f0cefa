import Mathlib
import SphereTracer.Proofs.Numbers.Counts

/-!
# Lengths as numbers

The length of a list that is not empty becomes a positive number, and a positive number divided by
itself is one.
-/

namespace SphereTracer.Binary32

open Float.Model
open UnpackedFloat (Sign)

variable {x : Float32} {m : ℕ} {e : ℤ}

/-- The quotient of equal mantissas is padded to 24 bits behind the first. -/
theorem div_self_unpacked (s : Sign) (hm : 0 < m) : ∃ hone,
    UnpackedFloat.div Format.binary32 (.finite s m e hm) (.finite s m e hm) =
      .finite .positive (2 ^ 23) (-23) hone := by
  have hsign : s / s = .positive := by cases s <;> rfl
  have hcore : UnpackedFloat.divCore Format.binary32 m e m e = (2 ^ 24, -24, .exact) := by
    have htarget : min (e - e) (Format.binary32.targetExponent
        (totalExponent m e - totalExponent m e)) = -24 := by
      rw [sub_self, sub_self]
      rfl
    rw [UnpackedFloat.divCore, htarget, sub_self, Nat.shiftLeft_eq]
    show (m * 2 ^ 24 / m, _, UnpackedFloat.accuracyOfFraction (m * 2 ^ 24 % m) m) = _
    rw [Nat.mul_div_cancel_left _ hm, Nat.mul_mod_right]
    rfl
  refine ⟨by decide, ?_⟩
  rw [UnpackedFloat.div, hcore, hsign]
  rfl

theorem div_self_eq_one {s : Sign} {hm : 0 < m} (h : x.toModel.unpack = .finite s m e hm) :
    x / x = 1.0 := by
  obtain ⟨hone, hquotient⟩ := div_self_unpacked (e := e) s hm
  show Float32.ofModel (.pack (UnpackedFloat.div Format.binary32 x.toModel.unpack _)) = _
  rw [h, hquotient]
  rfl

theorem exists_unpack_ofLength {n : ℕ} (hpos : 0 < n) (hn : n < 2 ^ 64) : ∃ m e, ∃ hm : 0 < m,
    (Scalar.ofLength n : Float32).toModel.unpack = .finite .positive m e hm := by
  have hcount : (UInt64.ofNat n).toNat = n := UInt64.toNat_ofNat_of_lt' hn
  have hlog : n.log2 < 64 := (Nat.log2_lt hpos.ne').2 hn
  have hround : UnpackedFloat.ofUInt64 Format.binary32 (UInt64.ofNat n) =
      UnpackedFloat.round Format.binary32 .positive n 0 := by
    show UnpackedFloat.normalize Format.binary32 ((UInt64.ofNat n).toNat : ℤ) 0 .positive = _
    rw [hcount, UnpackedFloat.normalize, compare_gt_iff_gt.2 (Int.natCast_pos.2 hpos),
      Int.toNat_natCast]
  obtain ⟨m, e, hm, hrounded, hcanonical, he⟩ : ∃ m e, ∃ hm : 0 < m,
      UnpackedFloat.round Format.binary32 .positive n 0 = .finite .positive m e hm ∧
        Canonical m e ∧ e ≤ 104 := by
    by_cases hshort : n.log2 ≤ 23
    · obtain ⟨m, e, hm, h, hcanonical, he, -⟩ := round_short_count hpos hshort
      exact ⟨m, e, hm, h, hcanonical, he⟩
    · obtain ⟨m, e, hm, h, hcanonical, he, -⟩ :=
        round_long_count (k := n.log2 - 23) hpos (by omega) (by omega)
      exact ⟨m, e, hm, h, hcanonical, he⟩
  refine ⟨m, e, hm, ?_⟩
  show (Float32.Model.pack (UnpackedFloat.ofUInt64 Format.binary32 (UInt64.ofNat n))).unpack = _
  rw [hround, hrounded, unpack_pack hcanonical he]

end SphereTracer.Binary32
