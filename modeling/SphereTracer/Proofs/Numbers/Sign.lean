import Mathlib
import SphereTracer.Binary32

/-!
# The sign of a number

The sign is a bit of its own.  A number whose sign bit is set is the negative of the number without
it.
-/

namespace SphereTracer

open Float.Model

/-- Patterns that differ in their signs only stand for a number and its negative. -/
theorem unpack_eq_neg {a b : BitVec Format.binary32.numBits}
    (hexponent : UnpackedFloat.unpackExponent a = UnpackedFloat.unpackExponent b)
    (hmantissa : UnpackedFloat.unpackMantissa a = UnpackedFloat.unpackMantissa b)
    (ha : UnpackedFloat.unpackSign a = 1#1) (hb : UnpackedFloat.unpackSign b = 0#1) :
    UnpackedFloat.unpack Format.binary32 a = (UnpackedFloat.unpack Format.binary32 b).neg := by
  unfold UnpackedFloat.unpack
  simp only [hexponent, hmantissa, ha, hb]
  split_ifs <;> rfl

/-- The exponent, the mantissa and the sign of a pattern of 32 bits, as parts of it. -/
theorem unpack_parts (b : BitVec 32) :
    @UnpackedFloat.unpackExponent Format.binary32 b = b.extractLsb' 23 8 ∧
      @UnpackedFloat.unpackMantissa Format.binary32 b = b.extractLsb' 0 23 ∧
      @UnpackedFloat.unpackSign Format.binary32 b = b.extractLsb' 31 1 :=
  ⟨@UnpackedFloat.unpackExponent_def Format.binary32 b,
    @UnpackedFloat.unpackMantissa_def Format.binary32 b,
    @UnpackedFloat.unpackSign_def Format.binary32 b⟩

namespace Word

variable {w : Word}

theorem magnitude_toBitVec (w : Word) :
    w.magnitude.toBitVec = w.bits.toBitVec &&& 0x7fffffff#32 := rfl

theorem isNegative_iff : w.isNegative ↔ w.bits.toBitVec.getLsbD 31 = true := by
  have hzero : w.bits &&& 0x80000000 = 0 ↔ w.bits.toBitVec &&& BitVec.twoPow 32 31 = 0#32 :=
    UInt32.toBitVec_inj.symm
  rw [isNegative, bne_iff_ne, ne_eq, hzero, BitVec.and_twoPow]
  cases w.bits.toBitVec.getLsbD 31 <;> decide

theorem extract_sign (h : w.isNegative) : w.bits.toBitVec.extractLsb' 31 1 = 1#1 := by
  have hbit := isNegative_iff.1 h
  apply BitVec.eq_of_getLsbD_eq
  intro i hi
  obtain rfl : i = 0 := by omega
  rw [BitVec.getLsbD_extractLsb', hbit]
  rfl

theorem magnitude_eq (h : ¬ w.isNegative) : (⟨w.magnitude⟩ : Word) = w := by
  rw [isNegative_iff] at h
  have hmask : 0x7fffffff#32 = ~~~ BitVec.twoPow 32 31 := rfl
  refine congrArg Word.mk (UInt32.toBitVec_inj.1 (BitVec.eq_of_getLsbD_eq fun i hi => ?_))
  rw [magnitude_toBitVec, hmask, BitVec.getLsbD_and, BitVec.getLsbD_not, BitVec.getLsbD_twoPow]
  by_cases h31 : i = 31
  · subst h31
    rw [Bool.eq_false_of_not_eq_true h, Bool.false_and]
  · simp [hi, Ne.symm h31]

/-- The sign bit is what a pattern has besides its magnitude. -/
theorem magnitude_or_sign (h : w.isNegative) :
    w.magnitude ||| 0x80000000 = w.bits ∧ w.magnitude ^^^ 0x80000000 = w.bits := by
  rw [isNegative_iff] at h
  have hmask : 0x7fffffff#32 = ~~~ BitVec.twoPow 32 31 := rfl
  have hsign : (0x80000000 : UInt32).toBitVec = BitVec.twoPow 32 31 := rfl
  constructor <;> refine UInt32.toBitVec_inj.1 (BitVec.eq_of_getLsbD_eq fun i hi => ?_)
  · rw [UInt32.toBitVec_or, magnitude_toBitVec, hmask, hsign]
    by_cases h31 : i = 31
    · subst h31
      simp [h]
    · simp [hi, h31]
  · rw [UInt32.toBitVec_xor, magnitude_toBitVec, hmask, hsign]
    by_cases h31 : i = 31
    · subst h31
      simp [h]
    · simp [hi, h31]

theorem valid_magnitude (h : w.isFinite) : Format.binary32.Valid w.magnitude.toBitVec := by
  refine ⟨fun hexponent _ => absurd hexponent fun heq => ?_⟩
  have hlt : w.magnitude.toNat < 0x7f800000 := UInt32.lt_iff_toNat_lt.1 (of_decide_eq_true h)
  have hnat := congrArg BitVec.toNat ((unpack_parts w.magnitude.toBitVec).1.symm.trans heq)
  rw [BitVec.extractLsb'_toNat, Nat.shiftRight_eq_div_pow] at hnat
  change w.magnitude.toNat / 8388608 % 256 = 255 at hnat
  omega

/-- A number whose sign bit is set is the negative of its magnitude. -/
theorem toFloat_eq_neg (h : w.isFinite) (hsign : w.isNegative) :
    w.toFloat = -(⟨w.magnitude⟩ : Word).toFloat := by
  have hunpack : UnpackedFloat.unpack Format.binary32 w.bits.toBitVec =
      (UnpackedFloat.unpack Format.binary32 w.magnitude.toBitVec).neg := by
    obtain ⟨hexponent, hmantissa, hsign'⟩ := unpack_parts w.bits.toBitVec
    obtain ⟨hexponent', hmantissa', hsign''⟩ := unpack_parts w.magnitude.toBitVec
    apply unpack_eq_neg
    · rw [hexponent, hexponent', magnitude_toBitVec, BitVec.extractLsb'_and]
      exact BitVec.and_allOnes.symm
    · rw [hmantissa, hmantissa', magnitude_toBitVec, BitVec.extractLsb'_and]
      exact BitVec.and_allOnes.symm
    · exact hsign'.trans (extract_sign hsign)
    · rw [hsign'', magnitude_toBitVec, BitVec.extractLsb'_and]
      exact BitVec.and_zero
  have hmodel : UnpackedFloat.pack Format.binary32
      (UnpackedFloat.unpack Format.binary32 w.magnitude.toBitVec) = w.magnitude.toBitVec :=
    UnpackedFloat.pack_unpack_of_valid (valid_magnitude h)
  change Float32.ofModel (Float32.Model.pack (UnpackedFloat.unpack Format.binary32 w.bits.toBitVec)) =
    Float32.ofModel (Float32.Model.pack (UnpackedFloat.unpack Format.binary32
      (UnpackedFloat.pack Format.binary32
        (UnpackedFloat.unpack Format.binary32 w.magnitude.toBitVec))).neg)
  rw [hunpack, hmodel]

end Word

end SphereTracer
