import Mathlib
import SphereTracer.Bytes

/-!
# Words and texts as bytes

A word can be read back from its bytes, so no two words have the same ones.  A text that is put
together of two has the bytes of both.
-/

namespace SphereTracer

/-! ## Words -/

theorem uint32OfBytes_bytes (n : UInt32) :
    uint32OfBytes n.toUInt8 (n >>> 8).toUInt8 (n >>> 16).toUInt8 (n >>> 24).toUInt8 = n := by
  have h₈ : (UInt32.toBitVec 8 % 32).toNat = 8 := rfl
  have h₁₆ : (UInt32.toBitVec 16 % 32).toNat = 16 := rfl
  have h₂₄ : (UInt32.toBitVec 24 % 32).toNat = 24 := rfl
  apply UInt32.toBitVec_inj.1
  apply BitVec.eq_of_getLsbD_eq
  intro i hi
  simp only [uint32OfBytes, UInt32.toBitVec_or, UInt32.toBitVec_shiftLeft, UInt8.toBitVec_toUInt32,
    UInt32.toBitVec_toUInt8, UInt32.toBitVec_shiftRight, BitVec.getLsbD_or, BitVec.shiftLeft_eq',
    BitVec.getLsbD_shiftLeft, BitVec.getLsbD_setWidth, BitVec.ushiftRight_eq',
    BitVec.getLsbD_ushiftRight, hi, h₈, h₁₆, h₂₄]
  grind

theorem bytesOfUInt32_injective : Function.Injective bytesOfUInt32 := by
  intro m n h
  simp only [bytesOfUInt32, List.cons.injEq, and_true] at h
  obtain ⟨h₀, h₈, h₁₆, h₂₄⟩ := h
  rw [← uint32OfBytes_bytes m, ← uint32OfBytes_bytes n, h₀, h₈, h₁₆, h₂₄]

theorem bytesOfUInt64_injective : Function.Injective bytesOfUInt64 := by
  intro m n h
  simp only [bytesOfUInt64, List.cons.injEq, and_true, ← UInt8.toNat_inj, UInt64.toNat_toUInt8,
    UInt64.toNat_shiftRight, Nat.shiftRight_eq_div_pow, UInt64.reduceToNat, Nat.reduceMod,
    Nat.reducePow] at h
  have hm := m.toNat_lt
  have hn := n.toNat_lt
  apply UInt64.toNat_inj.1
  omega

/-- Words in a row can be told from their bytes: all have the same number of them. -/
theorem flatMap_bytesOfUInt64_inj {l l' : List UInt64}
    (h : l.flatMap bytesOfUInt64 = l'.flatMap bytesOfUInt64) : l = l' := by
  induction l generalizing l' with
  | nil =>
    cases l' with
    | nil => rfl
    | cons n l' => exact absurd h (by simp [bytesOfUInt64])
  | cons m l ih =>
    cases l' with
    | nil => exact absurd h (by simp [bytesOfUInt64])
    | cons n l' =>
      rw [List.flatMap_cons, List.flatMap_cons] at h
      obtain ⟨hbytes, hrest⟩ := List.append_inj h rfl
      rw [bytesOfUInt64_injective hbytes, ih hrest]

/-! ## Texts -/

/-- The bytes of an array in order, however they are collected. -/
theorem toList_byteArray (bytes : ByteArray) : bytes.toList = bytes.data.toList := by
  have hloop (i : ℕ) (read : List UInt8) :
      ByteArray.toList.loop bytes i read = read.reverse ++ bytes.data.toList.drop i := by
    -- The loop collects in reverse what it has read; the rest begins at its index.
    induction i, read using ByteArray.toList.loop.induct bytes with
    | case1 i read hlt ih =>
      have hlt' : i < bytes.data.toList.length := hlt
      have hget : bytes.get! i = bytes.data.toList[i] := by
        rw [Array.getElem_toList]
        exact getElem!_pos bytes.data i hlt
      rw [ByteArray.toList.loop, if_pos hlt, ih, List.reverse_cons, List.append_assoc, hget,
        List.singleton_append, List.getElem_cons_drop]
    | case2 i read hge =>
      have hge' : bytes.data.toList.length ≤ i := Nat.le_of_not_lt hge
      rw [ByteArray.toList.loop, if_neg hge, List.drop_eq_nil_of_le hge', List.append_nil]
  exact hloop 0 []

theorem toList_toUTF8_append (s t : String) :
    (s ++ t).toUTF8.toList = s.toUTF8.toList ++ t.toUTF8.toList := by
  have hbytes : (s ++ t).toUTF8 = s.toUTF8 ++ t.toUTF8 := String.toByteArray_append
  rw [hbytes, toList_byteArray, toList_byteArray, toList_byteArray, ByteArray.toList_data_append]

end SphereTracer
