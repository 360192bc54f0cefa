import SphereTracer.Proofs.Kernel.Compositional
import SphereTracer.Proofs.Numbers.Bytes

/-!
# Keys of kernels

Kernels are told apart by the hash of their text alone.  The multiplier of the hash has an inverse, so
each byte that is mixed in can be taken out again: two states that become equal were equal before.
Texts that differ in a single byte are therefore never confused.
-/

namespace SphereTracer

namespace Fnv

/-! ## Steps backwards -/

/-- The word that undoes the multiplier. -/
def primeInverse : UInt64 := 0xce965057aff6957b

theorem prime_mul_inverse : prime * primeInverse = 1 := by decide

/-- The state before the byte was mixed in. -/
def unstep (state : UInt64) (byte : UInt8) : UInt64 := state * primeInverse ^^^ byte.toUInt64

theorem unstep_step (state : UInt64) (byte : UInt8) : unstep (step state byte) byte = state := by
  rw [unstep, step, UInt64.mul_assoc, prime_mul_inverse, UInt64.mul_one, UInt64.xor_assoc,
    UInt64.xor_self, UInt64.xor_zero]

theorem step_unstep (state : UInt64) (byte : UInt8) : step (unstep state byte) byte = state := by
  rw [step, unstep, UInt64.xor_assoc, UInt64.xor_self, UInt64.xor_zero, UInt64.mul_assoc,
    UInt64.mul_comm primeInverse, prime_mul_inverse, UInt64.mul_one]

theorem step_bijective (byte : UInt8) : Function.Bijective fun state => step state byte :=
  Function.bijective_iff_has_inverse.2
    ⟨fun state => unstep state byte, fun state => unstep_step state byte,
      fun state => step_unstep state byte⟩

theorem step_injective (state : UInt64) : Function.Injective (step state) := by
  intro x y h
  have hmasked : state ^^^ x.toUInt64 = state ^^^ y.toUInt64 := by
    have hback := congrArg (· * primeInverse) h
    simpa only [step, UInt64.mul_assoc, prime_mul_inverse, UInt64.mul_one] using hback
  have hbyte : x.toUInt64 = y.toUInt64 := (UInt64.xor_right_inj state).1 hmasked
  have hnat := congrArg UInt64.toNat hbyte
  rw [UInt8.toNat_toUInt64, UInt8.toNat_toUInt64] at hnat
  exact UInt8.toNat_inj.1 hnat

theorem extend_bijective (bytes : List UInt8) :
    Function.Bijective fun state => extend state bytes := by
  induction bytes with
  | nil => exact Function.bijective_id
  | cons byte rest ih => exact ih.comp (step_bijective byte)

theorem hash_append_inj {a b s : List UInt8} : hash (a ++ s) = hash (b ++ s) ↔ hash a = hash b := by
  rw [hash_append, hash_append]
  exact (extend_bijective s).injective.eq_iff

end Fnv

/-! ## Single differences -/

/-- Strings of one length that differ in one place and in no other. -/
def DifferOnce {α : Type} (a b : List α) : Prop := a.length = b.length ∧ ∃! i : ℕ, a[i]? ≠ b[i]?

theorem differOnce_iff {α : Type} {a b : List α} : DifferOnce a b ↔
    ∃ p x y s, x ≠ y ∧ a = p ++ x :: s ∧ b = p ++ y :: s := by
  constructor
  · rintro ⟨hlength, i, hi, hunique⟩
    have hia : i < a.length := by
      by_contra hge
      have hnone := List.getElem?_eq_none (Nat.le_of_not_lt hge)
      rw [hlength] at hge
      exact hi (hnone.trans (List.getElem?_eq_none (Nat.le_of_not_lt hge)).symm)
    have hib : i < b.length := hlength ▸ hia
    have hsame (j : ℕ) (hj : j ≠ i) : a[j]? = b[j]? := by
      by_contra hne
      exact hj (hunique j hne)
    have hbefore : a.take i = b.take i := by
      refine List.ext_getElem? fun j => ?_
      rw [List.getElem?_take, List.getElem?_take]
      split
      · next hj => exact hsame j (Nat.ne_of_lt hj)
      · rfl
    have hafter : a.drop (i + 1) = b.drop (i + 1) := by
      refine List.ext_getElem? fun j => ?_
      rw [List.getElem?_drop, List.getElem?_drop]
      exact hsame _ (by omega)
    refine ⟨a.take i, a[i], b[i], a.drop (i + 1), fun heq => hi ?_, ?_, ?_⟩
    · rw [List.getElem?_eq_getElem hia, List.getElem?_eq_getElem hib, heq]
    · rw [List.getElem_cons_drop, List.take_append_drop]
    · rw [hbefore, hafter, List.getElem_cons_drop, List.take_append_drop]
  · rintro ⟨p, x, y, s, hne, rfl, rfl⟩
    refine ⟨by simp, p.length, by simpa using hne, fun j hj => ?_⟩
    by_contra hplace
    refine hj ?_
    rcases Nat.lt_or_gt_of_ne hplace with hlt | hgt
    · rw [List.getElem?_append_left hlt, List.getElem?_append_left hlt]
    · obtain ⟨k, rfl⟩ := Nat.exists_eq_add_of_lt hgt
      rw [List.getElem?_append_right (by omega), List.getElem?_append_right (by omega),
        show p.length + k + 1 - p.length = k + 1 by omega, List.getElem?_cons_succ,
        List.getElem?_cons_succ]

theorem DifferOnce.append {α : Type} {a b : List α} (h : DifferOnce a b) (l r : List α) :
    DifferOnce (l ++ a ++ r) (l ++ b ++ r) := by
  obtain ⟨p, x, y, s, hne, rfl, rfl⟩ := differOnce_iff.1 h
  exact differOnce_iff.2 ⟨l ++ p, x, y, s ++ r, hne, by simp, by simp⟩

/-- The states differ after the place, and nothing that follows can make them equal. -/
theorem DifferOnce.hash_ne {a b : List UInt8} (h : DifferOnce a b) : Fnv.hash a ≠ Fnv.hash b := by
  obtain ⟨p, x, y, s, hne, rfl, rfl⟩ := differOnce_iff.1 h
  -- Up to the place both have one state; the bytes there lead to two, and the rest keeps them
  -- apart.
  rw [Fnv.hash_append, Fnv.hash_append]
  intro heq
  exact hne (Fnv.step_injective _ ((Fnv.extend_bijective s).injective heq))

/-! ## Kernels -/

namespace Kernel

open Shader

theorem hash_of_ofScene {scene : Scene} {options : Options Word} {kernel : Kernel}
    (h : ofScene scene options = .ok kernel) :
    kernel.hash = Fnv.hash kernel.source.toUTF8.toList := by
  obtain ⟨program, -, rfl⟩ := ofScene_eq_ok_iff.1 h
  rfl

/-- Each byte permutes the states of the hash, and so does each string of bytes; so a common end says
nothing about whether two hashes are equal.  Strings that differ in a single byte have different
hashes, and so do kernels whose texts differ in a single byte. -/
theorem hash_separates_single_bytes :
    (∀ byte, Function.Bijective fun state => Fnv.step state byte) ∧
    (∀ bytes, Function.Bijective fun state => Fnv.extend state bytes) ∧
    (∀ a b s, Fnv.hash (a ++ s) = Fnv.hash (b ++ s) ↔ Fnv.hash a = Fnv.hash b) ∧
    (∀ a b, DifferOnce a b → Fnv.hash a ≠ Fnv.hash b) ∧
    ∀ scene scene' options options' kernel kernel', ofScene scene options = .ok kernel →
      ofScene scene' options' = .ok kernel' →
      DifferOnce kernel.source.toUTF8.toList kernel'.source.toUTF8.toList →
      kernel.hash ≠ kernel'.hash := by
  refine ⟨Fnv.step_bijective, Fnv.extend_bijective, fun a b s => Fnv.hash_append_inj,
    fun a b => DifferOnce.hash_ne, fun _ _ _ _ kernel kernel' hkernel hkernel' hsources => ?_⟩
  rw [hash_of_ofScene hkernel, hash_of_ofScene hkernel']
  exact hsources.hash_ne

/-- Nothing but its digits in the text depends on the number of bounces. -/
theorem exists_moduleText_bounces (program : Program) : ∃ l r : String, ∀ n : UInt32,
    moduleText { program with options.bounces := n } = l ++ toString n.toNat ++ r := by
  let o := program.options
  refine ⟨constantLine "MAX_VALUE" "f32" (Word.text maxDistance) ++
      constantLine "EPSILON" "f32" o.epsilon.text ++
      constantLine "NORMAL_EPSILON" "f32" o.normalEpsilon.text ++
      constantLine "STEPS" "i32" (toString o.steps.toNat) ++ "const BOUNCES: i32 = ",
    ";\n" ++ constantLine "ITERATIONS" "i32" (toString o.iterations.toNat) ++
      constantLine "STEP_FACTOR" "f32" o.stepFactor.text ++
      constantLine "MEMORY" "f32" o.memory.text ++ "\n" ++ prelude ++
      functionsText (helpers program.nodes) ++ functionsText (procedures program) ++ "\n" ++
      entryPoint, fun n => ?_⟩
  simp only [moduleText, constants, constantLine, String.append_assoc]
  rfl

/-- The same scene with eight bounces and with nine. -/
theorem hash_separates_single_bytes_bounces :
    ∃ kernel kernel', ofScene .empty .standard = .ok kernel ∧
      ofScene .empty { Options.standard with bounces := 9 } = .ok kernel' ∧
      DifferOnce kernel.source.toUTF8.toList kernel'.source.toUTF8.toList ∧
      kernel.hash ≠ kernel'.hash := by
  obtain ⟨-, program, hprogram⟩ := Program.exists_ofScene_empty
    (show Options.standard.validate = .ok () by decide)
  have height := Program.ofScene_options hprogram
    (show Options.standard.validate = .ok () by decide)
  have hnine := Program.ofScene_options hprogram
    (show ({ Options.standard with bounces := 9 } : Options Word).validate = .ok () by decide)
  have hkernel := ofScene_eq_ok_iff.2 ⟨_, height, rfl⟩
  have hkernel' := ofScene_eq_ok_iff.2 ⟨_, hnine, rfl⟩
  have hdigits : DifferOnce (toString (8 : UInt32).toNat).toUTF8.toList
      (toString (9 : UInt32).toNat).toUTF8.toList :=
    differOnce_iff.2 ⟨[], 56, 57, [], by decide, by decide +kernel, by decide +kernel⟩
  obtain ⟨l, r, htext⟩ := exists_moduleText_bounces { program with options := .standard }
  have hsources := hdigits.append l.toUTF8.toList r.toUTF8.toList
  simp only [← toList_toUTF8_append, ← htext] at hsources
  exact ⟨_, _, hkernel, hkernel', hsources,
    hash_separates_single_bytes.2.2.2.2 _ _ _ _ _ _ hkernel hkernel' hsources⟩

end Kernel

end SphereTracer
