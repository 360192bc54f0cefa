import SphereTracer.Proofs.Expr.Tree
import SphereTracer.Proofs.Numbers.Bytes

/-!
# Encoded operations

The bytes of an operation are that of no other, though nothing in them marks where a part ends.  The
tag says which parts there are; a constant and a number of rounds have fixed lengths, and the numbers
of the operands are all that is left.
-/

namespace SphereTracer

/-! ## Kinds -/

theorem Var.tag_injective : Function.Injective Var.tag := by
  rintro ⟨⟩ ⟨⟩ h <;> trivial

theorem Axis.tag_injective : Function.Injective Axis.tag := by
  rintro ⟨⟩ ⟨⟩ h <;> trivial

theorem Unary.tag_injective : Function.Injective Unary.tag := by
  rintro ⟨⟩ ⟨⟩ h <;> trivial

theorem Binary.tag_injective : Function.Injective Binary.tag := by
  rintro ⟨⟩ ⟨⟩ h <;> trivial

namespace Op

variable {κ α β : Type}

/-- An operation is its kind, its constant, its rounds and its operands. -/
theorem eq_iff_parts {op op' : Op κ α} : op = op' ↔ op.tag = op'.tag ∧
    op.constant? = op'.constant? ∧ op.rounds? = op'.rounds? ∧ op.operands = op'.operands := by
  constructor
  · rintro rfl
    exact ⟨rfl, rfl, rfl, rfl⟩
  · rintro ⟨htag, hconstant, hrounds, hoperands⟩
    cases op <;> cases op' <;>
      simp_all [tag, constant?, rounds?, operands, Var.tag_injective.eq_iff,
        Axis.tag_injective.eq_iff, Unary.tag_injective.eq_iff, Binary.tag_injective.eq_iff]

theorem isSome_constant? (op : Op κ α) : op.constant?.isSome = (op.tag.1 == 1) := by
  cases op <;> rfl

theorem isSome_rounds? (op : Op κ α) : op.rounds?.isSome = (op.tag.1 == 11 || op.tag.1 == 12) := by
  cases op <;> rfl

/-! ## Parts of an encoding -/

/-- The bits of a constant as bytes. -/
def constantBytes (c : Vec3 Word) : List UInt8 :=
  bytesOfUInt32 c.x.bits ++ bytesOfUInt32 c.y.bits ++ bytesOfUInt32 c.z.bits

theorem length_constantBytes (c : Vec3 Word) : (constantBytes c).length = 12 := rfl

theorem constantBytes_injective : Function.Injective constantBytes := by
  rintro ⟨⟨x⟩, ⟨y⟩, ⟨z⟩⟩ ⟨⟨x'⟩, ⟨y'⟩, ⟨z'⟩⟩ h
  obtain ⟨hxy, hz⟩ := List.append_inj h rfl
  obtain ⟨hx, hy⟩ := List.append_inj hxy rfl
  obtain rfl : x = x' := bytesOfUInt32_injective hx
  obtain rfl : y = y' := bytesOfUInt32_injective hy
  obtain rfl : z = z' := bytesOfUInt32_injective hz
  rfl

/-- A part of fixed length that is there in both or in neither, and what follows it. -/
theorem elim_append_inj {γ : Type} {bytes : γ → List UInt8} (hbytes : Function.Injective bytes)
    {length : ℕ} (hlength : ∀ c, (bytes c).length = length) {part part' : Option γ}
    (hsome : part.isSome = part'.isSome) {rest rest' : List UInt8}
    (h : part.elim [] bytes ++ rest = part'.elim [] bytes ++ rest') : part = part' ∧ rest = rest' := by
  cases part with
  | none =>
    cases part' with
    | none => exact ⟨rfl, h⟩
    | some c' => cases hsome
  | some c =>
    cases part' with
    | none => cases hsome
    | some c' =>
      obtain ⟨hpart, hrest⟩ := List.append_inj h ((hlength c).trans (hlength c').symm)
      exact ⟨congrArg some (hbytes hpart), hrest⟩

theorem encode_eq (number : α → UInt64) (op : Op Word α) : op.encode number =
    op.tag.1 :: op.tag.2 :: (op.constant?.elim [] constantBytes ++
      (op.rounds?.elim [] bytesOfUInt32 ++ (op.operands.map number).flatMap bytesOfUInt64)) := by
  cases op <;> rfl

variable {op : Op Word α} {op' : Op Word β} {number : α → UInt64} {number' : β → UInt64}

/-- Every part can be told from the bytes. -/
theorem parts_of_encode_eq (h : op.encode number = op'.encode number') : op.tag = op'.tag ∧
    op.constant? = op'.constant? ∧ op.rounds? = op'.rounds? ∧
    op.operands.map number = op'.operands.map number' := by
  rw [encode_eq, encode_eq, List.cons.injEq, List.cons.injEq] at h
  obtain ⟨hkind, hkind', hparts⟩ := h
  -- The first byte says which of the parts of fixed length there are.
  have hsomeConstant : op.constant?.isSome = op'.constant?.isSome := by
    rw [isSome_constant?, isSome_constant?, hkind]
  have hsomeRounds : op.rounds?.isSome = op'.rounds?.isSome := by
    rw [isSome_rounds?, isSome_rounds?, hkind]
  obtain ⟨hconstant, hparts⟩ :=
    elim_append_inj constantBytes_injective length_constantBytes hsomeConstant hparts
  obtain ⟨hrounds, hoperands⟩ :=
    elim_append_inj bytesOfUInt32_injective length_bytesOfUInt32 hsomeRounds hparts
  exact ⟨Prod.ext hkind hkind', hconstant, hrounds, flatMap_bytesOfUInt64_inj hoperands⟩

/-- Two encodings are equal exactly if the operations are, up to the numbers of their operands. -/
theorem encode_eq_iff :
    op.encode number = op'.encode number' ↔ op.map number = op'.map number' := by
  constructor
  · intro h
    obtain ⟨htag, hconstant, hrounds, hoperands⟩ := parts_of_encode_eq h
    rw [eq_iff_parts, tag_map, tag_map, constant?_map, constant?_map, rounds?_map, rounds?_map,
      operands_map, operands_map]
    exact ⟨htag, hconstant, hrounds, hoperands⟩
  · intro h
    have hencode := congrArg (encode id) h
    rwa [encode_map, encode_map] at hencode

end Op

end SphereTracer
