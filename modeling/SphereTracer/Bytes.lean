/-!
# Bytes of machine words

Words as lists of bytes, least significant first.
-/

namespace SphereTracer

/-- The four bytes of a word, least significant first. -/
def bytesOfUInt32 (n : UInt32) : List UInt8 :=
  [n.toUInt8, (n >>> 8).toUInt8, (n >>> 16).toUInt8, (n >>> 24).toUInt8]

/-- The eight bytes of a double word, least significant first. -/
def bytesOfUInt64 (n : UInt64) : List UInt8 :=
  [n.toUInt8, (n >>> 8).toUInt8, (n >>> 16).toUInt8, (n >>> 24).toUInt8,
    (n >>> 32).toUInt8, (n >>> 40).toUInt8, (n >>> 48).toUInt8, (n >>> 56).toUInt8]

/-- The word whose bytes, least significant first, are given. -/
def uint32OfBytes (b₀ b₁ b₂ b₃ : UInt8) : UInt32 :=
  b₀.toUInt32 ||| (b₁.toUInt32 <<< 8) ||| (b₂.toUInt32 <<< 16) ||| (b₃.toUInt32 <<< 24)

theorem length_bytesOfUInt32 (n : UInt32) : (bytesOfUInt32 n).length = 4 := rfl

theorem length_bytesOfUInt64 (n : UInt64) : (bytesOfUInt64 n).length = 8 := rfl

end SphereTracer
