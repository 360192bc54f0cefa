import SphereTracer.Bytes

/-!
# FNV-1a

The 64-bit hash behind node names and kernel keys: each byte is mixed in by exclusive or, and the
state is multiplied by an odd constant.
-/

namespace SphereTracer.Fnv

/-- The state before any byte. -/
def offset : UInt64 := 0xcbf29ce484222325

/-- The odd multiplier, `2 ^ 40 + 2 ^ 8 + 0xb3`. -/
def prime : UInt64 := 0x100000001b3

/-- One byte mixed into the state. -/
@[inline] def step (state : UInt64) (byte : UInt8) : UInt64 := (state ^^^ byte.toUInt64) * prime

/-- Bytes mixed into the state, in order. -/
def extend (state : UInt64) (bytes : List UInt8) : UInt64 := bytes.foldl step state

def hash (bytes : List UInt8) : UInt64 := extend offset bytes

/-- The hash of a text's UTF-8 bytes. -/
def hashText (text : String) : UInt64 := hash text.toUTF8.toList

theorem extend_append (state : UInt64) (a b : List UInt8) :
    extend state (a ++ b) = extend (extend state a) b :=
  List.foldl_append

theorem hash_append (a b : List UInt8) : hash (a ++ b) = extend (hash a) b :=
  extend_append _ a b

end SphereTracer.Fnv
