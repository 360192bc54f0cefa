import Mathlib
import SphereTracer.Binary32

/-!
# Numbers and their bits

A binary32 number is determined by its bits: reading the bits of a number gives that number again.
-/

namespace SphereTracer

theorem toFloat_ofFloat (x : Float32) : (Word.ofFloat x).toFloat = x := by
  obtain ⟨bits, hvalid⟩ := x
  change Float32.ofModel (Float32.Model.ofBits bits) = _
  congr 1
  unfold Float32.Model.ofBits Float32.Model.pack
  congr 1
  rw [Float.Model.UnpackedFloat.pack_unpack_of_valid hvalid]

end SphereTracer
