import SphereTracer.Vec

/-!
# Binary32 arithmetic

`Float32` as the scalar that runs.  Rounding to integers works on the bits: a number of at least
`2 ^ 23` is an integer already, one below `1` has a single integer part, and in between the bits below
the units place are cleared.
-/

namespace SphereTracer

namespace Word

@[inline] def ofFloat (x : Float32) : Word := ⟨x.toBits⟩

@[inline] def toFloat (w : Word) : Float32 := Float32.ofBits w.bits

/-- A decimal numeral stands for the pattern of the nearest binary32 number. -/
instance : OfScientific Word where
  ofScientific m s e := ofFloat (OfScientific.ofScientific m s e)

/-- Negation turns the sign bit. -/
instance : Neg Word := ⟨fun w => ⟨w.bits ^^^ 0x80000000⟩⟩

/-- The pattern without its sign. -/
@[inline] def magnitude (w : Word) : UInt32 := w.bits &&& 0x7fffffff

/-- Neither infinite nor NaN. -/
@[inline] def isFinite (w : Word) : Bool := w.magnitude < 0x7f800000

/-- The sign bit. -/
@[inline] def isNegative (w : Word) : Bool := w.bits &&& 0x80000000 != 0

/-- The biased exponent, `127` for numbers in `[1, 2)`. -/
@[inline] def exponent (w : Word) : UInt32 := (w.bits >>> 23) &&& 0xff

/-- The bits of the significand below the units place, for an exponent in `[127, 150)`. -/
@[inline] def fractionMask (w : Word) : UInt32 := 0x7fffff >>> (w.exponent - 127)

/-- The greatest integer that is not above the number. -/
def floor (w : Word) : Word :=
  if w.exponent < 127 then
    if w.magnitude = 0 then w
    else if w.isNegative then ⟨0xbf800000⟩ else ⟨0⟩
  else if w.exponent ≥ 150 then w
  else
    let mask := w.fractionMask
    if w.bits &&& mask = 0 then w
    -- Below zero the magnitude goes up; a carry into the exponent is the next power of two.
    else if w.isNegative then ⟨(w.bits + mask) &&& ~~~mask⟩ else ⟨w.bits &&& ~~~mask⟩

/-- The nearest integer; a half goes away from zero. -/
def round (w : Word) : Word :=
  if w.exponent < 126 then ⟨w.bits &&& 0x80000000⟩
  else if w.exponent = 126 then ⟨(w.bits &&& 0x80000000) ||| 0x3f800000⟩
  else if w.exponent ≥ 150 then w
  else
    let mask := w.fractionMask
    if w.bits &&& mask = 0 then w
    else ⟨(w.bits + (0x400000 >>> (w.exponent - 127))) &&& ~~~mask⟩

end Word

/-- Binary32 numbers.  On equal operands `min` and `max` keep the first. -/
instance : Scalar Float32 where
  ofWord w := w.toFloat
  ofCount n := n.toFloat32
  ofLength n := (UInt64.ofNat n).toFloat32
  lt a b := a < b
  le a b := a ≤ b
  eq a b := a == b
  min a b := if a.isNaN then b else if b < a then b else a
  max a b := if a.isNaN then b else if a < b then b else a
  abs := Float32.abs
  floor x := (Word.ofFloat x).floor.toFloat
  sqrt := Float32.sqrt
  sin := Float32.sin
  cos := Float32.cos
  asin := Float32.asin
  acos := Float32.acos
  exp := Float32.exp
  log := Float32.log
  pow := Float32.pow
  atan2 := Float32.atan2

/-- The vector that three patterns stand for. -/
@[inline] def Vec3.ofWords {S : Type} [Scalar S] (v : Vec3 Word) : Vec3 S := v.map Scalar.ofWord

/-- The patterns of a vector of binary32 numbers. -/
@[inline] def Vec3.toWords (v : Vec3 Float32) : Vec3 Word := v.map Word.ofFloat

end SphereTracer
