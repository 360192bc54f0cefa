import SphereTracer.Binary32
import SphereTracer.Decimal.Shortest

/-!
# Reading decimals

The binary32 number nearest to a decimal; of two equally near ones the even one.
-/

namespace SphereTracer.Decimal

/-- `num / den` to the nearest integer, a half to the even one. -/
def roundDiv (num den : Nat) : Nat :=
  let d := num / den
  match compare (2 * (num % den)) den with
  | .lt => d
  | .gt => d + 1
  | .eq => if d % 2 = 0 then d else d + 1

/-- The exponent of the spacing of binary32 numbers around `num / den`. -/
def spacing (num den : Nat) : Int :=
  let e : Int := Nat.log2 num - Nat.log2 den
  let (a, b) := power 2 e
  let e := if num * b < den * a then e - 1 else e
  max (e - 23) (-149)

/-- The pattern of the binary32 number nearest to `num / den`, at most infinity. -/
def quotientBits (num den : Nat) : Nat :=
  if num = 0 then 0
  else
    let q := spacing num den
    let (a, b) := power 2 q
    -- A significand that is rounded up to a power of two carries into the exponent.
    min ((q + 149).toNat * 0x800000 + roundDiv (num * b) (den * a)) 0x7f800000

/-- The pattern of the binary32 number nearest to a decimal. -/
def nearestBits (d : Decimal) : Nat :=
  -- The place of the leading digit, up to a unit, with 0.30103 for the logarithm of two.
  let place := (Nat.log2 d.digits) * 30103 / 100000 + d.exponent
  if d.digits = 0 then 0
  else if 60 < place then 0x7f800000
  else if place < -80 then 0
  else
    let (num, den) := power 10 d.exponent
    quotientBits (d.digits * num) den

/-- The binary32 number nearest to a decimal with a sign. -/
def toWord (negative : Bool) (d : Decimal) : Word :=
  let bits := UInt32.ofNat (nearestBits d)
  ⟨if negative then bits ||| 0x80000000 else bits⟩

end SphereTracer.Decimal
