/-!
# Scalars

The arithmetic that geometry is written in.  Every formula of the library is stated once over a
`Scalar`, in one fixed order of operations; `Float32` is the scalar that runs, and an exact field is
the scalar over which the geometry is reasoned about.  Nothing here assumes a law: rounding
arithmetic satisfies almost none.
-/

namespace SphereTracer

/-- The 32 bits of a binary32 number.  Constants are stored, compared and hashed by these bits, so
`0.0` and `-0.0`, or two NaNs of different payload, are different constants. -/
structure Word where
  bits : UInt32
  deriving DecidableEq, Hashable, Repr, Inhabited

/-- The operations that shapes, samplers and the march use.  `min` and `max` give the other operand
when one of them is not a number; comparisons with such a value are false. -/
class Scalar (S : Type) extends Add S, Sub S, Mul S, Div S, Neg S, OfScientific S where
  /-- The number that a binary32 pattern stands for. -/
  ofWord : Word → S
  /-- The scalar nearest to a count. -/
  ofCount : UInt32 → S
  /-- The scalar nearest to the length of a list; a word of 64 bits holds lengths. -/
  ofLength : Nat → S
  lt : S → S → Bool
  le : S → S → Bool
  eq : S → S → Bool
  min : S → S → S
  max : S → S → S
  abs : S → S
  floor : S → S
  sqrt : S → S
  sin : S → S
  cos : S → S
  asin : S → S
  acos : S → S
  exp : S → S
  log : S → S
  pow : S → S → S
  atan2 : S → S → S

namespace Scalar

variable {S : Type} [Scalar S]

/-- `x` moved into `[low, high]`; a value that is not a number stays. -/
@[inline] def clamp (x low high : S) : S :=
  let raised := if lt x low then low else x
  if lt high raised then high else raised

/-- The distance from `x` down to the integer below it. -/
@[inline] def fract (x : S) : S := x - floor x

/-- The loop of `powi`: `acc * x ^ n`, one squaring per binary digit of `n`. -/
def powiLoop (acc x : S) (n : Nat) : S :=
  let acc := if n % 2 = 1 then acc * x else acc
  if h : n / 2 = 0 then acc else powiLoop acc (x * x) (n / 2)
termination_by n
decreasing_by omega

/-- An integer power by repeated squaring, lowest binary digit of the exponent first. -/
def powi (x : S) (n : Nat) : S := powiLoop 1.0 x n

/-- The binary32 number nearest to π. -/
@[inline] def pi : S := ofWord ⟨0x40490fdb⟩

/-- Degrees to radians, by the binary32 number nearest to π / 180. -/
@[inline] def radians (degrees : S) : S := degrees * ofWord ⟨0x3c8efa35⟩

/-- The binary32 number nearest to 1 / √2. -/
@[inline] def invSqrtTwo : S := ofWord ⟨0x3f3504f3⟩

end Scalar

/-- Distance reported where there is nothing: it dominates every scene and stays finite through a
few multiplications. -/
@[specialize] def maxDistance {S : Type} [OfScientific S] : S := 1e10

end SphereTracer
