/-!
# Shortest decimals

The shortest decimal that reads back as a given binary number.  The decimals that read back are
those of an interval around the number; the coarsest decimal grid that has a point in the interval
gives the fewest digits, and of two points the nearer is taken.  Where both are equally near, a rule
for ties decides.
-/

namespace SphereTracer

/-- The number `digits * 10 ^ exponent`. -/
structure Decimal where
  digits : Nat
  exponent : Int
  deriving DecidableEq, Repr, Inhabited

namespace Decimal

/-- The number `2 ^ n`, for `n` that may be negative, as numerator and denominator. -/
def power (base : Nat) (n : Int) : Nat × Nat :=
  if 0 ≤ n then (Nat.pow base n.toNat, 1) else (1, Nat.pow base (-n).toNat)

/-- A binary number `m * 2 ^ q`, with the quarters of `2 ^ q` by which it may be missed from below
and the rule that the ends of the interval count. -/
structure Rounded where
  m : Nat
  q : Int
  /-- How far the interval goes down, in quarters: two, or one at a power of two. -/
  below : Nat
  /-- Whether the ends of the interval read back too. -/
  closed : Bool
  deriving Repr

/-- Which of two neighbours on a grid a number in the middle goes to. -/
inductive Tie where
  | up
  | toEven
  deriving DecidableEq, Repr

/-- Whether the number in the middle between `d` and `d + 1` goes to `d`. -/
def Tie.goesDown : Tie → Nat → Bool
  | up, _ => false
  | toEven, d => d % 2 = 0

/-- Whether the point `d` of the grid of `10 ^ k` reads back as the number. -/
def Rounded.holds (r : Rounded) (k : Int) (d : Nat) : Bool :=
  let (up, down) := power 10 k
  let (num, den) := power 2 (r.q - 2)
  -- In quarters of `2 ^ q`, and without the denominators, all bounds are natural numbers.
  let point := d * up * den
  let low := (4 * r.m - r.below) * num * down
  let high := (4 * r.m + 2) * num * down
  if r.closed then decide (low ≤ point) && decide (point ≤ high)
  else decide (low < point) && decide (point < high)

/-- The two neighbours of a number on the grid of `10 ^ k`: the point that is not above it, and
twice the part of the grid's width that it is beyond that point, compared with that width. -/
def Rounded.floorOn (r : Rounded) (k : Int) : Nat × Ordering :=
  let (up, down) := power 10 k
  let (num, den) := power 2 r.q
  let top := r.m * num * down
  let width := up * den
  (top / width, compare (2 * (top % width)) width)

/-- The point of the grid of `10 ^ k` that is nearest among those that read back. -/
def Rounded.nearest? (r : Rounded) (tie : Tie) (k : Int) : Option Nat :=
  let (d, rest) := r.floorOn k
  match r.holds k d, r.holds k (d + 1) with
  | true, true => some (if rest = .lt ∨ rest = .eq ∧ tie.goesDown d then d else d + 1)
  | true, false => some d
  | false, true => some (d + 1)
  | false, false => none

/-- Tries the grids from `10 ^ k` downward; the number itself is a decimal too. -/
def Rounded.search (r : Rounded) (tie : Tie) : Nat → Int → Decimal
  | 0, _ =>
    if 0 ≤ r.q then ⟨r.m * Nat.pow 2 r.q.toNat, 0⟩ else ⟨r.m * Nat.pow 5 (-r.q).toNat, r.q⟩
  | fuel + 1, k =>
    match r.nearest? tie k with
    | some d => ⟨d, k⟩
    | none => r.search tie fuel (k - 1)

/-- A power of ten above the number: a digit is `log₂ 10` bits. -/
def Rounded.magnitude (r : Rounded) : Int := (Nat.log2 r.m + 1 + r.q) * 30103 / 100000 + 2

/-- The shortest decimal that reads back as a positive number. -/
def Rounded.shortest (r : Rounded) (tie : Tie) : Decimal := r.search tie 24 r.magnitude

end Decimal

end SphereTracer
