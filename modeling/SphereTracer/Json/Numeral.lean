import SphereTracer.Json.Reader
import SphereTracer.Decimal.Reading

/-!
# Numerals

Integers are read exactly while they fit into 64 bits.  Everything else becomes a number of double
precision: as many digits as fit into 64 bits, then scaled by a power of ten.
-/

namespace SphereTracer.Json

inductive Numeral where
  | natural (n : UInt64)
  /-- The negative of a positive number up to `2 ^ 63`. -/
  | negative (n : UInt64)
  | real (x : Float)

namespace Numeral

/-- How messages call a numeral. -/
def unexpected : Numeral → Unexpected
  | natural n => .integer n.toNat
  | negative n => .integer (-n.toNat)
  | real x => .real x

/-- The nearest number of single precision. -/
def toWord : Numeral → Word
  | natural n => .ofFloat n.toFloat32
  | negative n => .ofFloat (-n.toFloat32)
  | real x => .ofFloat x.toFloat32

/-- A count of 32 bits. -/
def toCount : Numeral → Except Fault UInt32
  | natural n =>
    if n.toNat < UInt32.size then .ok n.toUInt32 else .error (.badValue (natural n).unexpected .count)
  | negative n => .error (.badValue (negative n).unexpected .count)
  | real x => .error (.badType (.real x) .count)

/-- Appends digits to a significand for as long as it fits into 64 bits, and counts them. -/
def absorb (significand : Nat) : List Char → Nat × Nat
  | [] => (significand, 0)
  | d :: ds =>
    let longer := 10 * significand + Decimal.digitValue d
    if longer < UInt64.size then
      let (s, n) := absorb longer ds
      (s, n + 1)
    else (significand, 0)

def powerOfTen (n : Nat) : Float := Float.ofScientific 1 false n

/-- The greatest power of ten in double precision. -/
def maxPower : Nat := 308

/-- `x` divided by a power of ten, a range of exponents at a time. -/
def scaleDown (x : Float) (n : Nat) : Float :=
  if n ≤ maxPower then x / powerOfTen n
  else if x == 0.0 then x
  else scaleDown (x / powerOfTen maxPower) (n - maxPower)
termination_by n
decreasing_by simp only [maxPower] at *; omega

/-- `x` times a power of ten, if that is in range. -/
def scaleUp? (x : Float) (n : Nat) : Option Float :=
  if n ≤ maxPower then
    let y := x * powerOfTen n
    if y.isInf then none else some y
  else if x == 0.0 then some x
  else none

/-- A significand times a power of ten, if that is in range. -/
def scale? (significand : Nat) (exponent : Int) : Option Float :=
  let x := (UInt64.ofNat significand).toFloat
  if 0 ≤ exponent then scaleUp? x exponent.toNat else some (scaleDown x (-exponent).toNat)

/-- The greatest exponent. -/
def maxExponent : Nat := 2147483647

/-- The value of an exponent's digits, or how many of them lead beyond the greatest exponent. -/
def exponentOf (exponent count : Nat) : List Char → Except Nat Nat
  | [] => .ok exponent
  | d :: ds =>
    let longer := 10 * exponent + Decimal.digitValue d
    if longer ≤ maxExponent then exponentOf longer (count + 1) ds else .error (count + 1)

end Numeral

open Reader

def signed (positive : Bool) (x : Float) : Float := if positive then x else -x

/-- The number of a significand and an exponent. -/
def scaled (positive : Bool) (significand : Nat) (exponent : Int) : Reader Float := do
  match Numeral.scale? significand exponent with
  | some x => return signed positive x
  | none => failHere .outOfRange

/-- Reads an exponent, from its letter on. -/
def exponentPart (positive : Bool) (significand : Nat) (exponent : Int) : Reader Float := do
  advance
  let sign ← peek
  if sign == some '+' || sign == some '-' then advance
  match ← peek with
  | none => failHere .endOfValue
  | some d => unless d.isDigit do failNext .badNumber
  let start := (← get).index
  match Numeral.exponentOf 0 0 (← digits) with
  | .ok e => scaled positive significand (if sign == some '-' then exponent - e else exponent + e)
  | .error count =>
    -- Zero at any power is zero, and so is any number at a power that is too small.
    if significand ≠ 0 ∧ sign ≠ some '-' then failAt (start + count) .outOfRange
    else return signed positive 0.0

/-- Reads an exponent if there is one. -/
def exponentPart? (positive : Bool) (significand : Nat) (exponent : Int) : Reader Float := do
  match ← peek with
  | some 'e' | some 'E' => exponentPart positive significand exponent
  | _ => scaled positive significand exponent

/-- Reads the digits after a point, from the point on. -/
def fractionPart (positive : Bool) (significand : Nat) (exponent : Int) : Reader Float := do
  advance
  let ds ← digits
  if ds.isEmpty then
    match ← peek with
    | some _ => failNext .badNumber
    | none => failNext .endOfValue
  let (significand, taken) := Numeral.absorb significand ds
  exponentPart? positive significand (exponent - taken)

/-- An integer of at most 64 bits.  A negative one of less than `-2 ^ 63` is not exact, and a
negative zero is no integer. -/
def integer (positive : Bool) (n : Nat) : Numeral :=
  if positive then .natural (UInt64.ofNat n)
  else if 0 < n ∧ 2 * n ≤ UInt64.size then .negative (UInt64.ofNat n)
  else .real (-(UInt64.ofNat n).toFloat)

/-- Reads a numeral behind its sign. -/
def numeral (positive : Bool) : Reader Numeral := do
  match ← peek with
  | none => failHere .endOfValue
  | some d => unless d.isDigit do failNext .badNumber
  let ds ←
    if (← peek) == some '0' then do
      advance
      if ((← peek).map Char.isDigit).getD false then failNext .badNumber
      pure ['0']
    else digits
  let (significand, taken) := Numeral.absorb 0 ds
  -- Digits beyond 64 bits count only as powers of ten.
  let dropped := ds.length - taken
  match ← peek with
  | some '.' => return .real (← fractionPart positive significand dropped)
  | some 'e' | some 'E' => return .real (← exponentPart positive significand dropped)
  | _ =>
    if dropped = 0 then return integer positive significand
    else return .real (← scaled positive significand dropped)

end SphereTracer.Json
