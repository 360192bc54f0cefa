import SphereTracer.Binary32
import SphereTracer.Decimal.Shortest

/-!
# Numbers as text

How a decimal is written: positionally while its leading digit is near the units place, and else
with an exponent.
-/

namespace SphereTracer.Decimal

/-- How numbers are written. -/
structure Style where
  /-- The least place of the leading digit, counted from the units, for which a decimal is written
  without an exponent. -/
  least : Int
  /-- The greatest such place. -/
  greatest : Int
  /-- Whether an exponent that is not negative has a sign too. -/
  signed : Bool
  /-- Which of two shortest decimals is taken that are equally near. -/
  tie : Tie

/-- Constants of kernels. -/
def Style.constant : Style := ⟨-4, 15, false, .up⟩

/-- Numbers in messages about options. -/
def Style.report : Style := ⟨-5, 15, true, .toEven⟩

/-- The digits of a number, the highest first. -/
def digitChars (n : Nat) : List Char := (toString n).toList

def zeros (n : Nat) : List Char := List.replicate n '0'

/-- A decimal without an exponent, with a digit on both sides of the point. -/
def positional (digits : List Char) (exponent : Int) : List Char :=
  if 0 ≤ exponent then digits ++ zeros exponent.toNat ++ ['.', '0']
  else
    let whole := (digits.length + exponent).toNat
    if 0 < digits.length + exponent then
      digits.take whole ++ ['.'] ++ digits.drop whole
    else ['0', '.'] ++ zeros (-(digits.length + exponent)).toNat ++ digits

/-- A decimal with one digit before the point, and its exponent. -/
def scientific (signed : Bool) (digits : List Char) (place : Int) : List Char :=
  let fraction := digits.drop 1
  digits.take 1 ++ (if fraction.isEmpty then [] else '.' :: fraction) ++
    ['e'] ++ (if signed ∧ 0 ≤ place then ['+'] else []) ++ (toString place).toList

def chars (style : Style) (d : Decimal) : List Char :=
  let digits := digitChars d.digits
  let place := digits.length - 1 + d.exponent
  if style.least ≤ place ∧ place ≤ style.greatest then positional digits d.exponent
  else scientific style.signed digits place

/-- The interval of a positive binary number whose pattern without sign is `bits`, in a format with
`width` bits of fraction and the least exponent `least`. -/
def Rounded.ofBits (width : Nat) (least : Int) (bits : Nat) : Rounded :=
  let fraction := bits % Nat.pow 2 width
  let exponent := bits / Nat.pow 2 width
  if exponent = 0 then ⟨fraction, least, 2, fraction % 2 = 0⟩
  else
    let m := Nat.pow 2 width + fraction
    -- Below a power of two numbers are twice as dense, except at the least one.
    ⟨m, least + exponent - 1, if fraction = 0 ∧ 1 < exponent then 1 else 2, m % 2 = 0⟩

/-- A finite number in a style, from its sign and its pattern without sign. -/
def write (style : Style) (width : Nat) (least : Int) (negative : Bool) (bits : Nat) : List Char :=
  (if negative then ['-'] else []) ++
    if bits = 0 then ['0', '.', '0']
    else ((Rounded.ofBits width least bits).shortest style.tie).chars style

end SphereTracer.Decimal

namespace SphereTracer

/-- A number as constants are written: the shortest decimal that reads back, with a point or an
exponent. -/
def Word.text (w : Word) : String :=
  if w.isFinite then
    String.ofList (Decimal.write .constant 23 (-149) w.isNegative w.magnitude.toNat)
  else if w.magnitude = 0x7f800000 then (if w.isNegative then "-inf" else "inf")
  else "NaN"

/-- A number of double precision as messages show it. -/
def reportText (x : Float) : String :=
  let bits := x.toBits.toNat
  let sign := UInt64.size / 2
  String.ofList (Decimal.write .report 52 (-1074) (sign ≤ bits) (bits % sign))

end SphereTracer
