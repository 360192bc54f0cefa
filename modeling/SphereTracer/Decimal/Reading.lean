import SphereTracer.Decimal.Nearest

/-!
# Decimal numerals

Reading a number from text: an optional sign, then digits with an optional point and an optional
exponent, or a name of infinity or of no number in letters of either case.
-/

namespace SphereTracer

/-- Why a text is no numeral. -/
inductive NumeralFault where
  | empty
  | malformed
  deriving DecidableEq, Repr

def NumeralFault.message : NumeralFault → String
  | empty => "cannot parse float from empty string"
  | malformed => "invalid float literal"

namespace Decimal

def digitValue (c : Char) : Nat := c.toNat - '0'.toNat

/-- The number that digits write, the highest first. -/
def ofDigits (ds : List Char) : Nat := ds.foldl (fun n d => 10 * n + digitValue d) 0

/-- An exponent with an optional sign. -/
def exponent? (cs : List Char) : Option Int :=
  let (negative, ds) := match cs with
    | '-' :: ds => (true, ds)
    | '+' :: ds => (false, ds)
    | ds => (false, ds)
  if ds.isEmpty || !ds.all Char.isDigit then none
  else some (if negative then -(ofDigits ds : Int) else ofDigits ds)

/-- Digits, on at least one side of an optional point, and an optional exponent. -/
def ofChars? (cs : List Char) : Option Decimal :=
  let whole := cs.takeWhile Char.isDigit
  let (fraction, rest) := match cs.dropWhile Char.isDigit with
    | '.' :: rest => (rest.takeWhile Char.isDigit, rest.dropWhile Char.isDigit)
    | rest => ([], rest)
  if whole.isEmpty && fraction.isEmpty then none
  else
    let exponent := match rest with
      | [] => some 0
      | e :: rest => if e = 'e' ∨ e = 'E' then exponent? rest else none
    exponent.map fun e => ⟨ofDigits (whole ++ fraction), e - fraction.length⟩

end Decimal

namespace Word

/-- The numbers that have a name instead of digits. -/
def named? (cs : List Char) : Option Word :=
  match String.ofList (cs.map Char.toLower) with
  | "inf" | "infinity" => some ⟨0x7f800000⟩
  | "nan" => some ⟨0x7fc00000⟩
  | _ => none

/-- A number without a sign. -/
def ofUnsigned (negative : Bool) (cs : List Char) : Except NumeralFault Word :=
  match Decimal.ofChars? cs, named? cs with
  | some d, _ => .ok (d.toWord negative)
  | none, some w => .ok (if negative then -w else w)
  | none, none => .error .malformed

/-- The number that a text writes. -/
def ofChars : List Char → Except NumeralFault Word
  | [] => .error .empty
  | '-' :: cs => ofUnsigned true cs
  | '+' :: cs => ofUnsigned false cs
  | cs => ofUnsigned false cs

end Word

end SphereTracer
