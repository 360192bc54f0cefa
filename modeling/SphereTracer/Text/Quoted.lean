import SphereTracer.Text
import SphereTracer.Text.Printable

/-!
# Quoted text

Text as messages quote it: between double quotes, with escapes for what would not be shown as it is.
-/

namespace SphereTracer.Text

/-- The hexadecimal digits of a number, without leading zeros. -/
def shortHex (n : Nat) : List Char := Nat.toDigits 16 n

/-- A character inside quotes. -/
def escape (c : Char) : List Char :=
  match c with
  | '"' => ['\\', '"']
  | '\\' => ['\\', '\\']
  | '\n' => ['\\', 'n']
  | '\r' => ['\\', 'r']
  | '\t' => ['\\', 't']
  | '\x00' => ['\\', '0']
  | c =>
    if isPrintable c then [c] else ['\\', 'u', '\x7b'] ++ shortHex c.toNat ++ ['\x7d']

/-- A text between quotes. -/
def quoted (cs : List Char) : String := String.ofList ('"' :: cs.flatMap escape ++ ['"'])

/-- A character of a file's name inside quotes; single quotes are escaped there too. -/
def escapeInName (c : Char) : List Char := if c = '\x27' then ['\\', c] else escape c

/-- A part of a file's name between quotes. -/
def quotedName (cs : List Char) : String :=
  String.ofList ('"' :: cs.flatMap escapeInName ++ ['"'])

end SphereTracer.Text
