import SphereTracer.Decimal.Style
import SphereTracer.Text.Quoted

/-!
# What can be wrong with a JSON text

A fault is a text that ends too early, one that is no JSON, or a value that is not wanted where it
stands.
-/

namespace SphereTracer.Json

/-- A value that is not wanted, as messages call it. -/
inductive Unexpected where
  | null
  | boolean (b : Bool)
  | integer (n : Int)
  | real (x : Float)
  | text (cs : List Char)
  | list
  | object

def Unexpected.describe : Unexpected → String
  | null => "null"
  | boolean b => "boolean `" ++ toString b ++ "`"
  | integer n => "integer `" ++ toString n ++ "`"
  | real x => "floating point `" ++ reportText x ++ "`"
  | text cs => "string " ++ Text.quoted cs
  | list => "sequence"
  | object => "map"

/-- What a reader looks for. -/
inductive Wanted where
  | count
  | number
  | flag
  | options
  deriving DecidableEq, Repr

def Wanted.describe : Wanted → String
  | count => "u32"
  | number => "f32"
  | flag => "a boolean"
  | options => "struct KernelOptions"

inductive Fault where
  /-- The text ends inside of a list. -/
  | endOfList
  | endOfObject
  | endOfText
  | endOfValue
  | noColon
  /-- Neither a comma nor the end of the list. -/
  | unseparatedList
  | unseparatedObject
  /-- A word that is none of the three literals. -/
  | noLiteral
  | noValue
  | badEscape
  | badNumber
  /-- A number beyond double precision. -/
  | outOfRange
  | controlCharacter
  | keyNotText
  | loneSurrogate
  | unfinishedPair
  | trailingComma
  | trailingCharacters
  /-- A value of the wrong type. -/
  | badType (found : Unexpected) (wanted : Wanted)
  /-- A value of the right type and out of range. -/
  | badValue (found : Unexpected) (wanted : Wanted)
  | repeatedField (name : String)

/-- The three kinds of faults. -/
inductive Category where
  /-- The text ends too early. -/
  | incomplete
  | syntactic
  /-- JSON, but not of the wanted form. -/
  | semantic
  deriving DecidableEq, Repr

namespace Fault

def category : Fault → Category
  | endOfList | endOfObject | endOfText | endOfValue => .incomplete
  | badType .. | badValue .. | repeatedField _ => .semantic
  | _ => .syntactic

def message : Fault → String
  | endOfList => "EOF while parsing a list"
  | endOfObject => "EOF while parsing an object"
  | endOfText => "EOF while parsing a string"
  | endOfValue => "EOF while parsing a value"
  | noColon => "expected `:`"
  | unseparatedList => "expected `,` or `]`"
  | unseparatedObject => "expected `,` or `\x7d`"
  | noLiteral => "expected ident"
  | noValue => "expected value"
  | badEscape => "invalid escape"
  | badNumber => "invalid number"
  | outOfRange => "number out of range"
  | controlCharacter =>
    "control character (\\u0000-\\u001F) found while parsing a string"
  | keyNotText => "key must be a string"
  | loneSurrogate => "lone leading surrogate in hex escape"
  | unfinishedPair => "unexpected end of hex escape"
  | trailingComma => "trailing comma"
  | trailingCharacters => "trailing characters"
  | badType found wanted =>
    "invalid type: " ++ found.describe ++ ", expected " ++ wanted.describe
  | badValue found wanted =>
    "invalid value: " ++ found.describe ++ ", expected " ++ wanted.describe
  | repeatedField name => "duplicate field `" ++ name ++ "`"

end Fault

/-- A fault and the byte up to which the text has been looked at. -/
structure Failure where
  fault : Fault
  index : Nat

/-- A fault with its place: lines count from one, columns are bytes since the line's start. -/
structure Error where
  fault : Fault
  line : Nat
  column : Nat

def Error.message (e : Error) : String :=
  e.fault.message ++ " at line " ++ toString e.line ++ " column " ++ toString e.column

/-- The line and the column of a byte. -/
def place (bytes : List UInt8) (index : Nat) : Nat × Nat :=
  let before := bytes.take index
  (1 + before.count 10, (before.reverse.takeWhile (· != 10)).length)

/-- The fault with its place in a text. -/
def Failure.inText (failure : Failure) (text : String) : Error :=
  let (line, column) := place text.toUTF8.data.toList failure.index
  ⟨failure.fault, line, column⟩

end SphereTracer.Json
