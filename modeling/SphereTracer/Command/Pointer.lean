import SphereTracer.Vec
import SphereTracer.Text.Blank
import SphereTracer.Decimal.Reading

/-!
# Pointer positions

A position is written as two numbers with a comma between them.
-/

namespace SphereTracer.Pointer

/-- Why a text is no position. -/
inductive Fault where
  | unseparated (text : String)
  | coordinate (text : String) (fault : NumeralFault)
  deriving DecidableEq, Repr

def Fault.message : Fault → String
  | unseparated text => "expected `x,y`, got `" ++ text ++ "`"
  | coordinate text fault => "invalid coordinate `" ++ text ++ "`: " ++ fault.message

/-- A coordinate may have blanks around it. -/
def coordinate (cs : List Char) : Except Fault Word :=
  (Word.ofChars (Text.trim cs)).mapError (.coordinate (String.ofList cs))

/-- The position that a text writes; the first comma separates. -/
def ofText (text : String) : Except Fault (Vec2 Word) :=
  let cs := text.toList
  match cs.dropWhile (· ≠ ',') with
  | [] => .error (.unseparated text)
  | _ :: rest => do
    let x ← coordinate (cs.takeWhile (· ≠ ','))
    let y ← coordinate rest
    return ⟨x, y⟩

end SphereTracer.Pointer
