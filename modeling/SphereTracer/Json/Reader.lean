import SphereTracer.Json.Fault

/-!
# Readers

A reader takes characters off a text one by one and stops at the first fault.  Places are counted in
bytes of UTF-8.
-/

namespace SphereTracer.Json

/-- What is left of a text, and how many bytes have been taken off. -/
structure Cursor where
  rest : List Char
  index : Nat

/-- A computation on the rest of a text. -/
abbrev Reader := StateT Cursor (Except Failure)

namespace Reader

/-- Reads a text from its start. -/
def run {α : Type} (reader : Reader α) (text : String) : Except Error α :=
  match reader ⟨text.toList, 0⟩ with
  | .ok (a, _) => .ok a
  | .error failure => .error (failure.inText text)

/-- A fault that shows at a byte. -/
def failAt {α : Type} (index : Nat) (fault : Fault) : Reader α := throw ⟨fault, index⟩

/-- A fault of what has been taken. -/
def failHere {α : Type} (fault : Fault) : Reader α := do failAt (← get).index fault

/-- A fault of the next byte, or of its absence. -/
def failNext {α : Type} (fault : Fault) : Reader α := do
  let c ← get
  failAt (if c.rest.isEmpty then c.index else c.index + 1) fault

/-- The next character, which stays. -/
def peek : Reader (Option Char) := do return (← get).rest.head?

/-- Takes the next character off. -/
def next : Reader (Option Char) := do
  match ← get with
  | ⟨[], _⟩ => return none
  | ⟨c :: rest, index⟩ =>
    set (Cursor.mk rest (index + c.utf8Size))
    return some c

/-- Takes the next character off, if there is one. -/
def advance : Reader Unit := do discard next

/-- Takes off all characters up to the first that is not of a class. -/
def takeWhile (p : Char → Bool) : Reader (List Char) := do
  let ⟨rest, index⟩ ← get
  let taken := rest.takeWhile p
  set (Cursor.mk (rest.dropWhile p) (index + (String.ofList taken).utf8ByteSize))
  return taken

/-- The blanks of the format. -/
def isSpace (c : Char) : Bool := c == ' ' || c == '\n' || c == '\t' || c == '\r'

/-- Takes off blanks and looks at what comes then. -/
def spaced : Reader (Option Char) := do
  discard (takeWhile isSpace)
  peek

def digits : Reader (List Char) := takeWhile Char.isDigit

/-- Takes off the rest of a literal. -/
def literal : List Char → Reader Unit
  | [] => return ()
  | c :: rest => do
    match ← peek with
    | none => failHere .endOfValue
    | some d => if d = c then advance else failNext .noLiteral
    literal rest

/-- A number of steps that no loop over the rest of the text exceeds. -/
def fuel : Reader Nat := do return 2 * (← get).rest.length + 2

end Reader

end SphereTracer.Json
