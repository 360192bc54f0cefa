import SphereTracer.Json.Reader

/-!
# Text in quotes

Characters stand for themselves, except for escapes, and controls are not allowed.  Code points
beyond sixteen bits are escaped as pairs of surrogates.
-/

namespace SphereTracer.Json

/-- The value of a hexadecimal digit of either case. -/
def hexValue? (c : Char) : Option Nat :=
  if c.isDigit then some (c.toNat - '0'.toNat)
  else if 'a' ≤ c ∧ c ≤ 'f' then some (c.toNat - 'a'.toNat + 10)
  else if 'A' ≤ c ∧ c ≤ 'F' then some (c.toNat - 'A'.toNat + 10)
  else none

/-- The escapes of one letter. -/
def letterEscape? : Char → Option Char
  | '"' => some '"'
  | '\\' => some '\\'
  | '/' => some '/'
  | 'b' => some '\x08'
  | 'f' => some '\x0c'
  | 'n' => some '\n'
  | 'r' => some '\r'
  | 't' => some '\t'
  | _ => none

/-- Whether a unit of sixteen bits begins a pair. -/
def isLeading (n : Nat) : Bool := 0xd800 ≤ n && n ≤ 0xdbff

/-- Whether a unit of sixteen bits ends a pair. -/
def isTrailing (n : Nat) : Bool := 0xdc00 ≤ n && n ≤ 0xdfff

open Reader

/-- Reads four hexadecimal digits. -/
def hexEscape : Reader Nat := do
  let ⟨rest, index⟩ ← get
  let left := (String.ofList rest).utf8ByteSize
  match (rest.take 4).mapM hexValue?, rest with
  | some [a, b, c, d], _ :: _ :: _ :: _ :: rest =>
    set (Cursor.mk rest (index + 4))
    return ((a * 16 + b) * 16 + c) * 16 + d
  | _, _ =>
    if left < 4 then failAt (index + left) .endOfText else failAt (index + 4) .badEscape

/-- Takes off a character that has to come, inside an escape. -/
def required (c : Char) : Reader Unit := do
  match ← peek with
  | none => failHere .endOfText
  | some d => if d = c then advance else failNext .unfinishedPair

/-- Reads an escaped code point behind its letter. -/
def codePoint : Reader Char := do
  let high ← hexEscape
  if isTrailing high then failHere .loneSurrogate
  if !isLeading high then return Char.ofNat high
  required '\\'
  required 'u'
  let low ← hexEscape
  unless isTrailing low do failHere .loneSurrogate
  return Char.ofNat (0x10000 + (high - 0xd800) * 0x400 + (low - 0xdc00))

/-- Reads an escape behind its backslash. -/
def escaped : Reader Char := do
  match ← peek with
  | none => failHere .endOfText
  | some 'u' => do
    advance
    codePoint
  | some c =>
    match letterEscape? c with
    | some d => do
      advance
      return d
    | none => failNext .badEscape

/-- The loop of `quotedText`, with the characters read so far in reverse. -/
def quotedLoop : Nat → List Char → Reader (List Char)
  | 0, _ => failHere .endOfText
  | n + 1, read => do
    match ← next with
    | none => failHere .endOfText
    | some '"' => return read.reverse
    | some '\\' => do quotedLoop n ((← escaped) :: read)
    | some c => if c < ' ' then failHere .controlCharacter else quotedLoop n (c :: read)

/-- Reads a text behind its opening quote. -/
def quotedText : Reader (List Char) := do quotedLoop (← fuel) []

/-- Passes over an escape behind its backslash.  Whether surrogates are paired does not matter. -/
def skipEscape : Reader Unit := do
  match ← peek with
  | none => failHere .endOfText
  | some 'u' => do
    advance
    discard hexEscape
  | some c => if (letterEscape? c).isSome then advance else failNext .badEscape

def skipTextLoop : Nat → Reader Unit
  | 0 => failHere .endOfText
  | n + 1 => do
    match ← peek with
    | none => failHere .endOfText
    | some '"' => advance
    | some '\\' => do
      advance
      skipEscape
      skipTextLoop n
    | some c =>
      if c < ' ' then failHere .controlCharacter
      else do
        advance
        skipTextLoop n

/-- Passes over a text behind its opening quote. -/
def skipText : Reader Unit := do skipTextLoop (← fuel)

end SphereTracer.Json
