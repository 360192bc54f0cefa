import SphereTracer.Json.Numeral
import SphereTracer.Json.Quoted

/-!
# Values

Values that are wanted: counts, numbers and flags.  Values that are not: a value of another type is
read as far as is needed to name it, and one that nobody asked for is passed over.
-/

namespace SphereTracer.Json

open Reader

/-- Names a value that is not of the wanted type. -/
def mismatch {α : Type} (wanted : Wanted) : Reader α := do
  match ← peek with
  | some 'n' => do
    advance
    literal ['u', 'l', 'l']
    failHere (.badType .null wanted)
  | some 't' => do
    advance
    literal ['r', 'u', 'e']
    failHere (.badType (.boolean true) wanted)
  | some 'f' => do
    advance
    literal ['a', 'l', 's', 'e']
    failHere (.badType (.boolean false) wanted)
  | some '-' => do
    advance
    let n ← numeral false
    failHere (.badType n.unexpected wanted)
  | some '"' => do
    advance
    let cs ← quotedText
    failHere (.badType (.text cs) wanted)
  | some '[' => failHere (.badType .list wanted)
  | some '\x7b' => failHere (.badType .object wanted)
  | some c =>
    if c.isDigit then do
      let n ← numeral true
      failHere (.badType n.unexpected wanted)
    else failNext .noValue
  | none => failNext .noValue

def wantedNumeral (wanted : Wanted) : Reader Numeral := do
  match ← spaced with
  | none => failNext .endOfValue
  | some '-' => do
    advance
    numeral false
  | some c => if c.isDigit then numeral true else mismatch wanted

/-- Reads a number; integers are numbers too. -/
def readNumber : Reader Word := do return (← wantedNumeral .number).toWord

def readCount : Reader UInt32 := do
  match (← wantedNumeral .count).toCount with
  | .ok n => return n
  | .error fault => failHere fault

def readFlag : Reader Bool := do
  match ← spaced with
  | none => failNext .endOfValue
  | some 't' => do
    advance
    literal ['r', 'u', 'e']
    return true
  | some 'f' => do
    advance
    literal ['a', 'l', 's', 'e']
    return false
  | some _ => mismatch .flag

/-- Takes off the colon behind a key. -/
def colon : Reader Unit := do
  match ← spaced with
  | some ':' => advance
  | some _ => failNext .noColon
  | none => failNext .endOfObject

/-! ## Passing over values -/

/-- Passes over an exponent, from its letter on. -/
def skipExponent : Reader Unit := do
  advance
  let sign ← peek
  if sign == some '+' || sign == some '-' then advance
  if (← digits).isEmpty then failNext .badNumber

/-- Passes over a numeral behind its sign. -/
def skipNumeral : Reader Unit := do
  if (← peek) == some '0' then
    advance
    if ((← peek).map Char.isDigit).getD false then failNext .badNumber
  else if (← digits).isEmpty then failNext .badNumber
  if (← peek) == some '.' then
    advance
    if (← digits).isEmpty then failNext .badNumber
  match ← peek with
  | some 'e' | some 'E' => skipExponent
  | _ => return ()

/-- Passes over a value that holds no other values. -/
def skipScalar : Reader Unit := do
  match ← peek with
  | some 'n' => do
    advance
    literal ['u', 'l', 'l']
  | some 't' => do
    advance
    literal ['r', 'u', 'e']
  | some 'f' => do
    advance
    literal ['a', 'l', 's', 'e']
  | some '-' => do
    advance
    skipNumeral
  | some '"' => do
    advance
    skipText
  | some c => if c.isDigit then skipNumeral else failNext .noValue
  | none => failNext .endOfValue

/-- What is open around a value. -/
inductive Bracket where
  | list
  | object
  deriving DecidableEq, Repr

namespace Bracket

/-- The bracket that a character opens. -/
def ofChar? : Char → Option Bracket
  | '[' => some list
  | '\x7b' => some object
  | _ => none

def close : Bracket → Char
  | list => ']'
  | object => '\x7d'

/-- The text ends before the bracket closes. -/
def unfinished : Bracket → Fault
  | list => .endOfList
  | object => .endOfObject

/-- Two values without a comma between them. -/
def unseparated : Bracket → Fault
  | list => .unseparatedList
  | object => .unseparatedObject

end Bracket

/-- Passes over what stands before a value: in an object, a key and a colon. -/
def skipKey : Bracket → Reader Unit
  | .list => return ()
  | .object => do
    match ← spaced with
    | some '"' => advance
    | some _ => failNext .keyNotText
    | none => failNext .endOfObject
    skipText
    colon

/-- Where a pass over a value stands. -/
inductive Phase where
  /-- Before a value. -/
  | value
  /-- Behind a bracket that has just been opened. -/
  | opened
  /-- Behind a value. -/
  | done
  deriving DecidableEq, Repr

/-- The loop of `skipValue`, with the brackets that are open, the innermost first. -/
def skipLoop : Nat → Phase → List Bracket → Reader Unit
  | 0, _, _ => failHere .endOfValue
  | n + 1, .value, stack => do
    match (← spaced).bind Bracket.ofChar? with
    | some bracket => do
      advance
      skipLoop n .opened (bracket :: stack)
    | none => do
      skipScalar
      skipLoop n .done stack
  | _ + 1, _, [] => return ()
  | n + 1, phase, bracket :: stack => do
    match ← spaced with
    | none => failNext bracket.unfinished
    | some c =>
      if c = bracket.close then do
        advance
        skipLoop n .done stack
      else if phase = .opened then do
        skipKey bracket
        skipLoop n .value (bracket :: stack)
      else if c = ',' then do
        advance
        skipKey bracket
        skipLoop n .value (bracket :: stack)
      else failNext bracket.unseparated

/-- Passes over a value of any type. -/
def skipValue : Reader Unit := do skipLoop (← fuel) .value []

end SphereTracer.Json
