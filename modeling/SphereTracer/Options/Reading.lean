import SphereTracer.Options
import SphereTracer.Json.Value

/-!
# Options as JSON

Options are written as an object, in any order and with other keys among them, or as a list of
values in the order of their declaration.  What is not given is as in the standard options.
-/

namespace SphereTracer

/-- The fields in the order of their declaration. -/
inductive OptionField where
  | epsilon
  | normalEpsilon
  | steps
  | bounces
  | iterations
  | stepFactor
  | memory
  | gamma
  | cheapNormals
  deriving DecidableEq, Repr

namespace OptionField

def all : List OptionField :=
  [epsilon, normalEpsilon, steps, bounces, iterations, stepFactor, memory, gamma, cheapNormals]

/-- The key of a field. -/
def key : OptionField → String
  | epsilon => "epsilon"
  | normalEpsilon => "normal_epsilon"
  | steps => "steps"
  | bounces => "bounces"
  | iterations => "iterations"
  | stepFactor => "step_factor"
  | memory => "memory"
  | gamma => "gamma"
  | cheapNormals => "cheap_normals"

/-- The field of a key. -/
def ofKey? (cs : List Char) : Option OptionField := all.find? (·.key = String.ofList cs)

end OptionField

namespace Options

open Json Json.Reader

/-- Reads the value of a field. -/
def readField (o : Options Word) : OptionField → Reader (Options Word)
  | .epsilon => do return { o with epsilon := ← readNumber }
  | .normalEpsilon => do return { o with normalEpsilon := ← readNumber }
  | .steps => do return { o with steps := ← readCount }
  | .bounces => do return { o with bounces := ← readCount }
  | .iterations => do return { o with iterations := ← readCount }
  | .stepFactor => do return { o with stepFactor := ← readNumber }
  | .memory => do return { o with memory := ← readNumber }
  | .gamma => do return { o with gamma := ← readNumber }
  | .cheapNormals => do return { o with cheapNormals := ← readFlag }

/-- Reads the elements of a list into fields, up to its closing bracket or the last field. -/
def readElements (o : Options Word) (first : Bool) : List OptionField → Reader (Options Word)
  | [] => return o
  | field :: fields => do
    match ← spaced with
    | none => failNext .endOfList
    | some ']' => return o
    | some c =>
      unless first do
        unless c = ',' do failNext .unseparatedList
        advance
        match ← spaced with
        | none => failNext .endOfValue
        | some ']' => failNext .trailingComma
        | some _ => pure ()
      readElements (← o.readField field) false fields

/-- Takes off the closing bracket of a list. -/
def closeList : Reader Unit := do
  match ← spaced with
  | some ']' => advance
  | some ',' => do
    advance
    match ← spaced with
    | some ']' => failNext .trailingComma
    | _ => failNext .trailingCharacters
  | some _ => failNext .trailingCharacters
  | none => failNext .endOfList

/-- A field that has been given before.  The fault shows behind the blanks after its key. -/
def failRepeated {α : Type} (field : OptionField) : Reader α := do
  if (← spaced) == some '\x7d' then advance
  failHere (.repeatedField field.key)

/-- Goes on to the next member of an object; false behind the last one. -/
def nextMember (first : Bool) : Reader Bool := do
  match ← spaced with
  | none => failNext .endOfObject
  | some '\x7d' => return false
  | some c =>
    if first then
      unless c = '"' do failNext .keyNotText
      return true
    else
      unless c = ',' do failNext .unseparatedObject
      advance
      match ← spaced with
      | some '"' => return true
      | some '\x7d' => failNext .trailingComma
      | some _ => failNext .keyNotText
      | none => failNext .endOfValue

/-- Reads the members of an object up to its closing brace; `given` are the fields read before. -/
def readMembers : Nat → Options Word → Bool → List OptionField → Reader (Options Word)
  | 0, o, _, _ => return o
  | n + 1, o, first, given => do
    if ← nextMember first then
      advance
      match OptionField.ofKey? (← quotedText) with
      | none => do
        colon
        skipValue
        readMembers n o false given
      | some field =>
        if field ∈ given then failRepeated field
        else
          colon
          readMembers n (← o.readField field) false (field :: given)
    else return o

/-- Reads options from a complete text. -/
def reader : Reader (Options Word) := do
  let o ← match ← spaced with
    | none => failNext .endOfValue
    | some '[' => do
      advance
      let o ← readElements .standard true OptionField.all
      closeList
      pure o
    | some '\x7b' => do
      advance
      let o ← readMembers (← fuel) .standard true []
      advance
      pure o
    | some _ => mismatch .options
  match ← spaced with
  | some _ => failNext .trailingCharacters
  | none => return o

def ofJson (text : String) : Except Json.Error (Options Word) := reader.run text

end Options

end SphereTracer
