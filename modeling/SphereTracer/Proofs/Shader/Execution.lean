import SphereTracer.Proofs.Shader.Agreement
import SphereTracer.Proofs.Shader.Routine

/-!
# What routines do

The value of a routine: that of its instructions one after the other, among the records and constants
its module declares.  Beside the values of expressions there are integers, which a literal stands for
only where the types ask for an `i32`.
-/

namespace SphereTracer.Shader

open Token

/-! ## Declarations -/

/-- What a module declares before its first function. -/
def declarations (source : String) : List Token := (ofText source).takeWhile (· ≠ .word "fn")

/-- The members of a record with their types, where it is declared. -/
def fields? (name : String) : List Token → Option (List (String × String))
  | .word "struct" :: .word s :: ts =>
    if s = name then some (typedNames (ts.takeWhile (· ≠ .sign '\x7d'))) else fields? name ts
  | _ :: ts => fields? name ts
  | [] => none

/-- A constant with its type, where it is declared. -/
def constant? (name : String) : List Token → Option (String × Phrase)
  | .word "const" :: .word s :: .sign ':' :: .word type :: .sign '=' :: ts =>
    if s = name then (Phrase.ofTokens (ts.takeWhile (· ≠ .sign ';'))).map (type, ·)
    else constant? name ts
  | _ :: ts => constant? name ts
  | [] => none

/-! ## Integers -/

/-- What a literal stands for where an `i32` is due, if it stands for one. -/
def integer? (text : String) : Option Int32 :=
  let n := Decimal.ofDigits text.toList
  if toString n = text ∧ n < 2 ^ 31 then some (Int32.ofNat n) else none

/-- What a routine takes from its module and its signature: the members of records with their types,
and the names that stand for integers. -/
structure Types where
  fields : String → Option (List (String × String))
  integers : List String

namespace Types

def isInteger (types : Types) : Phrase → Bool
  | .name s => s ∈ types.integers
  | _ => false

def dues (types : Types) (callee : String) : List Bool :=
  match types.fields callee with
  | some members => members.map (·.2 = "i32")
  | none => []

end Types

mutual

/-- The literals of a phrase that stand where an integer is due; `due` is whether the phrase itself
does.  A literal that is compared with an integer does, too. -/
def Phrase.literals (types : Types) (due : Bool) : Phrase → List String
  | .number text => if due then [text] else []
  | .name _ => []
  | .member a _ => a.literals types false
  | .negated a => a.literals types due
  | .operation _ a b =>
    let due := due || types.isInteger a || types.isInteger b
    a.literals types due ++ b.literals types due
  | .call f arguments => Phrase.literalsOf types (types.dues f) arguments

def Phrase.literalsOf (types : Types) (dues : List Bool) : List Phrase → List String
  | [] => []
  | a :: rest => a.literals types (dues.headD false) ++ Phrase.literalsOf types dues.tail rest

end

mutual

def Instruction.literals (types : Types) : Instruction → List String
  | .set _ a => a.literals types false
  | .giveBack a => a.literals types false
  | .guarded c body => c.literals types false ++ Instruction.literalsOf types body

def Instruction.literalsOf (types : Types) : List Instruction → List String
  | [] => []
  | i :: rest => i.literals types ++ Instruction.literalsOf types rest

end

/-- The types that a routine of a source refers to. -/
def Routine.types (r : Routine) (source : String) : Types where
  fields name := fields? name (declarations source)
  integers := (r.parameters.filter (·.2 = "i32")).map (·.1)

/-- The literals of a routine that stand where an integer is due. -/
def literalsIn (source name : String) : Option (List String) :=
  (routine? source name).map fun r => Instruction.literalsOf (r.types source) r.body

/-! ## Values -/

/-- The values of routines: those of expressions, integers, and records that have integers. -/
inductive Datum (S : Type) where
  | integer (i : Int32)
  | value (v : Value S)
  | record (name : String) (members : List (String × Datum S))

namespace Datum

variable {S : Type}

def value? : Datum S → Option (Value S)
  | value v => some v
  | _ => none

def member (name : String) : Datum S → Option (Datum S)
  | value v => (v.member name).map value
  | record _ members => members.lookup name
  | integer _ => none

def negate [Neg S] : Datum S → Option (Datum S)
  | integer i => some (integer (-i))
  | value v => v.negate.map value
  | record _ _ => none

/-- A record; one without integers is the value of an expression. -/
def construct (name : String) (members : List String) (l : List (Datum S)) : Datum S :=
  match l.mapM value? with
  | some values => value (.record name (members.zip values))
  | none => record name (members.zip l)

/-- The nearest entity as a record. -/
def ofClosest (closest : Closest S) : Datum S :=
  record "Closest" [("id", integer closest.id.toInt32), ("dist", value (.scalar closest.distance))]

end Datum

section
variable {S : Type} [Scalar S]

def Operator.datum : Operator → Datum S → Datum S → Option (Datum S)
  | .equal, .integer a, .integer b => some (.value (.truth (a = b)))
  | .less, .integer a, .integer b => some (.value (.truth (a < b)))
  | f, .value a, .value b => (f.meaning a b).map .value
  | _, _, _ => none

/-- What a function gives: one of the language by what it means, another one by what is called. -/
def applied (call : String → List (Value S) → Option (Value S)) (f : String) (l : List (Value S)) :
    Option (Value S) :=
  match callee? f, l with
  | some (.builtin .abs), [.scalar x] => some (.scalar (Scalar.abs x))
  | some callee, l => callee.meaning l
  | none, l => call f l

/-- What names stand for. -/
abbrev Scope (S : Type) := String → Option (Datum S)

section
variable (types : Types) (call : String → List (Value S) → Option (Value S))

mutual

/-- The value of a phrase, given what names stand for and whether an integer is due. -/
def Phrase.datum (scope : Scope S) (due : Bool) : Phrase → Option (Datum S)
  | .number text =>
    if due then (integer? text).map .integer
    else (Word.ofChars text.toList).toOption.map fun w => .value (.scalar (Scalar.ofWord w))
  | .name s => scope s
  | .member a s => (a.datum scope false).bind (Datum.member s)
  | .negated a => (a.datum scope due).bind Datum.negate
  | .operation f a b =>
    let due := due || types.isInteger a || types.isInteger b
    (a.datum scope due).bind fun x => (b.datum scope due).bind fun y => f.datum x y
  | .call f arguments =>
    (Phrase.data scope (types.dues f) arguments).bind fun l =>
      match types.fields f with
      | some members =>
        if members.length = l.length then some (.construct f (members.map (·.1)) l) else none
      | none => ((l.mapM Datum.value?).bind (applied call f)).map .value

def Phrase.data (scope : Scope S) (dues : List Bool) : List Phrase → Option (List (Datum S))
  | [] => some []
  | a :: rest => (a.datum scope (dues.headD false)).bind fun x =>
    (Phrase.data scope dues.tail rest).map (x :: ·)

end

mutual

/-- Runs an instruction, which gives a value back or goes on with what names stand for then. -/
def Instruction.run : Instruction → Scope S → Option (Datum S ⊕ Scope S)
  | .set name a, scope =>
    (a.datum types call scope false).map fun x => .inr (Function.update scope name (some x))
  | .giveBack a, scope => (a.datum types call scope false).map .inl
  | .guarded c body, scope => (c.datum types call scope false).bind fun
    | .value (.truth b) => if b then Instruction.runAll body scope else some (.inr scope)
    | _ => none

def Instruction.runAll : List Instruction → Scope S → Option (Datum S ⊕ Scope S)
  | [], scope => some (.inr scope)
  | i :: rest, scope => (i.run scope).bind fun
    | .inl x => some (.inl x)
    | .inr scope => Instruction.runAll rest scope

end

end

/-- What names stand for where a routine begins: parameters for the arguments, and other names for
the constants of the module. -/
def Routine.scope (r : Routine) (source : String)
    (call : String → List (Value S) → Option (Value S)) (arguments : List (Datum S)) : Scope S :=
  fun s => ((r.parameters.map (·.1)).zip arguments).lookup s <|>
    (constant? s (declarations source)).bind fun (type, a) =>
      a.datum (r.types source) call (fun _ => none) (type = "i32")

/-- Calls a routine; it has to give a value back. -/
def Routine.call (r : Routine) (source : String)
    (call : String → List (Value S) → Option (Value S)) (arguments : List (Datum S)) :
    Option (Datum S) :=
  if r.parameters.length = arguments.length then
    (Instruction.runAll (r.types source) call r.body (r.scope source call arguments)).bind
      (·.getLeft?)
  else none

/-- Calls a routine of a source, given what its procedures give. -/
def routineIn (source name : String) (call : String → List (Value S) → Option (Value S))
    (arguments : List (Datum S)) : Option (Datum S) :=
  (routine? source name).bind fun r => r.call source call arguments

end

/-! ## Instructions in a row -/

theorem runAll_append {S : Type} [Scalar S] {types : Types}
    {call : String → List (Value S) → Option (Value S)} {scope : Scope S} (l r : List Instruction) :
    Instruction.runAll types call (l ++ r) scope =
      (Instruction.runAll types call l scope).bind fun
        | .inl x => some (.inl x)
        | .inr scope => Instruction.runAll types call r scope := by
  induction l generalizing scope with
  | nil => rfl
  | cons i l ih =>
    rw [List.cons_append, Instruction.runAll, Instruction.runAll]
    rcases i.run types call scope with _ | _ | scope'
    · rfl
    · rfl
    · exact ih

theorem literalsOf_append (types : Types) (l l' : List Instruction) :
    Instruction.literalsOf types (l ++ l') =
      Instruction.literalsOf types l ++ Instruction.literalsOf types l' := by
  induction l with
  | nil => rfl
  | cons i l ih =>
    rw [List.cons_append, Instruction.literalsOf, Instruction.literalsOf, ih, List.append_assoc]

/-! ## Literals of ids -/

theorem integer?_toString (n : ℕ) :
    integer? (toString n) = if n < 2 ^ 31 then some (Int32.ofNat n) else none := by
  have hdigits : Decimal.ofDigits (toString n).toList = n := Decimal.ofDigits_digitChars n
  unfold integer?
  rw [hdigits]
  simp

theorem integer?_eq_some_iff {n : ℕ} {i : Int32} : integer? (toString n) = some i ↔ i.toInt = n := by
  rw [integer?_toString]
  by_cases hlt : n < 2 ^ 31
  · rw [if_pos hlt, Option.some.injEq, ← Int32.toInt_inj, Int32.toInt_ofNat_of_lt hlt, eq_comm]
  · rw [if_neg hlt]
    have hbound := i.toInt_lt
    exact iff_of_false (by simp) (by omega)

theorem isSome_integer?_iff {n : ℕ} : (integer? (toString n)).isSome ↔ n < 2 ^ 31 := by
  rw [integer?_toString]
  by_cases hlt : n < 2 ^ 31
  · rw [if_pos hlt]
    exact iff_of_true rfl hlt
  · rw [if_neg hlt]
    exact iff_of_false (by simp) hlt

theorem ofNat_toNat (a : UInt32) : Int32.ofNat a.toNat = a.toInt32 := by
  apply Int32.toBitVec_inj.1
  show BitVec.ofNat 32 a.toBitVec.toNat = a.toBitVec
  simp

theorem integer?_toInt32 {n : UInt32} (h : n.toNat < 2 ^ 31) :
    integer? (toString n.toNat) = some n.toInt32 := by
  rw [integer?_toString, if_pos h, ofNat_toNat]

theorem eq_toInt32_iff {a : UInt32} {i : Int32} : i = a.toInt32 ↔ a = i.toUInt32 := by
  constructor
  · rintro rfl
    exact (UInt32.toUInt32_toInt32 a).symm
  · rintro rfl
    exact (Int32.toInt32_toUInt32 i).symm

/-! ## What modules declare -/

/-- The tokens of the records and bindings, up to the first function. -/
def fixedDeclarations : List Token := (preludeLines.take 42).flatMap ofText

theorem fixedDeclarations_declare : .word "fn" ∉ fixedDeclarations ∧
    fields? "Closest" fixedDeclarations = some [("id", "i32"), ("dist", "f32")] ∧
    fields? "Material" fixedDeclarations = some [("transmittance", "f32"), ("smoothness", "f32"),
      ("refraction", "f32"), ("scatter", "f32"), ("color", "vec3<f32>"),
      ("emissivity", "vec3<f32>")] ∧
    fields? "abs" fixedDeclarations = none ∧ fields? "vec3<f32>" fixedDeclarations = none := by
  decide +kernel

theorem prelude_eq : preludeLines.flatMap ofText =
    fixedDeclarations ++ (preludeLines.drop 42).flatMap ofText := by
  rw [fixedDeclarations, ← List.flatMap_append, List.take_append_drop]

theorem declarations_moduleText (program : Program) : declarations (moduleText program) =
    optionTokens program.options ++ fixedDeclarations := by
  obtain ⟨rest, hfunction⟩ : ∃ rest, (preludeLines.drop 42).flatMap ofText = .word "fn" :: rest :=
    ⟨_, rfl⟩
  have hoptions : .word "fn" ∉ optionTokens program.options ++ fixedDeclarations := by
    rw [List.mem_append, not_or]
    exact ⟨fun hmem => (everyWord_optionTokens _ _ hmem).2 rfl, fixedDeclarations_declare.1⟩
  have htokens : ofText (moduleText program) = (optionTokens program.options ++ fixedDeclarations) ++
      .word "fn" :: (rest ++ ((generated program).flatMap Function.tokens ++
        entryPointLines.flatMap ofText)) := by
    rw [ofText_moduleText, prelude_eq, hfunction]
    simp
  rw [declarations, htokens, List.takeWhile_append_of_pos, List.takeWhile_cons_of_neg (by simp),
    List.append_nil]
  exact fun t ht => decide_eq_true fun heq => hoptions (heq ▸ ht)

theorem fields?_skip (name : String) {ts : List Token} (h : EveryWord (· ≠ "struct") ts)
    (us : List Token) : fields? name (ts ++ us) = fields? name us := by
  induction ts with
  | nil => rfl
  | cons t ts ih =>
    cases t with
    | sign c => exact ih (everyWord_sign.1 h)
    | word w =>
      obtain ⟨hw, hts⟩ := everyWord_word.1 h
      rw [List.cons_append, fields?, ih hts]
      rintro s ts' heq -
      exact hw (Token.word.inj heq)

theorem fields?_eq_none {name : String} {ts : List Token} (h : .word name ∉ ts) :
    fields? name ts = none := by
  fun_induction fields? name ts with
  | case1 ts => exact absurd (List.mem_cons_of_mem _ List.mem_cons_self) h
  | case2 s ts hs ih =>
    exact ih fun hmem => h (List.mem_cons_of_mem _ (List.mem_cons_of_mem _ hmem))
  | case3 t ts hne ih => exact ih fun hmem => h (List.mem_cons_of_mem _ hmem)
  | case4 => rfl

theorem constant?_max (program : Program) :
    constant? "MAX_VALUE" (declarations (moduleText program)) =
      some ("f32", (Code.float maxDistance).phrase) := by
  have hnumber : numberTokens maxDistance = [.word "10000000000.0"] := by
    decide
  have htokens : declarations (moduleText program) = .word "const" :: .word "MAX_VALUE" ::
      .sign ':' :: .word "f32" :: .sign '=' :: .word "10000000000.0" :: .sign ';' ::
        ((declarations (moduleText program)).drop 7) := by
    rw [declarations_moduleText]
    simp only [optionTokens, constantTokens, hnumber]
    rfl
  rw [htokens, constant?, if_pos rfl]
  rfl

/-- The types tell which records have integers, and leave alone what is called otherwise. -/
structure Types.Known (types : Types) : Prop where
  closest : types.fields "Closest" = some [("id", "i32"), ("dist", "f32")]
  material : types.fields "Material" = some [("transmittance", "f32"), ("smoothness", "f32"),
    ("refraction", "f32"), ("scatter", "f32"), ("color", "vec3<f32>"), ("emissivity", "vec3<f32>")]
  abs : types.fields "abs" = none
  vec3 : types.fields "vec3<f32>" = none
  numbered : ∀ name, Numbered name → types.fields name = none

theorem Routine.fields_types (r : Routine) (source name : String) :
    (r.types source).fields name = fields? name (declarations source) := rfl

theorem Routine.known_types (r : Routine) (program : Program) :
    (r.types (moduleText program)).Known := by
  have hfields (name : String) :
      (r.types (moduleText program)).fields name = fields? name fixedDeclarations := by
    rw [r.fields_types, declarations_moduleText, fields?_skip name (not_struct_optionTokens _)]
  obtain ⟨-, hclosest, hmaterial, habs, hvec3⟩ := fixedDeclarations_declare
  constructor
  · rw [hfields, hclosest]
  · rw [hfields, hmaterial]
  · rw [hfields, habs]
  · rw [hfields, hvec3]
  · intro name hname
    rw [hfields]
    apply fields?_eq_none
    intro hmem
    apply not_numbered_of_fixed _ hname
    rw [prelude_eq]
    exact .inl (List.mem_append_left _ hmem)

/-! ## Values of generated phrases -/

def entityKinds : List String := ["distance", "normal", "material"]

theorem numbered_entity {kind : String} (hkind : kind ∈ entityKinds) (n : ℕ) :
    Numbered (kind ++ toString n) :=
  ⟨kind, List.mem_of_mem_take (show kind ∈ numberedKinds.take 3 from hkind), n, rfl⟩

theorem callee?_entity {kind : String} (hkind : kind ∈ entityKinds) (n : ℕ) :
    callee? (kind ++ toString n) = none := by
  have hcount : ∀ letters ∈ ["mandelbulb_", "sierpinski_fold_"],
      count? letters (kind ++ toString n) = none := by
    intro letters hletters
    unfold count?
    apply if_neg
    intro heq
    have hchars := congrArg String.toList heq
    simp only [entityKinds, List.mem_cons, List.not_mem_nil, or_false] at hkind hletters
    rcases hkind with rfl | rfl | rfl <;> rcases hletters with rfl | rfl <;> simp at hchars
  have hbuiltin : knownBuiltins.find? (·.text = kind ++ toString n) = none := by
    have hends : ∀ f ∈ knownBuiltins, ∀ c ∈ f.text.toList.getLast?, ¬ c.isDigit := by
      simp [knownBuiltins, Builtin.text]
    obtain ⟨init, c, hdigits⟩ := List.eq_nil_or_concat (toString n).toList |>.resolve_left
      (Decimal.digitChars_ne_nil n)
    rw [List.find?_eq_none]
    intro f hf
    rw [decide_eq_true_eq]
    intro heq
    have hlast : c ∈ f.text.toList.getLast? := by
      rw [heq, String.toList_append, hdigits, List.concat_eq_append, ← List.append_assoc,
        List.getLast?_concat]
      rfl
    apply hends f hf c hlast
    apply Decimal.isDigit_of_mem_digitChars c
    show c ∈ (toString n).toList
    rw [hdigits]
    simp
  unfold callee?
  rw [hcount _ List.mem_cons_self, hcount _ (List.mem_cons_of_mem _ List.mem_cons_self), hbuiltin]
  rfl

theorem dues_of_none {types : Types} {f : String} (h : types.fields f = none) : types.dues f = [] := by
  unfold Types.dues
  rw [h]

theorem mapM_value? {S : Type} (l : List (Value S)) :
    (l.map Datum.value).mapM Datum.value? = some l := by
  induction l with
  | nil => rfl
  | cons v l ih =>
    rw [List.map_cons, List.mapM_cons, ih]
    rfl

section
variable {types : Types} {call : String → List (Value Float32) → Option (Value Float32)}
  {scope : Scope Float32}

theorem datum_call {f : Callee} (hfields : types.fields f.text = none) {arguments : List Code}
    {l : List (Value Float32)}
    (hl : Phrase.data types call scope [] (Code.phraseList arguments) = some (l.map .value))
    (due : Bool) : (Code.call f arguments).phrase.datum types call scope due =
      (applied call f.text l).map .value := by
  rw [Code.phrase, Phrase.datum, dues_of_none hfields, hl, Option.bind_some, hfields]
  dsimp only
  rw [mapM_value?, Option.bind_some]

theorem datum_procedure (hknown : types.Known) {kind : String} (hkind : kind ∈ entityKinds)
    {f : FunctionName} {id : EntityId} (hf : f.text = kind ++ toString id) {arguments : List Code}
    {l : List (Value Float32)}
    (hl : Phrase.data types call scope [] (Code.phraseList arguments) = some (l.map .value)) :
    (Code.call (.generated f) arguments).phrase.datum types call scope false =
      (call (kind ++ toString id) l).map .value := by
  have hfields : types.fields f.text = none := hf ▸ hknown.numbered _ (numbered_entity hkind _)
  have hcallee : callee? f.text = none := hf ▸ callee?_entity hkind _
  have happlied : applied call f.text l = call f.text l := by
    unfold applied
    rw [hcallee]
  rw [datum_call hfields hl, ← hf]
  exact congrArg _ happlied

theorem datum_float {w : Word} (h : w.isFinite) (hsign : ¬ w.isNegative) :
    (Code.float w).phrase.datum types call scope false = some (.value (.scalar w.toFloat)) := by
  rw [Code.phrase, if_neg hsign, Code.numeral, Phrase.datum, if_neg Bool.false_ne_true,
    String.toList_ofList, Word.ofChars_unsignedChars h, Word.magnitude_eq hsign]
  rfl

theorem data_single {a : Code} {v : Value Float32}
    (ha : a.phrase.datum types call scope false = some (.value v)) :
    Phrase.data types call scope [] (Code.phraseList [a]) = some ([v].map .value) := by
  rw [Code.phraseList, Code.phraseList, Phrase.data, Phrase.data, List.headD_nil, ha]
  rfl

theorem datum_splat (hknown : types.Known) {a : Code} {x : Float32}
    (ha : a.phrase.datum types call scope false = some (.value (.scalar x))) (due : Bool) :
    (Code.splat a).phrase.datum types call scope due = some (.value (.vector (.splat x))) := by
  have hcallee : callee? (Callee.builtin .vec3).text = some (.builtin .vec3) := callee?_text rfl
  unfold Code.splat Code.builtin
  rw [datum_call hknown.vec3 (data_single ha)]
  unfold applied
  rw [hcallee]
  rfl

theorem datum_abs (hknown : types.Known) {a : Code} {x : Float32}
    (ha : a.phrase.datum types call scope false = some (.value (.scalar x))) (due : Bool) :
    (Code.builtin .abs [a]).phrase.datum types call scope due =
      some (.value (.scalar (Scalar.abs x))) := by
  have hcallee : callee? (Callee.builtin .abs).text = some (.builtin .abs) := callee?_text rfl
  unfold Code.builtin
  rw [datum_call hknown.abs (data_single ha)]
  unfold applied
  rw [hcallee]
  rfl

end

end SphereTracer.Shader
