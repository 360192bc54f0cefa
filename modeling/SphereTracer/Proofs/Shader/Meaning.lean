import SphereTracer.Interpreter
import SphereTracer.Proofs.Numbers.Sign
import SphereTracer.Proofs.Shader.Closed

/-!
# What procedures compute

The standard meaning of the expressions that are read from a module.  Functions and constructors are
known by how they are written, members and records by what the module declares, and lines are
evaluated from top to bottom.
-/

namespace SphereTracer.Shader

open Token

/-! ## Records -/

/-- The names of the members of a record, where it is declared. -/
def members? (name : String) : List Token → Option (List String)
  | .word "struct" :: .word s :: ts =>
    if s = name then
      if .sign '\x7d' ∈ ts then some (Procedure.parametersOf (ts.takeWhile (· ≠ .sign '\x7d')))
      else none
    else members? name ts
  | _ :: ts => members? name ts
  | [] => none

theorem members?_skip (name : String) {ts : List Token} (h : EveryWord (· ≠ "struct") ts)
    (us : List Token) : members? name (ts ++ us) = members? name us := by
  induction ts with
  | nil => rfl
  | cons t ts ih =>
    cases t with
    | sign c => exact ih (everyWord_sign.1 h)
    | word w =>
      obtain ⟨hw, hts⟩ := everyWord_word.1 h
      rw [List.cons_append, members?, ih hts]
      rintro s ts' heq -
      exact hw (Token.word.inj heq)

theorem members?_append {name : String} {ts : List Token} {members : List String}
    (h : members? name ts = some members) (us : List Token) :
    members? name (ts ++ us) = some members := by
  fun_induction members? name ts with
  | case1 ts hmem =>
    obtain ⟨inside, rest, rfl, hinside⟩ := List.eq_append_cons_of_mem hmem
    have htake (vs : List Token) : (inside ++ .sign '\x7d' :: vs).takeWhile (· ≠ .sign '\x7d') =
        inside := by
      rw [List.takeWhile_append_of_pos, List.takeWhile_cons_of_neg (by simp), List.append_nil]
      exact fun t ht => decide_eq_true fun heq => hinside (heq ▸ ht)
    rw [htake] at h
    rw [List.cons_append, List.cons_append, members?, if_pos rfl, List.append_assoc, List.cons_append,
      htake, if_pos (by simp)]
    exact h
  | case2 ts hmem => exact absurd h (Option.some_ne_none _).symm
  | case3 s ts hs ih =>
    rw [List.cons_append, List.cons_append, members?, if_neg hs]
    exact ih h
  | case4 t ts hne ih =>
    rw [List.cons_append, members?]
    · exact ih h
    · intro s ts' ht hts
      cases ts with
      | nil => exact absurd h (Option.some_ne_none _).symm
      | cons t' ts => exact hne s ts ht (by rw [(List.cons.inj hts).1])
  | case5 => exact absurd h (Option.some_ne_none _).symm

theorem not_struct_optionTokens (o : Options Word) : EveryWord (· ≠ "struct") (optionTokens o) := by
  have hdigit {w : String} {c : Char} {rest : List Char} (hw : w.toList = c :: rest)
      (hc : c.isDigit) : w ≠ "struct" := by
    rintro rfl
    cases hw
    exact absurd hc (by decide)
  have hnumber := everyWord_numberTokens hdigit (by decide) (by decide)
  have hcount (n : ℕ) : n.repr ≠ "struct" := by
    obtain ⟨c, digits, hdigits, hc⟩ := exists_digits n
    exact hdigit hdigits hc
  simp [optionTokens, constantTokens, hnumber, hcount]

theorem members?_moduleText {program : Program} {name : String} {members : List String}
    (h : members? name ((preludeLines.take 35).flatMap ofText) = some members) :
    members? name (ofText (moduleText program)) = some members := by
  have hprelude : preludeLines.flatMap ofText =
      (preludeLines.take 35).flatMap ofText ++ (preludeLines.drop 35).flatMap ofText := by
    rw [← List.flatMap_append, List.take_append_drop]
  rw [ofText_moduleText, List.append_assoc, List.append_assoc,
    members?_skip _ (not_struct_optionTokens _), hprelude, List.append_assoc]
  exact members?_append h _

theorem members?_material (program : Program) : members? "Material" (ofText (moduleText program)) =
    some ["transmittance", "smoothness", "refraction", "scatter", "color", "emissivity"] :=
  members?_moduleText (by decide +kernel)

theorem members?_frame (program : Program) : members? "Frame" (ofText (moduleText program)) =
    some ["eye", "look_at", "up_hint", "field_of_view", "aperture", "focal_factor", "air"] :=
  members?_moduleText (by decide +kernel)

/-! ## Values -/

/-- The values of expressions.  The members of a record stand in the order of its declaration. -/
inductive Value (S : Type) where
  | truth (b : Bool)
  | scalar (x : S)
  | pair (v : Vec2 S)
  | vector (v : Vec3 S)
  | record (name : String) (members : List (String × Value S))

def axis? (letter : String) : Option Axis := Axis.all.find? (·.letter.toString = letter)

namespace Value

variable {S : Type}

/-- A member of a record, or a lane of a vector. -/
def member (name : String) : Value S → Option (Value S)
  | vector v => (axis? name).map fun i => scalar (i.lane v)
  | record _ members => members.lookup name
  | _ => none

def negate [Neg S] : Value S → Option (Value S)
  | scalar x => some (scalar (-x))
  | vector v => some (vector (-v))
  | _ => none

/-- A material as a record. -/
def ofSurface (s : Surface S) : Value S :=
  record "Material" [("transmittance", scalar s.transmittance), ("smoothness", scalar s.smoothness),
    ("refraction", scalar s.refraction), ("scatter", scalar s.scatter), ("color", vector s.color),
    ("emissivity", vector s.emissivity)]

/-- The camera and the air as a record. -/
def ofFrame (f : Frame S) : Value S :=
  record "Frame" [("eye", vector f.eye), ("look_at", vector f.lookAt), ("up_hint", vector f.upHint),
    ("field_of_view", scalar f.fieldOfView), ("aperture", scalar f.aperture),
    ("focal_factor", scalar f.focalFactor), ("air", ofSurface f.air)]

/-- The inputs of a frame, as far as procedures read them. -/
def ofEnvironment (e : Environment S) : Value S :=
  record "Uniforms" [("mouse", pair e.mouse), ("time", scalar e.time)]

end Value

section
variable {S : Type} [Scalar S]

/-- What an operator of arithmetic does with two lanes. -/
def Operator.lanes? : Operator → Option (S → S → S)
  | .add => some (· + ·)
  | .sub => some (· - ·)
  | .mul => some (· * ·)
  | .div => some (· / ·)
  | .less => none
  | .equal => none

def Operator.meaning : Operator → Value S → Value S → Option (Value S)
  | .less, .scalar a, .scalar b => some (.truth (Scalar.lt a b))
  | f, .scalar a, .scalar b => f.lanes?.map fun g => .scalar (g a b)
  | f, .vector a, .vector b => f.lanes?.map fun g => .vector (a.zipWith g b)
  | _, _, _ => none

/-- What a function gives for its arguments. -/
def Builtin.meaning : Builtin → List (Value S) → Option (Value S)
  | .abs, [.vector a] => some (.vector a.abs)
  | .floor, [.vector a] => some (.vector a.floor)
  | .fract, [.vector a] => some (.vector (a - a.floor))
  | .sin, [.vector a] => some (.vector (a.map Scalar.sin))
  | .cos, [.vector a] => some (.vector (a.map Scalar.cos))
  | .asin, [.vector a] => some (.vector (a.map Scalar.asin))
  | .acos, [.vector a] => some (.vector (a.map Scalar.acos))
  | .exp, [.vector a] => some (.vector (a.map Scalar.exp))
  | .log, [.vector a] => some (.vector (a.map Scalar.log))
  | .sqrt, [.vector a] => some (.vector (a.map Scalar.sqrt))
  | .normalize, [.vector a] => some (.vector a.normalize)
  | .length, [.vector a] => some (.scalar a.length)
  | .min, [.vector a, .vector b] => some (.vector (a.min b))
  | .max, [.vector a, .vector b] => some (.vector (a.max b))
  | .dot, [.vector a, .vector b] => some (.scalar (a.dot b))
  | .cross, [.vector a, .vector b] => some (.vector (a.cross b))
  | .pow, [.vector a, .vector b] => some (.vector (a.zipWith Scalar.pow b))
  | .clamp, [.vector a, .vector low, .vector high] => some (.vector ((a.max low).min high))
  | .mix, [.vector a, .vector b, .vector t] => some (.vector (a * (.one - t) + b * t))
  | .select, [.vector otherwise, .vector below, .truth c] =>
    some (.vector (if c then below else otherwise))
  | .vec2, [.scalar x, .scalar y] => some (.pair ⟨x, y⟩)
  | .vec3, [.scalar x] => some (.vector (.splat x))
  | .vec3, [.scalar x, .scalar y, .scalar z] => some (.vector ⟨x, y, z⟩)
  | .vec3, [.pair v, .scalar z] => some (.vector (v.extend z))
  | .rotateAxis, [.vector p, .vector axis, .scalar angle] =>
    some (.vector (Intrinsic.rotate p axis angle))
  | .hashNoise, [.vector seed] => some (.scalar (Intrinsic.noise seed))
  | _, _ => none

def Callee.meaning : Callee → List (Value S) → Option (Value S)
  | .builtin f, arguments => f.meaning arguments
  | .generated (.mandelbulb n), [.vector p, .scalar power] =>
    some (.scalar (Intrinsic.mandelbulb p power n))
  | .generated (.fold n), [.vector p] => some (.vector (Intrinsic.foldPoint n.toNat p))
  | _, _ => none

end

/-! ## Names of functions -/

def knownBuiltins : List Builtin :=
  [.abs, .floor, .fract, .sin, .cos, .asin, .acos, .exp, .log, .sqrt, .normalize, .length, .min, .max,
    .dot, .cross, .pow, .clamp, .mix, .select, .vec2, .vec3, .rotateAxis, .hashNoise]

/-- The number behind the letters of a name. -/
def count? (letters name : String) : Option UInt32 :=
  let n := UInt32.ofNat (Decimal.ofDigits (name.toList.drop letters.toList.length))
  if letters ++ toString n.toNat = name then some n else none

/-- The function of a name. -/
def callee? (name : String) : Option Callee :=
  ((count? "mandelbulb_" name).map fun n => .generated (.mandelbulb n)) <|>
    ((count? "sierpinski_fold_" name).map fun n => .generated (.fold n)) <|>
      (knownBuiltins.find? (·.text = name)).map .builtin

/-- Whether a function is known by its name. -/
def Callee.known : Callee → Bool
  | .builtin f => f ∈ knownBuiltins
  | .generated (.mandelbulb _) => true
  | .generated (.fold _) => true
  | .generated _ => false

theorem count?_append (letters : String) (n : UInt32) :
    count? letters (letters ++ toString n.toNat) = some n := by
  have hdigits : Decimal.ofDigits
      ((letters ++ toString n.toNat).toList.drop letters.toList.length) = n.toNat := by
    rw [String.toList_append, List.drop_left]
    exact Decimal.ofDigits_digitChars n.toNat
  unfold count?
  rw [hdigits, UInt32.ofNat_toNat]
  exact if_pos rfl

theorem callee?_text {f : Callee} (h : f.known) : callee? f.text = some f := by
  unfold Callee.known at h
  split at h
  · next f =>
    rw [decide_eq_true_eq] at h
    revert f
    decide +kernel
  · next n =>
    change callee? ("mandelbulb_" ++ toString n.toNat) = _
    rw [callee?, count?_append]
    rfl
  · next n =>
    have hnone : count? "mandelbulb_" ("sierpinski_fold_" ++ toString n.toNat) = none := by
      unfold count?
      refine if_neg fun h => ?_
      have hchars := congrArg String.toList h
      simp at hchars
    change callee? ("sierpinski_fold_" ++ toString n.toNat) = _
    rw [callee?, hnone, count?_append]
    rfl
  · exact absurd h Bool.false_ne_true

/-! ## Expressions -/

section
variable {S : Type} [Scalar S]

/-- The value of a call, in a module that declares the given records. -/
def callValue (records : String → Option (List String)) (f : String) (arguments : List (Value S)) :
    Option (Value S) :=
  match callee? f with
  | some callee => callee.meaning arguments
  | none => (records f).bind fun members =>
    if members.length = arguments.length then some (.record f (members.zip arguments)) else none

namespace Phrase

variable (records : String → Option (List String)) (scope : String → Option (Value S))

mutual

/-- The value of an expression, given what names stand for. -/
def value : Phrase → Option (Value S)
  | number text => (Word.ofChars text.toList).toOption.map fun w => .scalar (Scalar.ofWord w)
  | name s => scope s
  | member a s => (value a).bind (Value.member s)
  | negated a => (value a).bind Value.negate
  | operation f a b => (value a).bind fun x => (value b).bind fun y => f.meaning x y
  | call f arguments => (values arguments).bind (callValue records f)

def values : List Phrase → Option (List (Value S))
  | [] => some []
  | a :: rest => (value a).bind fun x => (values rest).map (x :: ·)

end

end Phrase

end

/-! ## Procedures -/

section
variable {S : Type} [Scalar S]

/-- Evaluates lines from top to bottom. -/
def Sentence.run (records : String → Option (List String)) :
    List Sentence → (String → Option (Value S)) → Option (Value S)
  | [], _ => none
  | bind name a :: rest, scope => (a.value records scope).bind fun x =>
    run records rest (Function.update scope name (some x))
  | giveBack a :: _, scope => a.value records scope

/-- Calls a procedure: the parameters stand for the arguments, and what is not a parameter for what
the module declares. -/
def Procedure.call (p : Procedure) (records : String → Option (List String))
    (uniforms : Value S) (arguments : List (Value S)) : Option (Value S) :=
  if p.parameters.length = arguments.length then
    Sentence.run records p.sentences
      ((p.parameters.zip arguments ++ [("uniforms", uniforms)]).lookup ·)
  else none

/-- Calls a procedure of a source. -/
def callIn (source name : String) (environment : Environment S) (arguments : List (Value S)) :
    Option (Value S) :=
  (procedure? source name).bind fun p =>
    p.call (fun record => members? record (ofText source)) (.ofEnvironment environment) arguments

end

/-! ## Values of generated expressions -/

theorem eq_splat {α : Type} {v : Vec3 α} (hxy : v.x = v.y) (hyz : v.y = v.z) :
    v = .splat v.x := by
  obtain ⟨x, y, z⟩ := v
  obtain rfl : x = y := hxy
  obtain rfl : x = z := hyz
  rfl

section
variable {S : Type} [Scalar S] {records : String → Option (List String)}
  {scope : String → Option (Value S)}

theorem value_call {f : Callee} (hf : f.known) (arguments : List Code) :
    (Code.call f arguments).phrase.value records scope =
      (Phrase.values records scope (Code.phraseList arguments)).bind f.meaning := by
  have hcall (l : List (Value S)) : callValue records f.text l = f.meaning l := by
    rw [callValue, callee?_text hf]
  rw [Code.phrase, Phrase.value, funext hcall]

theorem value_builtin {f : Builtin} (hf : f ∈ knownBuiltins) (arguments : List Code) :
    (Code.builtin f arguments).phrase.value records scope =
      (Phrase.values records scope (Code.phraseList arguments)).bind f.meaning := by
  have hknown : (Callee.builtin f).known := decide_eq_true hf
  exact value_call hknown arguments

theorem axis?_letter (i : Axis) : axis? i.letter.toString = some i := by
  cases i <;> decide +kernel

theorem value_splat {a : Code} {x : S} (ha : a.phrase.value records scope = some (.scalar x)) :
    (Code.splat a).phrase.value records scope = some (.vector (.splat x)) := by
  rw [Code.splat, value_builtin (by decide), Code.phraseList, Code.phraseList, Phrase.values, ha]
  rfl

def varValue (b : Bindings S) : Var → Value S
  | .position => .vector b.position
  | .normal => .vector b.normal
  | .direction => .vector b.direction
  | .mouse => .ofEnvironment ⟨b.mouse, b.time⟩
  | .time => .ofEnvironment ⟨b.mouse, b.time⟩

end

section
variable {α : Type} {ident : α → Ident} {read : α → Vec3 Float32} {b : Bindings Float32}
  {records : String → Option (List String)} {scope : String → Option (Value Float32)}

theorem value_float {w : Word} (h : w.isFinite) :
    (Code.float w).phrase.value records scope = some (.scalar w.toFloat) := by
  have hnumeral : (Code.numeral w).value records scope =
      some (.scalar (⟨w.magnitude⟩ : Word).toFloat) := by
    rw [Code.numeral, Phrase.value, String.toList_ofList, Word.ofChars_unsignedChars h]
    rfl
  rw [Code.phrase]
  -- The sign is written as a negation, which turns the sign bit back.
  split
  · next hsign =>
    rw [Phrase.value, hnumeral, Word.toFloat_eq_neg h hsign]
    rfl
  · next hsign => rw [hnumeral, Word.magnitude_eq hsign]

theorem value_vector {v : Vec3 Word}
    (h : (v.x.isFinite && v.y.isFinite && v.z.isFinite) = true) :
    (Code.vector v).phrase.value records scope = some (.vector (v.map Scalar.ofWord)) := by
  rw [Bool.and_eq_true, Bool.and_eq_true] at h
  obtain ⟨⟨hx, hy⟩, hz⟩ := h
  unfold Code.vector
  split
  · next heq =>
    rw [value_splat (value_float hx), eq_splat heq.1 heq.2]
    rfl
  · rw [value_builtin (by decide)]
    simp only [Code.phraseList, Phrase.values, value_float hx, value_float hy, value_float hz]
    rfl

theorem value_varCode {v : Var} (h : scope (varName v) = some (varValue b v)) :
    (varCode v).phrase.value records scope = some (.vector (b.get v)) := by
  have hinput (field : String) : (Code.access (.named "uniforms") field).phrase.value records scope =
      (scope "uniforms").bind (Value.member field) := rfl
  cases v with
  | mouse =>
    rw [varName] at h
    rw [varCode, value_builtin (by decide), Code.phraseList, Code.phraseList, Code.phraseList,
      Phrase.values, Phrase.values, hinput, h, value_float (w := 0.0) (by decide +kernel)]
    rfl
  | time =>
    rw [varName] at h
    refine value_splat ?_
    rw [hinput, h]
    rfl
  | _ => exact h

theorem value_operation (f : Operator) (c d : Code) :
    (Code.operation f c d).phrase.value records scope = (c.phrase.value records scope).bind fun x =>
      (d.phrase.value records scope).bind fun y => f.meaning x y := rfl

theorem value_unaryCode (f : Unary) {c : Code} {x : Vec3 Float32}
    (hc : c.phrase.value records scope = some (.vector x)) :
    (unaryCode f c).phrase.value records scope = some (.vector (f.eval x)) := by
  cases f with
  | neg =>
    rw [unaryCode, Code.phrase, Phrase.value, hc]
    rfl
  | length =>
    refine value_splat ?_
    rw [value_builtin (by decide), Code.phraseList, Code.phraseList, Phrase.values, hc]
    rfl
  | _ =>
    rw [unaryCode, value_builtin (by decide), Code.phraseList, Code.phraseList, Phrase.values, hc]
    rfl

theorem value_binaryCode (f : Binary) {c d : Code} {x y : Vec3 Float32}
    (hc : c.phrase.value records scope = some (.vector x))
    (hd : d.phrase.value records scope = some (.vector y)) :
    (binaryCode f c d).phrase.value records scope = some (.vector (f.eval x y)) := by
  cases f with
  | add | sub | mul | div =>
    rw [binaryCode, value_operation, hc, hd]
    rfl
  | mod =>
    rw [binaryCode, value_operation, value_operation, value_builtin (by decide), Code.phraseList,
      Code.phraseList, Phrase.values, value_operation, hc, hd]
    rfl
  | dot =>
    refine value_splat ?_
    rw [value_builtin (by decide), Code.phraseList, Code.phraseList, Code.phraseList, Phrase.values,
      Phrase.values, hc, hd]
    rfl
  | _ =>
    rw [binaryCode, value_builtin (by decide), Code.phraseList, Code.phraseList, Code.phraseList,
      Phrase.values, Phrase.values, hc, hd]
    rfl

theorem value_opCode {op : Op Word α} (hop : op.Finite)
    (hread : ∀ a ∈ op.operands, scope (ident a).text = some (.vector (read a)))
    (hvar : ∀ v, op.var? = some v → scope (varName v) = some (varValue b v)) :
    (opCode (fun a => .name (ident a)) op).phrase.value records scope =
      some (.vector (op.eval Scalar.ofWord read b)) := by
  have hname : ∀ a ∈ op.operands,
      (Code.name (ident a)).phrase.value records scope = some (.vector (read a)) := hread
  have hlane : ∀ a ∈ op.operands, ∀ i : Axis,
      (Code.access (.name (ident a)) i.letter.toString).phrase.value records scope =
        some (.scalar (i.lane (read a))) := by
    intro a ha i
    rw [Code.phrase, Phrase.value, hname a ha, Option.bind_some, Value.member, axis?_letter]
    rfl
  have hfirst : ∀ a ∈ op.operands,
      (Code.name (ident a)).first.phrase.value records scope = some (.scalar (read a).x) :=
    fun a ha => hlane a ha .x
  cases op with
  | var v => exact value_varCode (hvar v rfl)
  | constant c => exact value_vector (hop c rfl)
  | unary f a => exact value_unaryCode f (hname a List.mem_cons_self)
  | binary f a c =>
    exact value_binaryCode f (hname a List.mem_cons_self)
      (hname c (List.mem_cons_of_mem _ List.mem_cons_self))
  | component a i => exact value_splat (hlane a List.mem_cons_self i)
  | random seed =>
    refine value_splat ?_
    rw [value_builtin (by decide), Code.phraseList, Code.phraseList, Phrase.values,
      hname seed List.mem_cons_self]
    rfl
  | mandelbulb point power n =>
    refine value_splat ?_
    rw [value_call rfl, Code.phraseList, Code.phraseList, Code.phraseList, Phrase.values,
      Phrase.values, hname point List.mem_cons_self,
      hfirst power (List.mem_cons_of_mem _ List.mem_cons_self)]
    rfl
  | fold point n =>
    rw [opCode, value_call rfl, Code.phraseList, Code.phraseList, Phrase.values,
      hname point List.mem_cons_self]
    rfl
  | _ =>
    simp only [Op.operands, List.forall_mem_cons] at hname hfirst
    simp (disch := decide) only [opCode, value_builtin, value_operation, Code.phraseList,
      Phrase.values, hname, hfirst]
    rfl

end

end SphereTracer.Shader
