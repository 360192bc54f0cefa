import SphereTracer.Proofs.Shader.Meaning
import SphereTracer.Proofs.Shader.Routine

/-!
# Functions with a loop

The helpers of a module bind names, run a loop that is counted by a variable of its own, and give back
a value.  They are read from the text of the module, and every round of the loop changes what names
stand for.  Their expressions join numbers with vectors, which those of procedures never do.
-/

namespace SphereTracer.Shader

open Token

/-! ## Reading -/

/-- A statement of a helper. -/
inductive Clause where
  /-- Declares what a name stands for. -/
  | bind (name : String) (value : Phrase)
  | giveBack (value : Phrase)
  /-- Changes what names stand for, in that order, in each of some rounds. -/
  | loop (counter : String) (rounds : ℕ) (changes : List (String × Phrase))

namespace Clause

/-- Reads the tokens before a semicolon outside of the loop. -/
def ofTokens : List Token → Option Clause
  | .word "return" :: ts => (Phrase.ofTokens ts).map .giveBack
  | .word "let" :: .word name :: .sign '=' :: ts => (Phrase.ofTokens ts).map (.bind name)
  | .word "var" :: .word name :: .sign '=' :: ts => (Phrase.ofTokens ts).map (.bind name)
  | _ => none

/-- Reads the tokens before a semicolon within the loop. -/
def changeOf : List Token → Option (String × Phrase)
  | .word name :: .sign '=' :: ts => (Phrase.ofTokens ts).map (name, ·)
  | _ => none

/-- The count that a literal of type `u32` stands for. -/
def count? (literal : String) : Option ℕ :=
  let n := Decimal.ofDigits literal.toList.dropLast
  if toString n ++ "u" = literal ∧ n < 2 ^ 32 then some n else none

/-- Reads the tokens before the brace that opens the loop: its counter goes up from zero, by one in
each round, as long as it is below a count. -/
def headerOf : List Token → Option (String × ℕ)
  | [.word "for", .sign '(', .word "var", .word i, .sign '=', .word "0u", .sign ';', .word j, .sign '<',
      .word bound, .sign ';', .word k, .sign '+', .sign '+', .sign ')'] =>
    if j = i ∧ k = i then (count? bound).map (i, ·) else none
  | _ => none

/-- A loop that is open: its header, and the changes that have been read. -/
structure Open where
  counter : String
  rounds : ℕ
  changes : List (String × Phrase)

/-- Reads clauses up to the brace that closes them, given those before, the loop that is open, if one
is, and what has been read of the next statement.  The semicolons of a header end no statement. -/
def readFrom (done : List Clause) (inside : Option Open) (current : List Token) :
    List Token → Option (List Clause)
  | [] => none
  | t :: ts =>
    if t = .sign ';' ∧ current.head? ≠ some (.word "for") then
      match inside with
      | none => (ofTokens current).bind fun c => readFrom (done ++ [c]) none [] ts
      | some l => (changeOf current).bind fun a =>
        readFrom done (some { l with changes := l.changes ++ [a] }) [] ts
    else if t = .sign '\x7b' then
      if inside.isSome then none
      else (headerOf current).bind fun (i, n) => readFrom done (some ⟨i, n, []⟩) [] ts
    else if t = .sign '\x7d' then
      if current.isEmpty then
        match inside with
        | none => some done
        | some l => readFrom (done ++ [.loop l.counter l.rounds l.changes]) none [] ts
      else none
    else readFrom done inside (current ++ [t]) ts

end Clause

structure Helper where
  parameters : List String
  clauses : List Clause

/-- Reads what comes behind the name of a function: parameters in parentheses, and clauses in
braces. -/
def Helper.ofTokens (ts : List Token) : Option Helper :=
  (Clause.readFrom [] none [] ((ts.dropWhile (· ≠ .sign '\x7b')).drop 1)).map
    (⟨Procedure.parametersOf (ts.takeWhile (· ≠ .sign ')')), ·⟩)

/-- The helper of a name, where the source first defines it. -/
def helper? (source name : String) : Option Helper :=
  (behind? name false (ofText source)).bind Helper.ofTokens

/-! ## Running -/

section
variable {S : Type} [Scalar S]

/-- Beside a vector a number stands for a vector of equal lanes. -/
def Operator.mixed : Operator → Value S → Value S → Option (Value S)
  | f, .scalar a, .vector b => f.meaning (.vector (.splat a)) (.vector b)
  | f, .vector a, .scalar b => f.meaning (.vector a) (.vector (.splat b))
  | f, a, b => f.meaning a b

/-- What a function gives for its arguments; there are minima and maxima of numbers, too. -/
def Builtin.mixed : Builtin → List (Value S) → Option (Value S)
  | .min, [.scalar a, .scalar b] => some (.scalar (Scalar.min a b))
  | .max, [.scalar a, .scalar b] => some (.scalar (Scalar.max a b))
  | f, l => f.meaning l

/-- What names stand for. -/
abbrev Names (S : Type) := String → Option (Value S)

namespace Phrase

variable (names : Names S)

mutual

/-- The value of an expression of a helper. -/
def mixed : Phrase → Option (Value S)
  | number text => (Word.ofChars text.toList).toOption.map fun w => .scalar (Scalar.ofWord w)
  | name s => names s
  | member a s => (mixed a).bind (Value.member s)
  | negated a => (mixed a).bind Value.negate
  | operation f a b => (mixed a).bind fun x => (mixed b).bind fun y => f.mixed x y
  | call f arguments => (mixedList arguments).bind fun l =>
    match callee? f with
    | some (.builtin g) => g.mixed l
    | _ => none

def mixedList : List Phrase → Option (List (Value S))
  | [] => some []
  | a :: rest => (mixed a).bind fun x => (mixedList rest).map (x :: ·)

end

end Phrase

namespace Clause

/-- Changes what a name stands for, if it stands for something. -/
def change (names : Names S) : String × Phrase → Option (Names S)
  | (name, a) => (names name).bind fun _ =>
    (a.mixed names).map fun x => Function.update names name (some x)

/-- Goes through the changes of a loop again and again. -/
def repeated (changes : List (String × Phrase)) : ℕ → Names S → Option (Names S)
  | 0, names => some names
  | n + 1, names => (changes.foldlM change names).bind (repeated changes n)

/-- Runs clauses from top to bottom.  Nothing within a loop may use its counter, and behind the loop
the name stands for what it did before. -/
def run : List Clause → Names S → Option (Value S)
  | [], _ => none
  | bind name a :: rest, names =>
    (a.mixed names).bind fun x => run rest (Function.update names name (some x))
  | giveBack a :: _, names => a.mixed names
  | loop counter rounds changes :: rest, names =>
    (repeated changes rounds (Function.update names counter none)).bind fun names' =>
      run rest (Function.update names' counter (names counter))

end Clause

/-- Calls a helper of a source. -/
def helperIn (source name : String) (arguments : List (Value S)) : Option (Value S) :=
  (helper? source name).bind fun h =>
    if h.parameters.length = arguments.length then
      Clause.run h.clauses ((h.parameters.zip arguments).lookup ·)
    else none

theorem Clause.exists_repeated {changes : List (String × Phrase)} {P : ℕ → Names S → Prop}
    (hround : ∀ i names, P i names → ∃ names', changes.foldlM change names = some names' ∧
      P (i + 1) names') (n : ℕ) {i : ℕ} {names : Names S} (h : P i names) :
    ∃ names', repeated changes n names = some names' ∧ P (i + n) names' := by
  -- The invariant goes up by one with each round that is taken off.
  induction n generalizing i names with
  | zero => exact ⟨names, rfl, h⟩
  | succ n ih =>
    obtain ⟨names', hchanges, h'⟩ := hround i names h
    obtain ⟨names'', hrest, h''⟩ := ih h'
    rw [repeated, hchanges, Option.bind_some]
    exact ⟨names'', hrest, by rwa [Nat.add_right_comm, Nat.add_assoc] at h''⟩

end

/-! ## Generated statements -/

namespace Clause

open Instruction (Inline inline_code)

variable {done : List Clause} {inside : Option Open} {ts rest : List Token}

theorem readFrom_inline (h : Inline ts) (current : List Token) :
    readFrom done inside current (ts ++ rest) = readFrom done inside (current ++ ts) rest := by
  induction ts generalizing current with
  | nil => rw [List.nil_append, List.append_nil]
  | cons t ts ih =>
    have hsign {x : Char} (hx : x ∉ '=' :: codeSigns) : t ≠ .sign x := fun heq =>
      hx (h x (heq ▸ List.mem_cons_self))
    rw [List.cons_append, readFrom.eq_def]
    dsimp only
    rw [if_neg fun ht => hsign (by decide) ht.1, if_neg (hsign (by decide)),
      if_neg (hsign (by decide)), ih fun x hx => h x (List.mem_cons_of_mem _ hx), List.append_assoc]
    rfl

theorem readFrom_clause (h : Inline ts) (hfor : ts.head? ≠ some (.word "for")) {c : Clause}
    (hc : ofTokens ts = some c) :
    readFrom done none [] (ts ++ .sign ';' :: rest) = readFrom (done ++ [c]) none [] rest := by
  rw [readFrom_inline h, List.nil_append, readFrom.eq_def]
  dsimp only
  rw [if_pos ⟨rfl, hfor⟩, hc, Option.bind_some]

theorem readFrom_change (h : Inline ts) (hfor : ts.head? ≠ some (.word "for"))
    {a : String × Phrase} (ha : changeOf ts = some a) {l : Open} :
    readFrom done (some l) [] (ts ++ .sign ';' :: rest) =
      readFrom done (some { l with changes := l.changes ++ [a] }) [] rest := by
  rw [readFrom_inline h, List.nil_append, readFrom.eq_def]
  dsimp only
  rw [if_pos ⟨rfl, hfor⟩, ha, Option.bind_some]

theorem readFrom_bind {name : Ident} {value : Code} (h : value.grouped) :
    readFrom done none [] ((Statement.bind name value).tokens ++ rest) =
      readFrom (done ++ [.bind name.text value.phrase]) none [] rest := by
  have hinline : Inline (.word "let" :: .word name.text :: .sign '=' :: value.tokens) := by
    have hfront : Inline [.word "let", .word name.text, .sign '='] := by simp [Inline]
    exact hfront.append (inline_code h)
  have hreads : ofTokens (.word "let" :: .word name.text :: .sign '=' :: value.tokens) =
      some (.bind name.text value.phrase) := by
    rw [ofTokens, Phrase.ofTokens_code h]
    rfl
  rw [Statement.tokens, List.append_assoc]
  exact readFrom_clause hinline (by simp) hreads

theorem readFrom_assign {name before : String} (hname : name ≠ "for")
    (hbefore : ofText before = [.word name, .sign '=']) {value : Code} (h : value.grouped) {l : Open} :
    readFrom done (some l) [] ((Statement.part before value ";").tokens ++ rest) =
      readFrom done (some { l with changes := l.changes ++ [(name, value.phrase)] }) [] rest := by
  have hafter : ofText ";" = [.sign ';'] := by decide
  have hinline : Inline (.word name :: .sign '=' :: value.tokens) := by
    have hfront : Inline [.word name, .sign '='] := by simp [Inline]
    exact hfront.append (inline_code h)
  have hreads : changeOf (.word name :: .sign '=' :: value.tokens) = some (name, value.phrase) := by
    rw [changeOf, Phrase.ofTokens_code h]
    rfl
  rw [Statement.tokens, hbefore, hafter, List.append_assoc]
  exact readFrom_change hinline (by simp [hname]) hreads

theorem count?_toString (n : UInt32) : count? (toString n.toNat ++ "u") = some n.toNat := by
  have hdigits : Decimal.ofDigits (toString n.toNat ++ "u").toList.dropLast = n.toNat := by
    rw [String.toList_append]
    show Decimal.ofDigits ((toString n.toNat).toList ++ ['u']).dropLast = n.toNat
    rw [List.dropLast_concat]
    exact Decimal.ofDigits_digitChars n.toNat
  unfold count?
  rw [hdigits]
  exact if_pos ⟨rfl, n.toNat_lt⟩

theorem readFrom_header (n : UInt32) :
    readFrom done none []
        (ofText ("for (var i = 0u; i < " ++ toString n.toNat ++ "u; i++) \x7b") ++ rest) =
      readFrom done (some ⟨"i", n.toNat, []⟩) [] rest := by
  have hbefore : ofText "for (var i = 0u; i < " = [.word "for", .sign '(', .word "var", .word "i",
      .sign '=', .word "0u", .sign ';', .word "i", .sign '<'] := by decide
  have hafter : ofText "; i++) \x7b" =
      [.sign ';', .word "i", .sign '+', .sign '+', .sign ')', .sign '\x7b'] := by decide
  let header : List Token := [.word "for", .sign '(', .word "var", .word "i", .sign '=', .word "0u",
    .sign ';', .word "i", .sign '<', .word (toString n.toNat ++ "u"), .sign ';', .word "i",
    .sign '+', .sign '+', .sign ')']
  have hheader : headerOf header = some ("i", n.toNat) := by
    rw [headerOf, if_pos ⟨rfl, rfl⟩, count?_toString]
    rfl
  rw [ofText_loop, hbefore, hafter]
  show (headerOf header).bind (fun (i, n) => readFrom done (some ⟨i, n, []⟩) [] rest) = _
  rw [hheader]
  rfl

theorem readFrom_close (l : Open) : readFrom done (some l) [] (.sign '\x7d' :: rest) =
    readFrom (done ++ [.loop l.counter l.rounds l.changes]) none [] rest := rfl

end Clause

/-! ## Values of generated expressions -/

section
variable {S : Type} [Scalar S] {names : Names S}

theorem mixed_operation (f : Operator) (a b : Code) : (Code.operation f a b).phrase.mixed names =
    (a.phrase.mixed names).bind fun x => (b.phrase.mixed names).bind fun y => f.mixed x y := rfl

theorem mixed_builtin {f : Builtin} (hf : f ∈ knownBuiltins) (arguments : List Code) :
    (Code.builtin f arguments).phrase.mixed names =
      (Phrase.mixedList names (Code.phraseList arguments)).bind f.mixed := by
  have hname : callee? (Callee.builtin f).text = some (.builtin f) := callee?_text (decide_eq_true hf)
  rw [Code.builtin, Code.phrase, Phrase.mixed, hname]

theorem mixed_float {w : Word} (h : w.isFinite) (hsign : ¬ w.isNegative) :
    (Code.float w).phrase.mixed names = some (.scalar (Scalar.ofWord w)) := by
  rw [Code.phrase, if_neg hsign, Code.numeral, Phrase.mixed, String.toList_ofList,
    Word.ofChars_unsignedChars h, Word.magnitude_eq hsign]
  rfl

theorem mixed_vector {v : Vec3 Word}
    (h : ∀ axis : Axis, (axis.lane v).isFinite ∧ ¬ (axis.lane v).isNegative) :
    (Code.vector v).phrase.mixed names = some (.vector (.ofWords v)) := by
  have hx : (Code.float v.x).phrase.mixed names = some (.scalar (Scalar.ofWord v.x)) :=
    mixed_float (h .x).1 (h .x).2
  have hy : (Code.float v.y).phrase.mixed names = some (.scalar (Scalar.ofWord v.y)) :=
    mixed_float (h .y).1 (h .y).2
  have hz : (Code.float v.z).phrase.mixed names = some (.scalar (Scalar.ofWord v.z)) :=
    mixed_float (h .z).1 (h .z).2
  unfold Code.vector
  split
  · next heq =>
    rw [Code.splat, mixed_builtin (by decide), Code.phraseList, Code.phraseList, Phrase.mixedList, hx,
      eq_splat heq.1 heq.2]
    rfl
  · rw [mixed_builtin (by decide)]
    simp only [Code.phraseList, Phrase.mixedList, hx, hy, hz]
    rfl

end

end SphereTracer.Shader
