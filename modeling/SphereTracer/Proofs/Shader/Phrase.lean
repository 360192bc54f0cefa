import SphereTracer.Proofs.Program.Checked
import SphereTracer.Proofs.Shader.Lexed

/-!
# Reading expressions

Expressions as a reader of the language understands their tokens: products before sums before
comparisons, from left to right.  The reader takes one token at a time and keeps what is still open.
Expressions are generated without parentheses, and are read back as what they were meant to be.
-/

namespace SphereTracer.Shader

/-- An expression as it is read; numbers and names are kept as they are written. -/
inductive Phrase where
  | number (text : String)
  | name (text : String)
  | member (a : Phrase) (field : String)
  | negated (a : Phrase)
  | operation (f : Operator) (a b : Phrase)
  | call (callee : String) (arguments : List Phrase)

/-- How strongly an operator binds. -/
def Operator.strength : Operator → ℕ
  | .less => 1
  | .equal => 1
  | .add => 2
  | .sub => 2
  | .mul => 3
  | .div => 3

/-- The operator that a sign stands for. -/
def Operator.ofSign? : Char → Option Operator
  | '+' => some .add
  | '-' => some .sub
  | '*' => some .mul
  | '/' => some .div
  | '<' => some .less
  | _ => none

namespace Phrase

/-- What is open on the left of a place within an expression. -/
inductive Pending where
  | negation
  /-- An operator and its left operand. -/
  | left (f : Operator) (a : Phrase)
  /-- A call, and the arguments that are complete. -/
  | arguments (callee : String) (done : List Phrase)
  /-- A value of which a member is selected. -/
  | point (a : Phrase)

/-- A place within an expression: what is open, innermost first, and the operand that has just been
read, if any. -/
structure Place where
  pending : List Pending
  operand : Option Phrase

/-- Completes what binds an operand on its left at least as strongly as a given operator would on its
right. -/
def settle (strength : ℕ) : List Pending → Phrase → List Pending × Phrase
  | .negation :: pending, a => settle strength pending (.negated a)
  | .left f b :: pending, a =>
    if strength ≤ f.strength then settle strength pending (.operation f b a)
    else (.left f b :: pending, a)
  | pending, a => (pending, a)

/-- A word that stands for a value. -/
def ofWord (w : String) : Phrase := if w.toList.head?.any Char.isDigit then .number w else .name w

/-- Reads a token where an operand is expected. -/
def begin (pending : List Pending) : Token → Option Place
  | .word w =>
    match pending with
    | .point a :: pending => some ⟨pending, some (.member a w)⟩
    | _ => some ⟨pending, some (ofWord w)⟩
  | .sign c => if c = '-' then some ⟨.negation :: pending, none⟩ else none

/-- Opens the arguments of a function. -/
def callOf (pending : List Pending) : Phrase → Option Place
  | .name f => some ⟨.arguments f [] :: pending, none⟩
  | _ => none

/-- Completes an argument, and after the last one the call. -/
def argument (last : Bool) : List Pending × Phrase → Option Place
  | (.arguments f done :: pending, a) =>
    if last then some ⟨pending, some (.call f (done ++ [a]))⟩
    else some ⟨.arguments f (done ++ [a]) :: pending, none⟩
  | _ => none

/-- Reads a token behind an operand. -/
def goOn (pending : List Pending) (a : Phrase) : Token → Option Place
  | .word _ => none
  | .sign c =>
    if c = '(' then callOf pending a
    else if c = '.' then some ⟨.point a :: pending, none⟩
    else if c = ',' then argument false (settle 1 pending a)
    else if c = ')' then argument true (settle 1 pending a)
    else (Operator.ofSign? c).map fun f =>
      let settled := settle f.strength pending a
      ⟨.left f settled.2 :: settled.1, none⟩

/-- Reads one token. -/
def Place.step (place : Place) (t : Token) : Option Place :=
  match place.operand with
  | none => begin place.pending t
  | some a => goOn place.pending a t

/-- The expression that is complete at a place, if nothing stays open. -/
def Place.finish (place : Place) : Option Phrase :=
  match place.operand with
  | none => none
  | some a =>
    match settle 1 place.pending a with
    | ([], a) => some a
    | _ => none

/-- Reads the tokens of an expression. -/
def ofTokens (ts : List Token) : Option Phrase := (ts.foldlM Place.step ⟨[], none⟩).bind Place.finish

end Phrase

/-! ## What generated expressions mean -/

namespace Code

/-- The numeral of a number without its sign. -/
def numeral (w : Word) : Phrase :=
  .number (String.ofList (Decimal.unsignedChars w.magnitude.toNat))

mutual

def phrase : Code → Phrase
  | name ident => .name ident.text
  | float w => if w.isNegative then .negated (numeral w) else numeral w
  | int n => .number (toString n.toNat)
  | access a member => .member (phrase a) member
  | neg a => .negated (phrase a)
  | operation f a b => .operation f (phrase a) (phrase b)
  | call f arguments => .call f.text (phraseList arguments)

def phraseList : List Code → List Phrase
  | [] => []
  | a :: rest => phrase a :: phraseList rest

end

/-- How strongly an expression holds together. -/
def strength : Code → ℕ
  | float w => if w.isNegative then 4 else 5
  | neg _ => 4
  | operation f _ _ => f.strength
  | _ => 5

mutual

/-- Whether operands hold together strongly enough for what is around them, and numbers are finite. -/
def grouped : Code → Bool
  | name ident => Token.isName ident.text
  | float w => w.isFinite
  | int _ => true
  | access (name ident) _ => Token.isName ident.text
  | access _ _ => false
  | neg a => grouped a && strength a = 5
  | operation f a b =>
    grouped a && grouped b && f ≠ .equal && f.strength ≤ strength a && f.strength < strength b
  | call _ arguments => !arguments.isEmpty && groupedList arguments

def groupedList : List Code → Bool
  | [] => true
  | a :: rest => grouped a && groupedList rest

end

end Code

namespace Phrase

/-- Whether what is open on the left binds an operand less strongly than the operand holds
together. -/
def Opens (strength : ℕ) : List Pending → Prop
  | [] => True
  | .negation :: _ => 4 < strength
  | .left f _ :: _ => f.strength < strength
  | .arguments _ _ :: _ => True
  | .point _ :: _ => False

theorem Opens.mono {s s' : ℕ} (hle : s ≤ s') {pending : List Pending} (h : Opens s pending) :
    Opens s' pending := by
  unfold Opens at *
  split at h
  · trivial
  · exact Nat.lt_of_lt_of_le h hle
  · exact Nat.lt_of_lt_of_le h hle
  · trivial
  · exact h

theorem settle_eq_of_opens {f : Operator} {pending : List Pending} (h : Opens f.strength pending)
    (a : Phrase) : settle f.strength pending a = (pending, a) := by
  unfold Opens at h
  split at h
  · rfl
  · exact absurd h (by cases f <;> decide)
  · rw [settle, if_neg (by omega)]
  · rfl
  · exact absurd h id

theorem step_word {strength : ℕ} {pending : List Pending} (h : Opens strength pending) (w : String) :
    Place.step ⟨pending, none⟩ (.word w) = some ⟨pending, some (ofWord w)⟩ := by
  unfold Opens at h
  split at h <;> first | rfl | exact absurd h id

theorem ofWord_name {s : String} (h : Token.isName s) : ofWord s = .name s := by
  rw [Token.isName, Bool.and_eq_true] at h
  obtain ⟨-, h⟩ := h
  split at h
  · exact absurd h (by decide)
  · next c rest heq =>
    rw [Bool.and_eq_true, Bool.not_eq_true'] at h
    simp [ofWord, heq, h.1]

theorem ofWord_callee (f : Callee) : ofWord f.text = .name f.text := by
  cases f with
  | generated f => exact ofWord_name (isName_functionName f)
  | builtin f => cases f <;> rfl

theorem ofWord_of_isDigit {cs : List Char} (hne : cs ≠ []) (h : ∀ c ∈ cs.head?, c.isDigit) :
    ofWord (String.ofList cs) = .number (String.ofList cs) := by
  obtain ⟨c, rest, rfl⟩ := List.exists_cons_of_ne_nil hne
  have hc : c.isDigit := h c rfl
  simp [ofWord, hc]

theorem ofWord_numeral {w : Word} (h : w.isFinite) :
    ofWord (String.ofList (Decimal.unsignedChars w.magnitude.toNat)) = Code.numeral w := by
  obtain ⟨d, hd, -⟩ := Decimal.numeral_unsignedChars (Word.magnitude_lt h)
  obtain ⟨c, rest, hcs, hc⟩ := hd.exists_cons
  exact ofWord_of_isDigit (by simp [hcs]) (by simp [hcs, hc])

theorem ofWord_natural (n : ℕ) : ofWord (toString n) = .number (toString n) := by
  have hword := ofWord_of_isDigit (Decimal.digitChars_ne_nil n)
    fun c hc => Decimal.isDigit_of_mem_digitChars c (List.mem_of_mem_head? hc)
  rwa [Decimal.digitChars, String.ofList_toList] at hword

theorem one_le_operator (f : Operator) : 1 ≤ f.strength := by
  cases f <;> decide

theorem one_le_strength (c : Code) : 1 ≤ c.strength := by
  unfold Code.strength
  split
  · split <;> decide
  · decide
  · exact one_le_operator _
  · decide

/-- Once an operand has been read, completing it amounts to completing the whole expression. -/
def ReadsTo (pending : List Pending) (ts : List Token) (strength : ℕ) (a : Phrase) : Prop :=
  ∃ pending' a', ts.foldlM Place.step ⟨pending, none⟩ = some ⟨pending', some a'⟩ ∧
    ∀ s ≤ strength, settle s pending' a' = settle s pending a

theorem readsTo_word {strength : ℕ} {pending : List Pending} (h : Opens strength pending)
    {w : String} {a : Phrase} (hw : ofWord w = a) : ReadsTo pending [.word w] strength a := by
  refine ⟨pending, a, ?_, fun _ _ => rfl⟩
  rw [List.foldlM_cons, step_word h, hw]
  rfl

theorem readsTo_number {w : Word} (h : w.isFinite) {pending : List Pending}
    (hopens : Opens (Code.strength (.float w)) pending) :
    ReadsTo pending (numberTokens w) (Code.strength (.float w)) (Code.phrase (.float w)) := by
  rw [numberTokens, if_pos h, Code.phrase]
  rw [Code.strength] at hopens ⊢
  generalize w.isNegative = negative at hopens ⊢
  cases negative with
  | false => exact readsTo_word hopens (ofWord_numeral h)
  | true =>
    have hopens' : Opens 5 (.negation :: pending) := Nat.lt_succ_self 4
    obtain ⟨pending', a', hreads, hsettle⟩ := readsTo_word hopens' (ofWord_numeral h)
    exact ⟨pending', a', hreads, fun s hs => hsettle s (Nat.le_succ_of_le hs)⟩

/-- The sign of an operator completes its left operand. -/
theorem foldlM_operator {f : Operator} (hf : f ≠ .equal) {pending : List Pending} {a : Phrase} :
    f.tokens.foldlM Place.step ⟨pending, some a⟩ =
      some ⟨.left f (settle f.strength pending a).2 :: (settle f.strength pending a).1, none⟩ := by
  cases f with
  | equal => exact absurd rfl hf
  | _ => rfl

mutual

theorem readsTo_code : ∀ {c : Code}, c.grouped → ∀ {pending : List Pending},
    Opens c.strength pending → ReadsTo pending c.tokens c.strength c.phrase
  | .name ident, h, pending, hopens => by
    rw [Code.grouped] at h
    exact readsTo_word hopens (ofWord_name h)
  | .float w, h, pending, hopens => by
    rw [Code.grouped] at h
    exact readsTo_number h hopens
  | .int n, _, pending, hopens => readsTo_word hopens (ofWord_natural n.toNat)
  | .access (.name ident) field, h, pending, hopens => by
    rw [Code.grouped] at h
    refine ⟨pending, .member (.name ident.text) field, ?_, fun _ _ => rfl⟩
    simp only [Code.tokens, List.singleton_append, List.foldlM_cons, step_word hopens, ofWord_name h]
    rfl
  | .neg a, h, pending, hopens => by
    rw [Code.grouped, Bool.and_eq_true, decide_eq_true_eq] at h
    obtain ⟨ha, hstrength⟩ := h
    have hopens' : Opens a.strength (.negation :: pending) := by
      rw [hstrength]
      exact Nat.lt_succ_self 4
    obtain ⟨pending', a', hreads, hsettle⟩ := readsTo_code ha hopens'
    refine ⟨pending', a', ?_, fun s hs => ?_⟩
    · rw [Code.tokens, List.foldlM_cons]
      exact hreads
    · rw [hsettle s (by rw [hstrength]; exact Nat.le_succ_of_le hs)]
      rfl
  | .operation f a b, h, pending, hopens => by
    simp only [Code.grouped, Bool.and_eq_true, decide_eq_true_eq] at h
    obtain ⟨⟨⟨⟨ha, hb⟩, hf⟩, hleft⟩, hright⟩ := h
    -- What is open on the left binds less strongly than the operator, so only the operand is
    -- settled.
    have hfree : settle f.strength pending a.phrase = (pending, a.phrase) :=
      settle_eq_of_opens hopens _
    obtain ⟨pending', a', hreads, hsettle⟩ := readsTo_code ha (hopens.mono hleft)
    obtain ⟨pending'', b', hreads', hsettle'⟩ :=
      readsTo_code hb (show Opens b.strength (.left f a.phrase :: pending) from hright)
    refine ⟨pending'', b', ?_, fun s hs => ?_⟩
    · rw [Code.tokens, List.foldlM_append, List.foldlM_append, hreads]
      simp only [Option.bind_eq_bind, Option.bind_some]
      rw [foldlM_operator hf, hsettle _ hleft, hfree]
      exact hreads'
    · have hle : s ≤ f.strength := hs
      rw [hsettle' s (hle.trans hright.le), settle, if_pos hle]
      rfl
  | .call f arguments, h, pending, hopens => by
    simp only [Code.grouped, Bool.and_eq_true, Bool.not_eq_true', List.isEmpty_eq_false_iff] at h
    obtain ⟨hne, harguments⟩ := h
    obtain ⟨pending', a', init, last, hreads, hlist, hsettle⟩ :=
      readsTo_codeList harguments hne f.text [] pending
    refine ⟨pending, .call f.text (Code.phraseList arguments), ?_, fun _ _ => rfl⟩
    rw [Code.tokens, List.cons_append, List.foldlM_cons, step_word hopens, ofWord_callee]
    change List.foldlM Place.step ⟨.arguments f.text [] :: pending, none⟩
      (Code.tokensList arguments ++ [.sign ')']) = _
    rw [List.foldlM_append, hreads]
    change (argument true (settle 1 pending' a')).bind some = _
    rw [hsettle, hlist]
    rfl

theorem readsTo_codeList : ∀ {l : List Code}, Code.groupedList l → l ≠ [] →
    ∀ (f : String) (done : List Phrase) (pending : List Pending),
    ∃ pending' a' init last, (Code.tokensList l).foldlM Place.step ⟨.arguments f done :: pending, none⟩ =
      some ⟨pending', some a'⟩ ∧ Code.phraseList l = init ++ [last] ∧
      settle 1 pending' a' = (.arguments f (done ++ init) :: pending, last)
  | [], _, hne, _, _, _ => absurd rfl hne
  | [a], h, _, f, done, pending => by
    rw [Code.groupedList, Bool.and_eq_true] at h
    obtain ⟨pending', a', hreads, hsettle⟩ :=
      readsTo_code h.1 (show Opens a.strength (.arguments f done :: pending) from trivial)
    refine ⟨pending', a', [], a.phrase, hreads, rfl, ?_⟩
    rw [hsettle 1 (one_le_strength a), List.append_nil]
    rfl
  | a :: b :: l, h, _, f, done, pending => by
    rw [Code.groupedList, Bool.and_eq_true] at h
    obtain ⟨pending', a', hreads, hsettle⟩ :=
      readsTo_code h.1 (show Opens a.strength (.arguments f done :: pending) from trivial)
    obtain ⟨pending'', b', init, last, hrest, hlist, hsettle'⟩ :=
      readsTo_codeList h.2 (by simp) f (done ++ [a.phrase]) pending
    refine ⟨pending'', b', a.phrase :: init, last, ?_, ?_, ?_⟩
    · rw [Code.tokensList, List.foldlM_append, hreads]
      change ((argument false (settle 1 pending' a')).bind fun place =>
        (Code.tokensList (b :: l)).foldlM Place.step place) = _
      rw [hsettle 1 (one_le_strength a)]
      exact hrest
    · rw [Code.phraseList, hlist]
      rfl
    · rw [hsettle', List.append_assoc]
      rfl

end

/-- An expression that is generated is read as what it was meant to be. -/
theorem ofTokens_code {c : Code} (h : c.grouped) : ofTokens c.tokens = some c.phrase := by
  obtain ⟨pending, a, hreads, hsettle⟩ := readsTo_code h (show Opens c.strength [] from trivial)
  have hall : settle 1 pending a = ([], c.phrase) := hsettle 1 (one_le_strength c)
  rw [ofTokens, hreads]
  simp only [Option.bind_some, Place.finish, hall]

end Phrase

/-! ## Generated expressions -/

theorem grouped_vector {v : Vec3 Word} (h : (v.x.isFinite && v.y.isFinite && v.z.isFinite) = true) :
    (Code.vector v).grouped := by
  rw [Bool.and_eq_true, Bool.and_eq_true] at h
  obtain ⟨⟨hx, hy⟩, hz⟩ := h
  unfold Code.vector
  split <;> simp [Code.splat, Code.builtin, Code.grouped, Code.groupedList, *]

theorem grouped_varCode (v : Var) : (varCode v).grouped := by
  cases v <;> decide

section
variable {α : Type} {ident : α → Ident}

theorem grouped_unaryCode (f : Unary) {i : Ident} (h : Token.isName i.text) :
    (unaryCode f (.name i)).grouped := by
  cases f <;> simp [unaryCode, Code.builtin, Code.splat, Code.grouped, Code.groupedList,
    Code.strength, h]

theorem grouped_binaryCode (f : Binary) {i j : Ident} (hi : Token.isName i.text)
    (hj : Token.isName j.text) : (binaryCode f (.name i) (.name j)).grouped := by
  cases f <;> simp [binaryCode, Code.builtin, Code.splat, Code.grouped, Code.groupedList,
    Code.strength, Operator.strength, hi, hj]

/-- Operations of names are grouped as they are meant, and their constants are finite. -/
theorem grouped_opCode (h : ∀ a, Token.isName (ident a).text) {op : Op Word α} (hop : op.Finite) :
    (opCode (fun a => .name (ident a)) op).grouped := by
  cases op with
  | var v => exact grouped_varCode v
  | constant c => exact grouped_vector (hop c rfl)
  | unary f a => exact grouped_unaryCode f (h a)
  | binary f a b => exact grouped_binaryCode f (h a) (h b)
  | _ => simp [opCode, Code.builtin, Code.splat, Code.first, Code.grouped, Code.groupedList,
      Code.strength, Operator.strength, h]

end

section
variable (nodes : Array Node)

theorem grouped_first_nodeCode (h : Handle) : (nodeCode nodes h).first.grouped := isName_node _

theorem grouped_materialCode (m : Material Handle) : (materialCode nodes m).grouped := by
  simp [materialCode, nodeCode, nodeIdent, Code.builtin, Code.first, Code.grouped, Code.groupedList,
    isName_node]

theorem grouped_frameCode (camera : Camera Handle) (air : Material Handle) :
    (frameCode nodes camera air).grouped := by
  have hair := grouped_materialCode nodes air
  simp [frameCode, nodeCode, nodeIdent, Code.builtin, Code.first, Code.grouped, Code.groupedList,
    isName_node, hair]

end

end SphereTracer.Shader
