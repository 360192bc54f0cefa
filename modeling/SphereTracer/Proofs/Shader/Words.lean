import SphereTracer.Proofs.Shader.Lexed

/-!
# The words of a kernel

What the words of a module can be.  Most are fixed; the others are numbers, names of nodes, and
names of functions that end with a number.
-/

namespace SphereTracer.Shader

open Token

/-- All words among the tokens have the property. -/
def Token.EveryWord (P : String → Prop) (ts : List Token) : Prop := ∀ w, .word w ∈ ts → P w

namespace Token

variable {P : String → Prop} {ts ts' : List Token}

@[simp] theorem everyWord_nil : EveryWord P [] := fun _ h => absurd h List.not_mem_nil

@[simp] theorem everyWord_word {w : String} : EveryWord P (.word w :: ts) ↔ P w ∧ EveryWord P ts := by
  simp [EveryWord]

@[simp] theorem everyWord_sign {c : Char} : EveryWord P (.sign c :: ts) ↔ EveryWord P ts := by
  simp [EveryWord]

@[simp] theorem everyWord_append : EveryWord P (ts ++ ts') ↔ EveryWord P ts ∧ EveryWord P ts' := by
  simp only [EveryWord, List.mem_append]
  exact ⟨fun h => ⟨fun w hw => h w (.inl hw), fun w hw => h w (.inr hw)⟩,
    fun h w hw => hw.elim (h.1 w) (h.2 w)⟩

theorem everyWord_flatMap {α : Type} {f : α → List Token} {l : List α} :
    EveryWord P (l.flatMap f) ↔ ∀ a ∈ l, EveryWord P (f a) := by
  simp only [EveryWord, List.mem_flatMap]
  exact ⟨fun h a ha w hw => h w ⟨a, ha, hw⟩, fun h w ⟨a, ha, hw⟩ => h a ha w hw⟩

/-! ## Words within their text -/

theorem infix_of_word_mem_scan {comment : Bool} {word cs : List Char} {w : String}
    (h : .word w ∈ scan comment word cs) : w.toList <:+: word ++ cs := by
  -- By induction on the characters that remain; the part of a word that has been read changes with
  -- each.
  induction cs generalizing comment word with
  | nil =>
    rw [scan, flush] at h
    split at h
    · exact absurd h List.not_mem_nil
    · rw [List.mem_singleton, Token.word.injEq] at h
      rw [h, String.toList_ofList, List.append_nil]
  | cons c cs ih =>
    have hflush : .word w ∈ flush word → w.toList <:+: word ++ c :: cs := by
      intro h
      rw [flush] at h
      split at h
      · exact absurd h List.not_mem_nil
      · rw [List.mem_singleton, Token.word.injEq] at h
        rw [h, String.toList_ofList]
        exact (List.prefix_append _ _).isInfix
    have hrest {comment : Bool} : .word w ∈ scan comment [] cs → w.toList <:+: word ++ c :: cs :=
      fun h => (ih h).trans (((List.suffix_cons c cs).trans (List.suffix_append _ _)).isInfix)
    rw [scan] at h
    split at h
    · exact hrest h
    · split at h
      · have hgrown := ih h
        rwa [List.append_assoc] at hgrown
      · split at h
        · exact (List.mem_append.1 h).elim hflush hrest
        · simp only [List.mem_append] at h
          rcases h with (h | h) | h
          · exact hflush h
          · split at h
            · exact absurd h List.not_mem_nil
            · simp at h
          · exact hrest h

/-- Whether no end of a text has a property. -/
def noTail (p : List Char → Bool) : List Char → Bool
  | [] => true
  | c :: cs => !p (c :: cs) && noTail p cs

theorem eq_false_of_noTail {p : List Char → Bool} {cs tail : List Char} (h : noTail p cs)
    (hne : tail ≠ []) (hcs : tail <:+ cs) : p tail = false := by
  obtain ⟨before, rfl⟩ := hcs
  induction before with
  | nil =>
    obtain ⟨c, rest, rfl⟩ := List.exists_cons_of_ne_nil hne
    rw [List.nil_append, noTail, Bool.and_eq_true, Bool.not_eq_true'] at h
    exact h.1
  | cons c before ih =>
    rw [List.cons_append, noTail, Bool.and_eq_true] at h
    exact ih h.2

theorem noTail_ofList {p : List Char → Bool} {cs : List Char} (h : noTail p cs) :
    noTail p (String.ofList cs).toList := by
  rwa [String.toList_ofList]

end Token

/-! ## Numbered names -/

/-- The names that a number follows. -/
def numberedKinds : List String :=
  ["distance", "normal", "material", "mandelbulb_", "sierpinski_fold_"]

/-- A name of one of the functions of which there is one for each entity or each count. -/
def Numbered (w : String) : Prop := ∃ kind ∈ numberedKinds, ∃ n : ℕ, w = kind ++ toString n

/-- The last two characters of the names that a number follows. -/
def numberedEnds : List (List Char) := [['c', 'e'], ['a', 'l'], ['b', '_'], ['d', '_']]

/-- Whether a text begins with the end of such a name and a digit. -/
def meetsNumber : List Char → Bool
  | a :: b :: c :: _ => c.isDigit && numberedEnds.contains [a, b]
  | _ => false

/-- Whether a text begins so, or with one of some names. -/
def meets (names : List (List Char)) (cs : List Char) : Bool :=
  meetsNumber cs || names.any (·.isPrefixOf cs)

/-- A word that neither is a numbered name nor begins a function. -/
def Ordinary (w : String) : Prop := ¬ Numbered w ∧ w ≠ "fn"

theorem exists_end_of_kind : ∀ kind ∈ numberedKinds,
    ∃ before a b, kind.toList = before ++ [a, b] ∧ numberedEnds.contains [a, b] := by
  simp only [numberedKinds, List.forall_mem_cons]
  exact ⟨⟨"distan".toList, 'c', 'e', rfl, rfl⟩, ⟨"norm".toList, 'a', 'l', rfl, rfl⟩,
    ⟨"materi".toList, 'a', 'l', rfl, rfl⟩, ⟨"mandelbul".toList, 'b', '_', rfl, rfl⟩,
    ⟨"sierpinski_fol".toList, 'd', '_', rfl, rfl⟩, List.forall_mem_nil _⟩

theorem exists_digits (n : ℕ) : ∃ c digits, (toString n).toList = c :: digits ∧ c.isDigit := by
  obtain ⟨c, digits, hdigits⟩ := List.exists_cons_of_ne_nil (Decimal.digitChars_ne_nil n)
  exact ⟨c, digits, hdigits, Decimal.isDigit_of_mem_digitChars c (hdigits ▸ List.mem_cons_self)⟩

/-- Some part of a numbered name is met, whatever follows it. -/
theorem Numbered.exists_meets {w : String} (h : Numbered w) :
    ∃ tail, tail ≠ [] ∧ tail <:+ w.toList ∧ ∀ rest, meetsNumber (tail ++ rest) := by
  obtain ⟨kind, hkind, n, rfl⟩ := h
  obtain ⟨before, a, b, hkind, hends⟩ := exists_end_of_kind kind hkind
  obtain ⟨c, digits, hdigits, hc⟩ := exists_digits n
  refine ⟨a :: b :: c :: digits, by simp, ⟨before, ?_⟩, fun rest => ?_⟩
  · rw [String.toList_append, hkind, hdigits, List.append_assoc]
    rfl
  · rw [List.cons_append, List.cons_append, List.cons_append, meetsNumber, hc, hends]
    rfl

theorem Numbered.not_noTail {names : List (List Char)} {w : String} (h : Numbered w)
    {cs : List Char} (hw : w.toList <:+: cs) : noTail (meets names) cs = false := by
  obtain ⟨tail, hne, ⟨before, htail⟩, hmeets⟩ := h.exists_meets
  obtain ⟨front, back, rfl⟩ := hw
  by_contra hno
  have hsuffix : tail ++ back <:+ front ++ w.toList ++ back := by
    rw [← htail]
    exact ⟨front ++ before, by simp⟩
  have hfalse := eq_false_of_noTail (eq_true_of_ne_false hno) (by simp [hne]) hsuffix
  rw [meets, hmeets] at hfalse
  exact absurd hfalse (by simp)

/-- A fixed word, as can be checked. -/
theorem ordinary_of_noTail {w : String} (h : noTail (meets []) w.toList) (hfn : w ≠ "fn") :
    Ordinary w :=
  ⟨fun hw => absurd (hw.not_noTail List.infix_rfl) (by rw [h]; decide), hfn⟩

/-- The first two characters of numbered names. -/
theorem Numbered.exists_front {w : String} (h : Numbered w) :
    ∃ a b rest, w.toList = a :: b :: rest ∧ a ≠ 'v' ∧ a.isDigit = false ∧ b.isDigit = false := by
  obtain ⟨kind, hkind, n, rfl⟩ := h
  rw [String.toList_append]
  simp only [numberedKinds, List.mem_cons, List.not_mem_nil, or_false] at hkind
  rcases hkind with rfl | rfl | rfl | rfl | rfl <;>
    exact ⟨_, _, _, rfl, by decide, by decide, by decide⟩

theorem ordinary_node (hash : UInt64) : Ordinary (Ident.node hash).text := by
  constructor
  · intro h
    obtain ⟨a, b, rest, hw, ha, -⟩ := h.exists_front
    rw [Ident.text, String.toList_append] at hw
    exact ha (List.cons.inj hw).1.symm
  · intro h
    have hw := congrArg String.toList h
    rw [Ident.text, String.toList_append] at hw
    exact absurd (List.cons.inj hw).1 (by decide)

theorem ordinary_of_isDigit {w : String} {c : Char} {rest : List Char} (hw : w.toList = c :: rest)
    (hc : c.isDigit) : Ordinary w := by
  constructor
  · intro h
    obtain ⟨a, b, rest', hw', -, ha, -⟩ := h.exists_front
    rw [hw, List.cons.injEq] at hw'
    rw [hw'.1, ha] at hc
    exact absurd hc (by decide)
  · rintro rfl
    rw [← (List.cons.inj hw).1] at hc
    exact absurd hc (by decide)

theorem ordinary_digits (n : ℕ) : Ordinary n.repr := by
  obtain ⟨c, digits, hdigits, hc⟩ := exists_digits n
  exact ordinary_of_isDigit hdigits hc

/-- What the distance to an entity is called among those to others. -/
theorem ordinary_d (n : ℕ) : Ordinary ("d" ++ toString n) := by
  obtain ⟨c, digits, hdigits, hc⟩ := exists_digits n
  have hw : ("d" ++ toString n).toList = 'd' :: c :: digits := by
    rw [String.toList_append, hdigits]
    rfl
  constructor
  · intro h
    obtain ⟨a, b, rest, hw', -, -, hb⟩ := h.exists_front
    rw [hw, List.cons.injEq, List.cons.injEq] at hw'
    rw [hw'.2.1, hb] at hc
    exact absurd hc (by decide)
  · intro h
    rw [h] at hw
    exact absurd (List.cons.inj hw).1 (by decide)

/-! ## Fixed lines -/

/-- The words of a text that meets no numbered name, and none of some names. -/
theorem of_word_mem_ofText {names : List (List Char)} {s w : String}
    (hs : noTail (meets names) s.toList) (hw : .word w ∈ ofText s) :
    ¬ Numbered w ∧ ∀ name ∈ names, name ≠ [] → w.toList ≠ name := by
  have hinfix := infix_of_word_mem_scan hw
  rw [List.nil_append] at hinfix
  refine ⟨fun h => absurd (h.not_noTail hinfix) (by rw [hs]; decide), ?_⟩
  rintro name hname hne rfl
  obtain ⟨front, back, heq⟩ := hinfix
  have hsuffix : w.toList ++ back <:+ s.toList := ⟨front, by rw [← heq, List.append_assoc]⟩
  have hfalse := eq_false_of_noTail hs (by simp [hne]) hsuffix
  rw [meets, Bool.or_eq_false_iff, List.any_eq_false] at hfalse
  exact hfalse.2 _ hname (List.isPrefixOf_iff_prefix.2 (List.prefix_append _ _))

/-- A text has ordinary words only, as can be checked. -/
theorem everyWord_text {s : String} (hs : noTail (meets [['f', 'n']]) s.toList) :
    EveryWord Ordinary (ofText s) := by
  intro w hw
  obtain ⟨hnumbered, hnames⟩ := of_word_mem_ofText hs hw
  refine ⟨hnumbered, ?_⟩
  rintro rfl
  exact hnames _ List.mem_cons_self (by simp) rfl

/-! ## Generated expressions -/

/-- The word of a number begins with a digit, or the number is not finite. -/
theorem everyWord_numberTokens {P : String → Prop}
    (hdigit : ∀ {w : String} {c : Char} {rest : List Char}, w.toList = c :: rest → c.isDigit → P w)
    (hinf : P "inf") (hnan : P "NaN") (w : Word) : EveryWord P (numberTokens w) := by
  unfold numberTokens
  split
  · next h =>
    obtain ⟨d, hd, -⟩ := Decimal.numeral_unsignedChars (Word.magnitude_lt h)
    obtain ⟨c, rest, hcs, hc⟩ := hd.exists_cons
    have hnumeral : P (String.ofList (Decimal.unsignedChars w.magnitude.toNat)) :=
      hdigit (by rw [String.toList_ofList, hcs]) hc
    split <;> simp [hnumeral]
  · next h =>
    have hminus : ofText "-inf" = [.sign '-', .word "inf"] := rfl
    have hinf' : ofText "inf" = [.word "inf"] := rfl
    have hnan' : ofText "NaN" = [.word "NaN"] := rfl
    unfold Word.text
    rw [if_neg h]
    split
    · split
      · simp [hminus, hinf]
      · simp [hinf', hinf]
    · simp [hnan', hnan]

section
variable {P : String → Prop} (hP : ∀ w, Ordinary w → P w)
include hP

/-- A fixed word has what all ordinary words have. -/
theorem fixed {w : String} (h : noTail (meets []) w.toList) (hfn : w ≠ "fn") : P w :=
  hP w (ordinary_of_noTail h hfn)

theorem everyWord_number (w : Word) : EveryWord P (numberTokens w) :=
  everyWord_numberTokens (fun hw hc => hP _ (ordinary_of_isDigit hw hc))
    (fixed hP (by decide) (by decide)) (fixed hP (by decide) (by decide)) w

theorem everyWord_vector (v : Vec3 Word) : EveryWord P (Code.vector v).tokens := by
  have hvec : P "vec3<f32>" := fixed hP (by decide) (by decide)
  have hnumber := everyWord_number hP
  unfold Code.vector
  split <;> simp [Code.splat, Code.builtin, Code.tokens, Code.tokensList, Callee.text, Builtin.text,
    hvec, hnumber]

theorem everyWord_varCode (v : Var) : EveryWord P (varCode v).tokens := by
  have hnumber := everyWord_number hP
  cases v <;> simp (disch := decide) [varCode, Code.named, Code.splat, Code.builtin, Code.tokens,
    Code.tokensList, Callee.text, Builtin.text, Ident.text, hnumber, fixed hP]

variable {α : Type} {ident : α → Ident}

theorem everyWord_unaryCode (f : Unary) {i : Ident} (h : P i.text) :
    EveryWord P (unaryCode f (.name i)).tokens := by
  cases f <;> simp (disch := decide) [unaryCode, Code.splat, Code.builtin, Code.tokens,
    Code.tokensList, Callee.text, Builtin.text, h, fixed hP]

theorem everyWord_binaryCode (f : Binary) {i j : Ident} (hi : P i.text) (hj : P j.text) :
    EveryWord P (binaryCode f (.name i) (.name j)).tokens := by
  cases f <;> simp (disch := decide) [binaryCode, Code.splat, Code.builtin, Code.tokens,
    Code.tokensList, Callee.text, Builtin.text, Operator.tokens, hi, hj, fixed hP]

/-- The generated functions that an operation calls. -/
def opCalls {β : Type} : Op Word β → List FunctionName
  | .mandelbulb _ _ n => [.mandelbulb n]
  | .fold _ n => [.fold n]
  | _ => []

theorem everyWord_opCode (hident : ∀ a, P (ident a).text) {op : Op Word α}
    (hcalls : ∀ f ∈ opCalls op, P f.text) :
    EveryWord P (opCode (fun a => .name (ident a)) op).tokens := by
  cases op with
  | var v => exact everyWord_varCode hP v
  | constant c => exact everyWord_vector hP c
  | unary f a => exact everyWord_unaryCode hP f (hident a)
  | binary f a b => exact everyWord_binaryCode hP f (hident a) (hident b)
  | component a axis =>
    cases axis <;> simp (disch := decide) [opCode, Axis.letter, Code.splat, Code.builtin,
      Code.tokens, Code.tokensList, Callee.text, Builtin.text, hident, fixed hP]
  | mandelbulb point power n =>
    have hcall : P (FunctionName.mandelbulb n).text := hcalls _ List.mem_cons_self
    simp (disch := decide) [opCode, Code.first, Code.splat, Code.builtin, Code.tokens,
      Code.tokensList, Callee.text, Builtin.text, hident, hcall, fixed hP]
  | fold point n =>
    have hcall : P (FunctionName.fold n).text := hcalls _ List.mem_cons_self
    simp [opCode, Code.tokens, Code.tokensList, Callee.text, hident, hcall]
  | _ =>
    simp (disch := decide) [opCode, Code.first, Code.splat, Code.builtin, Code.tokens,
      Code.tokensList, Callee.text, Builtin.text, Operator.tokens, hident, fixed hP]

/-! ## Generated functions -/

variable (nodes : Array Node)

theorem everyWord_nodeCode (h : Handle) : EveryWord P (nodeCode nodes h).tokens := by
  have hident : P (nodeIdent nodes h).text := hP _ (ordinary_node _)
  simp [nodeCode, Code.tokens, hident]

theorem everyWord_first_nodeCode (h : Handle) : EveryWord P (nodeCode nodes h).first.tokens := by
  have hident : P (nodeIdent nodes h).text := hP _ (ordinary_node _)
  simp (disch := decide) [nodeCode, Code.first, Code.tokens, hident, fixed hP]

theorem everyWord_materialCode (m : Material Handle) :
    EveryWord P (materialCode nodes m).tokens := by
  simp (disch := decide) [materialCode, Code.builtin, Code.tokens, Code.tokensList, Callee.text,
    Builtin.text, everyWord_nodeCode hP, everyWord_first_nodeCode hP, fixed hP]

theorem everyWord_frameCode (camera : Camera Handle) (air : Material Handle) :
    EveryWord P (frameCode nodes camera air).tokens := by
  simp (disch := decide) [frameCode, Code.builtin, Code.tokens, Code.tokensList, Callee.text,
    Builtin.text, everyWord_nodeCode hP, everyWord_first_nodeCode hP, everyWord_materialCode hP,
    fixed hP]

theorem everyWord_binding {h : Handle}
    (hcalls : ∀ node, nodes[h.index]? = some node → ∀ f ∈ opCalls node.op, P f.text) :
    EveryWord P (binding nodes h).statement.tokens := by
  have hident (h : Handle) : P (nodeIdent nodes h).text := hP _ (ordinary_node _)
  have hcode : ∀ code : Code, EveryWord P code.tokens →
      EveryWord P (Statement.bind (nodeIdent nodes h) code).tokens := fun code hcode => by
    simp (disch := decide) [Statement.tokens, hident, hcode, fixed hP]
  refine hcode _ ?_
  split
  · next node hnode => exact everyWord_opCode hP hident (hcalls node hnode)
  · exact everyWord_nodeCode hP nodes h

/-- A function has the words of its signature and of its lines. -/
theorem everyWord_inner {f : Function}
    (hsignature : noTail (meets [['f', 'n']]) (signature f.parameters f.result).toList)
    (hbody : ∀ line ∈ f.body, EveryWord P line.statement.tokens) : EveryWord P f.inner := by
  have htext : EveryWord P (ofText (signature f.parameters f.result)) :=
    fun w hw => hP w (everyWord_text hsignature w hw)
  simp only [Function.inner, everyWord_append, everyWord_flatMap, everyWord_sign]
  exact ⟨⟨htext, hbody⟩, everyWord_nil⟩

theorem everyWord_bindings {order : Array Handle} {value : Code}
    (hcalls : ∀ h ∈ order, ∀ node, nodes[h.index]? = some node →
      ∀ f ∈ opCalls node.op, P f.text) (hvalue : EveryWord P value.tokens) :
    ∀ line ∈ bindings nodes order ++ [⟨1, .giveBack value⟩], EveryWord P line.statement.tokens := by
  intro line hline
  rcases List.mem_append.1 hline with hline | hline
  · obtain ⟨h, hh, rfl⟩ := List.mem_map.1 hline
    exact everyWord_binding hP nodes (hcalls h (Array.mem_toList_iff.1 hh))
  · rw [List.mem_singleton.1 hline]
    simp (disch := decide) [Statement.tokens, hvalue, fixed hP]

theorem everyWord_raw {text : String} (h : noTail (meets [['f', 'n']]) text.toList) :
    EveryWord P (Statement.raw text).tokens := fun w hw => hP w (everyWord_text h w hw)

theorem everyWord_part {before after : String} {value : Code}
    (hbefore : noTail (meets [['f', 'n']]) before.toList) (hvalue : EveryWord P value.tokens)
    (hafter : noTail (meets [['f', 'n']]) after.toList) :
    EveryWord P (Statement.part before value after).tokens := by
  simp only [Statement.tokens, everyWord_append]
  exact ⟨⟨fun w hw => hP w (everyWord_text hbefore w hw), hvalue⟩,
    fun w hw => hP w (everyWord_text hafter w hw)⟩

theorem everyWord_cheapTap {id : EntityId} (hid : P (FunctionName.distance id).text)
    {lanes after : String} (hlanes : P lanes)
    (hafter : noTail (meets [['f', 'n']]) after.toList) :
    EveryWord P (cheapTap id lanes after).statement.tokens := by
  refine everyWord_part hP (by decide) ?_ hafter
  simp (disch := decide) [Code.named, Code.tokens, Code.tokensList, distanceAt, Ident.text,
    Callee.text, Operator.tokens, hid, hlanes, fixed hP]

theorem everyWord_centralDifference {id : EntityId} (hid : P (FunctionName.distance id).text)
    {lanes after : String} (hlanes : P lanes)
    (hafter : noTail (meets [['f', 'n']]) after.toList) :
    EveryWord P (centralDifference id lanes after).statement.tokens := by
  refine everyWord_part hP (by decide) ?_ hafter
  simp (disch := decide) [Code.named, Code.tokens, Code.tokensList, distanceAt, Ident.text,
    Callee.text, Operator.tokens, hid, hlanes, fixed hP]

theorem everyWord_normalFunction {cheap : Bool} {id : EntityId}
    (hid : P (FunctionName.distance id).text) : EveryWord P (normalFunction cheap id).inner := by
  have hsignature : noTail (meets [['f', 'n']])
      (signature [vectorParameter "p"] "vec3<f32>").toList := by decide
  have hvec : EveryWord P (Code.builtin .vec2 [.float 1.0, .float (-1.0)]).tokens := by
    simp (disch := decide) [Code.builtin, Code.tokens, Code.tokensList, Callee.text, Builtin.text,
      everyWord_number hP, fixed hP]
  have hvec' : EveryWord P (Code.builtin .vec2 [.named "NORMAL_EPSILON", .float 0.0]).tokens := by
    simp (disch := decide) [Code.builtin, Code.named, Code.tokens, Code.tokensList, Callee.text,
      Builtin.text, Ident.text, everyWord_number hP, fixed hP]
  refine everyWord_inner hP hsignature ?_
  cases cheap with
  | true =>
    simp only [normalFunction, if_true, List.forall_mem_cons]
    refine ⟨?_, everyWord_raw hP (by decide), everyWord_cheapTap hP hid (fixed hP (by decide)
      (by decide)) (by decide), everyWord_cheapTap hP hid (fixed hP (by decide) (by decide))
      (by decide), everyWord_cheapTap hP hid (fixed hP (by decide) (by decide)) (by decide),
      everyWord_cheapTap hP hid (fixed hP (by decide) (by decide)) (by decide),
      List.forall_mem_nil _⟩
    simp (disch := decide) [Statement.tokens, Ident.text, hvec, fixed hP]
  | false =>
    simp only [normalFunction, Bool.false_eq_true, if_false, List.forall_mem_cons]
    refine ⟨?_, everyWord_raw hP (by decide), everyWord_centralDifference hP hid (fixed hP
      (by decide) (by decide)) (by decide), everyWord_centralDifference hP hid (fixed hP (by decide)
      (by decide)) (by decide), everyWord_centralDifference hP hid (fixed hP (by decide) (by decide))
      (by decide), List.forall_mem_nil _⟩
    simp (disch := decide) [Statement.tokens, Ident.text, hvec', fixed hP]

theorem everyWord_closestFunction {ids : List EntityId}
    (hids : ∀ id ∈ ids, P (FunctionName.distance id).text) :
    EveryWord P (closestFunction ids).inner := by
  have hsignature : noTail (meets [['f', 'n']])
      (signature [vectorParameter "p"] "Closest").toList := by decide
  have hdigits (n : ℕ) : P n.repr := hP _ (ordinary_digits n)
  refine everyWord_inner hP hsignature ?_
  simp only [closestFunction, List.forall_mem_cons, List.forall_mem_append, List.forall_mem_flatMap]
  refine ⟨⟨everyWord_part hP (by decide) ?_ (by decide), fun id hid => ?_⟩, ?_, List.forall_mem_nil _⟩
  · simp (disch := decide) [Code.builtin, Code.named, Code.tokens, Code.tokensList, Callee.text,
      Builtin.text, Ident.text, hdigits, fixed hP]
  · have hd : P ("d" ++ toString id) := hP _ (ordinary_d _)
    have hcall := hids id hid
    simp only [closestCase, List.forall_mem_cons]
    refine ⟨?_, everyWord_part hP (by decide) ?_ (by decide),
      everyWord_part hP (by decide) ?_ (by decide), everyWord_raw hP (by decide),
      List.forall_mem_nil _⟩
    · simp (disch := decide) [Statement.tokens, distanceAt, Code.builtin, Code.named, Code.tokens,
        Code.tokensList, Callee.text, Builtin.text, Ident.text, hd, hcall, fixed hP]
    · simp (disch := decide) [Code.named, Code.tokens, Operator.tokens, Ident.text, hd, fixed hP]
    · simp (disch := decide) [Code.builtin, Code.tokens, Code.tokensList, Callee.text, Builtin.text,
        Ident.text, hd, hdigits, fixed hP]
  · simp (disch := decide) [Statement.tokens, Code.named, Code.tokens, Ident.text, fixed hP]

theorem everyWord_dispatch {callee : EntityId → FunctionName} {ids : List EntityId}
    (hids : ∀ id ∈ ids, P (callee id).text) {arguments : List Code} {otherwise : Code}
    (harguments : EveryWord P (Code.tokensList arguments)) (hotherwise : EveryWord P otherwise.tokens) :
    ∀ line ∈ ids.flatMap (idCase callee arguments) ++ [⟨1, .giveBack otherwise⟩],
      EveryWord P line.statement.tokens := by
  have hdigits (n : ℕ) : P n.repr := hP _ (ordinary_digits n)
  simp only [List.forall_mem_cons, List.forall_mem_append, List.forall_mem_flatMap]
  refine ⟨fun id hid => ?_, ?_, List.forall_mem_nil _⟩
  · have hcall := hids id hid
    simp only [idCase, List.forall_mem_cons]
    refine ⟨everyWord_part hP (by decide) ?_ (by decide), ?_, everyWord_raw hP (by decide),
      List.forall_mem_nil _⟩
    · simp (disch := decide) [Code.named, Code.tokens, Operator.tokens, Ident.text, hdigits, fixed hP]
    · simp (disch := decide) [Statement.tokens, Code.tokens, Callee.text, hcall, harguments, fixed hP]
  · simp (disch := decide) [Statement.tokens, hotherwise, fixed hP]

theorem everyWord_normalDispatch {ids : List EntityId}
    (hids : ∀ id ∈ ids, P (FunctionName.normal id).text) :
    EveryWord P (normalDispatch ids).inner := by
  have hsignature : noTail (meets [['f', 'n']])
      (signature [⟨"id", "i32"⟩, vectorParameter "p"] "vec3<f32>").toList := by decide
  refine everyWord_inner hP hsignature (everyWord_dispatch hP hids ?_ ?_)
  · simp (disch := decide) [Code.named, Code.tokens, Code.tokensList, Ident.text, fixed hP]
  · simp (disch := decide) [Code.splat, Code.builtin, Code.tokens, Code.tokensList, Callee.text,
      Builtin.text, everyWord_number hP, fixed hP]

theorem everyWord_materialDispatch {ids : List EntityId}
    (hids : ∀ id ∈ ids, P (FunctionName.material id).text) :
    EveryWord P (materialDispatch ids).inner := by
  have hsignature : noTail (meets [['f', 'n']])
      (signature (⟨"id", "i32"⟩ :: materialParameters) "Material").toList := by decide
  refine everyWord_inner hP hsignature (everyWord_dispatch hP hids ?_ ?_)
  · simp (disch := decide) [Code.named, Code.tokens, Code.tokensList, Ident.text, fixed hP]
  · simp (disch := decide) [Code.named, Code.splat, Code.builtin, Code.tokens, Code.tokensList,
      Callee.text, Builtin.text, Ident.text, everyWord_number hP, fixed hP]

theorem everyWord_loop (n : ℕ) : EveryWord P
    (Statement.raw ("for (var i = 0u; i < " ++ toString n ++ "u; i++) \x7b")).tokens := by
  obtain ⟨c, digits, hdigits, hc⟩ := exists_digits n
  have hcount : (toString n ++ "u").toList = c :: (digits ++ ['u']) := by
    rw [String.toList_append, hdigits]
    rfl
  have hordinary : P (toString n ++ "u") := hP _ (ordinary_of_isDigit hcount hc)
  rw [Statement.tokens, ofText_loop, everyWord_append, everyWord_word]
  exact ⟨fun w hw => hP w (everyWord_text (by decide) w hw), hordinary,
    fun w hw => hP w (everyWord_text (by decide) w hw)⟩

theorem everyWord_mandelbulbFunction (n : UInt32) : EveryWord P (mandelbulbFunction n).inner := by
  have hsignature : noTail (meets [['f', 'n']])
      (signature [vectorParameter "p", ⟨"power", "f32"⟩] "f32").toList := by decide
  have hbailout : EveryWord P (Code.float (.ofFloat Intrinsic.bailout)).tokens :=
    everyWord_number hP _
  refine everyWord_inner hP hsignature ?_
  simp only [mandelbulbFunction, List.forall_mem_cons]
  have hraw {text : String} (h : noTail (meets [['f', 'n']]) text.toList) :
      EveryWord P (Statement.raw text).tokens := everyWord_raw hP h
  exact ⟨hraw (by decide +kernel), hraw (by decide +kernel), hraw (by decide +kernel),
    everyWord_loop hP _, hraw (by decide +kernel), everyWord_part hP (by decide) hbailout (by decide),
    hraw (by decide +kernel), hraw (by decide +kernel), hraw (by decide +kernel),
    hraw (by decide +kernel), hraw (by decide +kernel), hraw (by decide +kernel),
    hraw (by decide +kernel), hraw (by decide +kernel), hraw (by decide +kernel),
    List.forall_mem_nil _⟩

theorem everyWord_foldFunction (n : UInt32) : EveryWord P (foldFunction n).inner := by
  have hsignature : noTail (meets [['f', 'n']])
      (signature [vectorParameter "p"] "vec3<f32>").toList := by decide
  have hbind {name : String} (hname : P name) (v : Vec3 Word) :
      EveryWord P (Statement.bind (.named name) (.vector v)).tokens := by
    simp (disch := decide) [Statement.tokens, Ident.text, hname, everyWord_vector hP, fixed hP]
  refine everyWord_inner hP hsignature ?_
  simp only [foldFunction, List.forall_mem_cons]
  exact ⟨hbind (fixed hP (by decide) (by decide)) _, hbind (fixed hP (by decide) (by decide)) _,
    hbind (fixed hP (by decide) (by decide)) _, everyWord_raw hP (by decide +kernel),
    everyWord_loop hP _, everyWord_raw hP (by decide +kernel), everyWord_raw hP (by decide +kernel),
    everyWord_raw hP (by decide +kernel),
    everyWord_part hP (by decide) (everyWord_vector hP _) (by decide),
    everyWord_raw hP (by decide +kernel), everyWord_raw hP (by decide +kernel),
    List.forall_mem_nil _⟩

end

/-! ## Generated modules -/

theorem mem_counts_of_node {nodes : Array Node} {node : Node} (hnode : node ∈ nodes)
    {count? : GraphOp → Option UInt32} {n : UInt32} (hn : count? node.op = some n) :
    n ∈ counts nodes count? := by
  rw [counts, List.mem_mergeSort, List.mem_eraseDups, List.mem_filterMap]
  exact ⟨node, Array.mem_toList_iff.2 hnode, hn⟩

/-- Loops of nodes have their functions among the helpers. -/
theorem exists_helper {nodes : Array Node} {i : ℕ} {node : Node} (hnode : nodes[i]? = some node)
    {f : FunctionName} (hf : f ∈ opCalls node.op) : ∃ g ∈ helpers nodes, g.name = f := by
  have hmem : node ∈ nodes := Array.mem_of_getElem? hnode
  unfold opCalls at hf
  split at hf
  · next n hop =>
    rw [List.mem_singleton] at hf
    refine ⟨mandelbulbFunction n,
      List.mem_append_left _ (List.mem_map_of_mem (mem_counts_of_node hmem ?_)), hf.symm⟩
    rw [hop, mandelbulbCount?]
  · next n hop =>
    rw [List.mem_singleton] at hf
    refine ⟨foldFunction n,
      List.mem_append_right _ (List.mem_map_of_mem (mem_counts_of_node hmem ?_)), hf.symm⟩
    rw [hop, foldCount?]
  · exact absurd hf List.not_mem_nil

/-- Every word of a generated function is ordinary or the name of a generated function. -/
theorem everyWord_generated {P : String → Prop} (hP : ∀ w, Ordinary w → P w) {program : Program}
    (hnames : ∀ f ∈ generated program, P f.name.text) :
    ∀ f ∈ generated program, EveryWord P f.inner := by
  have hentity {e : EntityProgram} (he : e ∈ program.entities.toList) {f : Function}
      (hf : f ∈ entityFunctions program e) : P f.name.text := by
    refine hnames f (List.mem_append_right _ (List.mem_append_left _ ?_))
    exact List.mem_flatMap.2 ⟨e, he, hf⟩
  have hcalls {order : Array Handle} : ∀ h ∈ order, ∀ node, program.nodes[h.index]? = some node →
      ∀ f ∈ opCalls node.op, P f.text := by
    intro h _ node hnode f hf
    obtain ⟨g, hg, rfl⟩ := exists_helper hnode hf
    exact hnames g (List.mem_append_left _ hg)
  have hdistance : ∀ e ∈ program.entities.toList, P (FunctionName.distance e.id).text :=
    fun e he => hentity he List.mem_cons_self
  have hnormal : ∀ e ∈ program.entities.toList, P (FunctionName.normal e.id).text :=
    fun e he => hentity he (List.mem_cons_of_mem _ List.mem_cons_self)
  have hmaterial : ∀ e ∈ program.entities.toList, P (FunctionName.material e.id).text :=
    fun e he => hentity he (List.mem_cons_of_mem _ (List.mem_cons_of_mem _ List.mem_cons_self))
  have hparameters : noTail (meets [['f', 'n']]) (signature [vectorParameter "p"] "f32").toList ∧
      noTail (meets [['f', 'n']]) (signature materialParameters "Material").toList ∧
      noTail (meets [['f', 'n']]) (signature [] "Frame").toList := by decide
  simp only [generated, helpers, procedures, entityFunctions, List.forall_mem_append,
    List.forall_mem_flatMap, List.forall_mem_map, List.forall_mem_cons]
  refine ⟨⟨fun n _ => everyWord_mandelbulbFunction hP n, fun n _ => everyWord_foldFunction hP n⟩,
    fun e he => ⟨?_, everyWord_normalFunction hP (hdistance e he), ?_, List.forall_mem_nil _⟩,
    ?_, ?_, ?_, ?_, List.forall_mem_nil _⟩
  · exact everyWord_inner hP hparameters.1
      (everyWord_bindings hP _ hcalls (everyWord_first_nodeCode hP _ _))
  · exact everyWord_inner hP hparameters.2.1
      (everyWord_bindings hP _ hcalls (everyWord_materialCode hP _ _))
  · exact everyWord_closestFunction hP (List.forall_mem_map.2 hdistance)
  · exact everyWord_normalDispatch hP (List.forall_mem_map.2 hnormal)
  · exact everyWord_materialDispatch hP (List.forall_mem_map.2 hmaterial)
  · exact everyWord_inner hP hparameters.2.2
      (everyWord_bindings hP _ hcalls (everyWord_frameCode hP _ _ _))

end SphereTracer.Shader
