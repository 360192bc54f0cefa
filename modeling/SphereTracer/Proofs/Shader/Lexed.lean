import SphereTracer.Kernel
import SphereTracer.Proofs.Shader.Tokens

/-!
# Generated code, token by token

The tokens of generated expressions, lines and functions, and of a whole module.
-/

namespace SphereTracer.Shader

open Token

/-- The text is read as these tokens, whatever follows that ends a word. -/
def Token.LexesTo (s : String) (ts : List Token) : Prop :=
  ∀ rest : List Char, (∀ c ∈ rest.head?, stops c) →
    scan false [] (s.toList ++ rest) = ts ++ scan false [] rest

/-- The tokens of a text are followed by those of whatever follows it. -/
def Token.Separate (s : String) : Prop :=
  ∀ rest : List Char, scan false [] (s.toList ++ rest) = ofText s ++ scan false [] rest

namespace Token

theorem LexesTo.ofText_eq {s : String} {ts : List Token} (h : LexesTo s ts) : ofText s = ts := by
  have hscan := h [] (by simp)
  rw [List.append_nil] at hscan
  exact hscan.trans (List.append_nil ts)

theorem LexesTo.append {s separator s' : String} {ts ts' : List Token} (h : LexesTo s ts)
    (hseparate : Separate separator) (hstops : ∃ c ∈ separator.toList.head?, stops c)
    (h' : LexesTo s' ts') : LexesTo (s ++ separator ++ s') (ts ++ ofText separator ++ ts') := by
  intro rest hrest
  obtain ⟨c, hc, hstop⟩ := hstops
  obtain ⟨cs, hcs⟩ := List.head?_eq_some_iff.1 hc
  simp only [String.toList_append, List.append_assoc]
  -- The separator ends the word before it and keeps apart from what follows.
  rw [h _ (by simp [hcs, hstop]), hseparate, h' rest hrest]

theorem LexesTo.separate {s separator : String} {ts : List Token} (h : LexesTo s ts)
    (hseparate : Separate separator) (hstops : ∃ c ∈ separator.toList.head?, stops c) :
    LexesTo (s ++ separator) (ts ++ ofText separator) := by
  intro rest _
  obtain ⟨c, hc, hstop⟩ := hstops
  obtain ⟨cs, hcs⟩ := List.head?_eq_some_iff.1 hc
  simp only [String.toList_append, List.append_assoc]
  rw [h _ (by simp [hcs, hstop]), hseparate]

theorem Separate.lexesTo {s s' : String} {ts : List Token} (h : Separate s) (h' : LexesTo s' ts) :
    LexesTo (s ++ s') (ofText s ++ ts) := by
  intro rest hrest
  simp only [String.toList_append, List.append_assoc]
  rw [h, h' rest hrest]

theorem lexesTo_name {s : String} (h : isName s) : LexesTo s [.word s] := fun _ hrest =>
  scan_name h fun c hc => .inl (hrest c hc)

end Token

/-! ## Names -/

theorem isWordChar_digits (n : ℕ) : ∀ c ∈ (toString n).toList, isWordChar c := fun c hc => by
  simp [isWordChar, Char.isAlphanum, Decimal.isDigit_of_mem_digitChars c hc]

theorem isName_functionName (f : FunctionName) : isName f.text := by
  cases f with
  | distance id => exact isName_append (by decide) (by decide) (isWordChar_digits _)
  | normal id => exact isName_append (by decide) (by decide) (isWordChar_digits _)
  | material id => exact isName_append (by decide) (by decide) (isWordChar_digits _)
  | mandelbulb n => exact isName_append (by decide) (by decide) (isWordChar_digits _)
  | fold n => exact isName_append (by decide) (by decide) (isWordChar_digits _)
  | _ => decide

theorem isWordChar_hexDigit : ∀ n < 16, isWordChar (Text.hexDigit n) := by decide

theorem isWordChar_hexDigits (width n : ℕ) : ∀ c ∈ Text.hexDigits width n, isWordChar c := by
  induction width generalizing n with
  | zero => simp [Text.hexDigits]
  | succ width ih =>
    intro c hc
    rcases List.mem_append.1 hc with hc | hc
    · exact ih _ c hc
    · rw [List.mem_singleton.1 hc]
      exact isWordChar_hexDigit _ (Nat.mod_lt _ (by decide))

theorem isName_node (hash : UInt64) : isName (Ident.node hash).text := by
  refine isName_append (by decide) (by decide) ?_
  rw [Text.hex, String.toList_ofList]
  exact isWordChar_hexDigits _ _

theorem lexesTo_callee (f : Callee) (rest : List Char) :
    scan false [] (f.text.toList ++ '(' :: rest) =
      .word f.text :: .sign '(' :: scan false [] rest := by
  have hname {s : String} (hs : isName s) : scan false [] (s.toList ++ '(' :: rest) =
      .word s :: .sign '(' :: scan false [] rest := by
    rw [scan_name hs (by simp; rfl)]
    rfl
  cases f with
  | generated f => exact hname (isName_functionName f)
  | builtin f =>
    cases f with
    | vec2 => rfl
    | vec3 => rfl
    | _ => exact hname (by decide)

/-! ## Numbers -/

/-- The tokens of a number; its sign is one of its own. -/
def numberTokens (w : Word) : List Token :=
  if w.isFinite then
    (if w.isNegative then [.sign '-'] else []) ++
      [.word (String.ofList (Decimal.unsignedChars w.magnitude.toNat))]
  else ofText w.text

theorem lexesTo_number (w : Word) : LexesTo w.text (numberTokens w) := by
  unfold numberTokens
  split
  · next h =>
    intro rest hrest
    obtain ⟨d, hd, -⟩ := Decimal.numeral_unsignedChars (Word.magnitude_lt h)
    have hnumeral := scan_numeral hd hrest
    rw [Word.toList_text h]
    cases w.isNegative with
    | false => exact hnumeral
    | true => exact congrArg (Token.sign '-' :: ·) hnumeral
  · next h =>
    have hminus : Separate "-" := fun _ => rfl
    have hinf : LexesTo "inf" [.word "inf"] := lexesTo_name (by decide)
    have hnan : LexesTo "NaN" [.word "NaN"] := lexesTo_name (by decide)
    unfold Word.text
    rw [if_neg h]
    split
    · split
      · exact hminus.lexesTo hinf
      · exact hinf
    · exact hnan

/-! ## Expressions -/

def Operator.tokens : Operator → List Token
  | .add => [.sign '+']
  | .sub => [.sign '-']
  | .mul => [.sign '*']
  | .div => [.sign '/']
  | .less => [.sign '<']
  | .equal => [.sign '=', .sign '=']

theorem scan_operator (f : Operator) (rest : List Char) :
    scan false [] (f.text.toList ++ rest) = f.tokens ++ scan false [] rest := by
  cases f <;> rfl

namespace Code

mutual

def tokens : Code → List Token
  | name ident => [.word ident.text]
  | float w => numberTokens w
  | int n => [.word (toString n.toNat)]
  | access a member => tokens a ++ [.sign '.', .word member]
  | neg a => .sign '-' :: tokens a
  | operation f a b => tokens a ++ f.tokens ++ tokens b
  | call f arguments => .word f.text :: .sign '(' :: tokensList arguments ++ [.sign ')']

def tokensList : List Code → List Token
  | [] => []
  | [a] => tokens a
  | a :: b :: rest => tokens a ++ .sign ',' :: tokensList (b :: rest)

end

mutual

/-- Whether names are names, of which only members are taken. -/
def plain : Code → Bool
  | name ident => isName ident.text
  | float _ => true
  | int _ => true
  | access (name ident) member => isName ident.text && isName member
  | access _ _ => false
  | neg a => plain a
  | operation _ a b => plain a && plain b
  | call _ arguments => plainList arguments

def plainList : List Code → Bool
  | [] => true
  | a :: rest => plain a && plainList rest

end

end Code

mutual

/-- An expression has its tokens, whatever follows that ends a word. -/
theorem lexesTo_code : ∀ {c : Code}, c.plain → LexesTo c.text c.tokens
  | .name ident, h => by
    rw [Code.plain] at h
    exact lexesTo_name h
  | .float w, _ => lexesTo_number w
  | .int n, _ => fun rest hrest => scan_digits n.toNat hrest
  | .access (.name ident) member, h => by
    rw [Code.plain, Bool.and_eq_true] at h
    intro rest hrest
    have hmember := lexesTo_name h.2 rest hrest
    simp only [Code.text, Code.tokens, String.toList_append, List.append_assoc]
    rw [scan_name h.1 (by simp)]
    exact congrArg (Token.word ident.text :: Token.sign '.' :: ·) hmember
  | .neg a, h => by
    rw [Code.plain] at h
    exact Separate.lexesTo (fun _ => rfl) (lexesTo_code h)
  | .operation f a b, h => by
    rw [Code.plain, Bool.and_eq_true] at h
    intro rest hrest
    have hstops : ∀ c ∈ (f.text.toList ++ (b.text.toList ++ rest)).head?, stops c := by
      cases f <;> (intro c hc; cases hc; rfl)
    simp only [Code.text, Code.tokens, String.toList_append, List.append_assoc]
    rw [lexesTo_code h.1 _ hstops, scan_operator, lexesTo_code h.2 rest hrest]
  | .call f arguments, h => by
    rw [Code.plain] at h
    intro rest _
    have harguments := lexesTo_codeList h (')' :: rest) (by simp; rfl)
    simp only [Code.text, Code.tokens, String.toList_append, List.append_assoc]
    change scan false [] (f.text.toList ++ '(' ::
      ((Code.textList arguments).toList ++ ')' :: rest)) = _
    rw [lexesTo_callee, harguments]
    have hclose : scan false [] (')' :: rest) = .sign ')' :: scan false [] rest := rfl
    rw [hclose]
    simp

theorem lexesTo_codeList : ∀ {l : List Code}, Code.plainList l →
    LexesTo (Code.textList l) (Code.tokensList l)
  | [], _ => fun _ _ => rfl
  | [a], h => by
    rw [Code.plainList, Bool.and_eq_true] at h
    exact lexesTo_code h.1
  | a :: b :: l, h => by
    rw [Code.plainList, Bool.and_eq_true] at h
    have hcomma : ofText ", " = [.sign ','] := rfl
    have hseparate : Separate ", " := fun _ => rfl
    have hlexes := (lexesTo_code h.1).append hseparate ⟨',', rfl, rfl⟩ (lexesTo_codeList h.2)
    rw [hcomma, List.append_assoc] at hlexes
    exact hlexes

end

/-! ## Lines -/

def Statement.tokens : Statement → List Token
  | bind name value => .word "let" :: .word name.text :: .sign '=' :: value.tokens ++ [.sign ';']
  | giveBack value => .word "return" :: value.tokens ++ [.sign ';']
  | part before value after => ofText before ++ value.tokens ++ ofText after
  | raw text => ofText text

/-- Whether the parts of a statement keep apart. -/
def Statement.Plain : Statement → Prop
  | bind name value => isName name.text ∧ value.plain
  | giveBack value => value.plain
  | part before value after => Separate before ∧ value.plain ∧ ∃ c ∈ after.toList.head?, stops c
  | raw _ => True

theorem ofText_statement {s : Statement} (h : s.Plain) : ofText s.text = s.tokens := by
  have hsemicolon : Separate ";" := fun _ => rfl
  cases s with
  | bind name value =>
    obtain ⟨hname, hvalue⟩ := h
    have hlet : Separate "let " := fun _ => rfl
    have hequal : Separate " = " := fun _ => rfl
    have hbound := hlet.lexesTo
      ((lexesTo_name hname).append hequal ⟨' ', rfl, rfl⟩ (lexesTo_code hvalue))
    have hline := (hbound.separate hsemicolon ⟨';', rfl, rfl⟩).ofText_eq
    simp only [Statement.text, ← String.append_assoc] at hline ⊢
    rw [hline]
    rfl
  | giveBack value =>
    have hreturn : Separate "return " := fun _ => rfl
    have hline := ((hreturn.lexesTo (lexesTo_code h)).separate hsemicolon ⟨';', rfl, rfl⟩).ofText_eq
    exact hline
  | part before value after =>
    obtain ⟨hbefore, hvalue, c, hc, hstop⟩ := h
    obtain ⟨cs, hcs⟩ := List.head?_eq_some_iff.1 hc
    simp only [Statement.text, Statement.tokens, ofText, String.toList_append, List.append_assoc]
    rw [hbefore, lexesTo_code hvalue _ (by simp [hcs, hstop])]
    rfl
  | raw text => rfl

/-- The first line of a loop; the count and its suffix are one word. -/
theorem ofText_loop (n : ℕ) : ofText ("for (var i = 0u; i < " ++ toString n ++ "u; i++) \x7b") =
    ofText "for (var i = 0u; i < " ++ .word (toString n ++ "u") :: ofText "; i++) \x7b" := by
  have hbefore : Separate "for (var i = 0u; i < " := fun _ => rfl
  have hafter : Separate "; i++) \x7b" := fun _ => rfl
  have hcount : LexesTo (toString n ++ "u") [.word (toString n ++ "u")] := by
    intro rest hrest
    have hchars : ∀ c ∈ (toString n ++ "u").toList, isWordChar c := by
      rw [String.toList_append, List.forall_mem_append]
      exact ⟨isWordChar_digits n, List.forall_mem_singleton.2 rfl⟩
    have hword := scan_word (by simp) (joins_of_isWordChar hchars)
      fun c hc => continues_of_stops (hrest c hc) _
    rwa [String.ofList_toList] at hword
  have hu : "u; i++) \x7b" = "u" ++ "; i++) \x7b" := by decide
  have hline := ((hbefore.lexesTo hcount).separate hafter ⟨';', rfl, rfl⟩).ofText_eq
  simp only [hu, String.append_assoc] at hline ⊢
  rw [hline]
  simp

theorem scan_blanks (n : ℕ) (rest : List Char) :
    scan false [] (List.replicate n ' ' ++ rest) = scan false [] rest := by
  induction n with
  | zero => rfl
  | succ n ih => exact ih

theorem ofText_lineText {line : Line} (h : line.statement.Plain) (s : String) :
    ofText (line.text ++ s) = line.statement.tokens ++ ofText s := by
  rw [Line.text, ofText_line, ← ofText_statement h]
  simp only [ofText, String.toList_append, String.toList_ofList]
  rw [scan_blanks]

theorem ofText_lines {lines : List Line} (h : ∀ line ∈ lines, line.statement.Plain) (s : String) :
    ofText (String.join (lines.map Line.text) ++ s) =
      lines.flatMap (·.statement.tokens) ++ ofText s := by
  induction lines with
  | nil => simp
  | cons line rest ih =>
    rw [List.forall_mem_cons] at h
    rw [List.map_cons, String.join_cons, String.append_assoc, ofText_lineText h.1, ih h.2]
    simp

/-! ## Functions -/

/-- What follows a function's name on its first line. -/
def signature (parameters : List Parameter) (result : String) : String :=
  "(" ++ separated ", " (parameters.map fun p => p.name ++ ": " ++ p.type) ++ ") -> " ++ result ++
    " \x7b"

namespace Function

/-- The tokens of a function behind its name. -/
def inner (f : Function) : List Token :=
  ofText (signature f.parameters f.result) ++ f.body.flatMap (·.statement.tokens) ++ [.sign '\x7d']

/-- The tokens of a function. -/
def tokens (f : Function) : List Token := .word "fn" :: .word f.name.text :: f.inner

def Plain (f : Function) : Prop := ∀ line ∈ f.body, line.statement.Plain

end Function

theorem Function.text_append (f : Function) (s : String) :
    f.text ++ s = "" ++ "\n" ++ ("fn " ++ (f.name.text ++ signature f.parameters f.result) ++ "\n" ++
      (String.join (f.body.map Line.text) ++ ("\x7d" ++ "\n" ++ s))) := by
  have hbegin : "\nfn " = "" ++ "\n" ++ "fn " := by decide
  have hbrace : " \x7b\n" = " \x7b" ++ "\n" := by decide
  have hend : "\x7d\n" = "\x7d" ++ "\n" := by decide
  rw [Function.text, signature, hbegin, hbrace, hend]
  simp only [String.append_assoc]

theorem ofText_functionText {f : Function} (h : f.Plain) (s : String) :
    ofText (f.text ++ s) = f.tokens ++ ofText s := by
  have hfn : Separate "fn " := fun _ => rfl
  have hname : scan false [] (f.name.text.toList ++ (signature f.parameters f.result).toList) =
      .word f.name.text :: ofText (signature f.parameters f.result) := by
    refine scan_name (isName_functionName _) fun c hc => .inl ?_
    simp only [signature, String.toList_append, List.append_assoc] at hc
    cases hc
    rfl
  have hhead : ofText ("fn " ++ (f.name.text ++ signature f.parameters f.result)) =
      .word "fn" :: .word f.name.text :: ofText (signature f.parameters f.result) := by
    simp only [ofText, String.toList_append]
    rw [hfn, hname]
    rfl
  have hopen : ofText "" = [] := rfl
  have hclose : ofText "\x7d" = [.sign '\x7d'] := rfl
  rw [Function.text_append, ofText_line, ofText_line, ofText_lines h, ofText_line, hopen, hclose,
    hhead, Function.tokens, Function.inner]
  simp only [List.append_assoc, List.nil_append, List.cons_append]

theorem ofText_functionsText {functions : List Function} (h : ∀ f ∈ functions, f.Plain)
    (s : String) :
    ofText (functionsText functions ++ s) = functions.flatMap Function.tokens ++ ofText s := by
  unfold functionsText
  induction functions with
  | nil => simp
  | cons f rest ih =>
    rw [List.forall_mem_cons] at h
    rw [List.map_cons, String.join_cons, String.append_assoc, ofText_functionText h.1, ih h.2]
    simp

/-! ## Generated functions -/

theorem plain_vector (v : Vec3 Word) : (Code.vector v).plain := by
  unfold Code.vector
  split <;> rfl

theorem plain_varCode (v : Var) : (varCode v).plain := by
  cases v <;> decide

section
variable {α : Type} {ident : α → Ident}

theorem plain_unaryCode (f : Unary) {i : Ident} (h : isName i.text) : (unaryCode f (.name i)).plain := by
  cases f <;> simp [unaryCode, Code.builtin, Code.splat, Code.plain, Code.plainList, h]

theorem plain_binaryCode (f : Binary) {i j : Ident} (hi : isName i.text) (hj : isName j.text) :
    (binaryCode f (.name i) (.name j)).plain := by
  cases f <;> simp [binaryCode, Code.builtin, Code.splat, Code.plain, Code.plainList, hi, hj]

theorem plain_opCode (h : ∀ a, isName (ident a).text) (op : Op Word α) :
    (opCode (fun a => .name (ident a)) op).plain := by
  have hx : isName "x" := by decide
  cases op with
  | var v => exact plain_varCode v
  | constant c => exact plain_vector c
  | unary f a => exact plain_unaryCode f (h a)
  | binary f a b => exact plain_binaryCode f (h a) (h b)
  | component a axis =>
    have hletter : isName (String.singleton axis.letter) := by cases axis <;> decide
    simp [opCode, Code.builtin, Code.splat, Code.plain, Code.plainList, h, hletter]
  | _ => simp [opCode, Code.builtin, Code.splat, Code.first, Code.plain, Code.plainList, h, hx]

end

section
variable (nodes : Array Node)

theorem plain_nodeCode (h : Handle) : (nodeCode nodes h).plain := isName_node _

theorem plain_binding (h : Handle) : (binding nodes h).statement.Plain := by
  refine ⟨isName_node _, ?_⟩
  split
  · exact plain_opCode (fun a => isName_node _) _
  · exact plain_nodeCode nodes h

theorem plain_first_nodeCode (h : Handle) : (nodeCode nodes h).first.plain := by
  rw [nodeCode, Code.first, Code.plain, nodeIdent, isName_node]
  decide

theorem plain_materialCode (m : Material Handle) : (materialCode nodes m).plain := by
  simp [materialCode, Code.builtin, Code.plain, Code.plainList, plain_nodeCode,
    plain_first_nodeCode]

theorem plain_frameCode (camera : Camera Handle) (air : Material Handle) :
    (frameCode nodes camera air).plain := by
  simp [frameCode, Code.builtin, Code.plain, Code.plainList, plain_nodeCode, plain_first_nodeCode,
    plain_materialCode]

theorem plain_bindings {order : Array Handle} {value : Code} (h : value.plain) :
    ∀ line ∈ bindings nodes order ++ [⟨1, .giveBack value⟩], line.statement.Plain := by
  intro line hline
  rcases List.mem_append.1 hline with hline | hline
  · obtain ⟨a, -, rfl⟩ := List.mem_map.1 hline
    exact plain_binding nodes a
  · rw [List.mem_singleton.1 hline]
    exact h

theorem plain_distanceFunction (e : EntityProgram) : (distanceFunction nodes e).Plain :=
  plain_bindings nodes (plain_first_nodeCode nodes _)

theorem plain_materialFunction (e : EntityProgram) : (materialFunction nodes e).Plain :=
  plain_bindings nodes (plain_materialCode nodes _)

theorem plain_frameFunction (frame : FrameProgram) : (frameFunction nodes frame).Plain :=
  plain_bindings nodes (plain_frameCode nodes _ _)

end

theorem plain_cheapTap (id : EntityId) {lanes after : String} (hlanes : isName lanes)
    (hafter : ∃ c ∈ after.toList.head?, stops c) : (cheapTap id lanes after).statement.Plain := by
  refine ⟨fun _ => rfl, ?_, hafter⟩
  simp [distanceAt, Code.named, Code.plain, Code.plainList, Ident.text, hlanes]
  decide

theorem plain_centralDifference (id : EntityId) {lanes after : String} (hlanes : isName lanes)
    (hafter : ∃ c ∈ after.toList.head?, stops c) :
    (centralDifference id lanes after).statement.Plain := by
  refine ⟨fun _ => rfl, ?_, hafter⟩
  simp [distanceAt, Code.named, Code.plain, Code.plainList, Ident.text, hlanes]
  decide

theorem plain_normalFunction (cheap : Bool) (id : EntityId) : (normalFunction cheap id).Plain := by
  cases cheap with
  | true =>
    simp only [Function.Plain, normalFunction, if_true, List.forall_mem_cons]
    exact ⟨⟨by decide, by decide⟩, trivial, plain_cheapTap id (by decide) ⟨' ', rfl, rfl⟩,
      plain_cheapTap id (by decide) ⟨' ', rfl, rfl⟩, plain_cheapTap id (by decide) ⟨' ', rfl, rfl⟩,
      plain_cheapTap id (by decide) ⟨')', rfl, rfl⟩, List.forall_mem_nil _⟩
  | false =>
    simp only [Function.Plain, normalFunction, Bool.false_eq_true, if_false, List.forall_mem_cons]
    exact ⟨⟨by decide, by decide⟩, trivial, plain_centralDifference id (by decide) ⟨',', rfl, rfl⟩,
      plain_centralDifference id (by decide) ⟨',', rfl, rfl⟩,
      plain_centralDifference id (by decide) ⟨')', rfl, rfl⟩, List.forall_mem_nil _⟩

theorem plain_cases {ids : List EntityId} {lines : EntityId → List Line} {before after : List Line}
    (hbefore : ∀ line ∈ before, line.statement.Plain)
    (hlines : ∀ id, ∀ line ∈ lines id, line.statement.Plain)
    (hafter : ∀ line ∈ after, line.statement.Plain) :
    ∀ line ∈ before ++ ids.flatMap lines ++ after, line.statement.Plain := by
  simp only [List.forall_mem_append, List.forall_mem_flatMap]
  exact ⟨⟨hbefore, fun id _ => hlines id⟩, hafter⟩

theorem plain_closestFunction (ids : List EntityId) : (closestFunction ids).Plain := by
  have hfirst : ∀ line ∈ [(⟨1, .part "var closest = "
      (.builtin .closest [.int 0, .named "MAX_VALUE"]) ";"⟩ : Line)], line.statement.Plain := by
    rw [List.forall_mem_singleton]
    exact ⟨fun _ => rfl, by decide, ';', rfl, rfl⟩
  refine plain_cases hfirst (fun id => ?_) ?_
  · have hd : isName ("d" ++ toString id) :=
      isName_append (by decide) (by decide) (isWordChar_digits _)
    simp only [closestCase, List.forall_mem_cons]
    refine ⟨⟨hd, ?_⟩, ⟨fun _ => rfl, ?_, ')', rfl, rfl⟩, ⟨fun _ => rfl, ?_, ';', rfl, rfl⟩, trivial,
      List.forall_mem_nil _⟩
    · rfl
    · simp [Code.plain, Code.named, Ident.text, hd]
      decide
    · simp [Code.plain, Code.plainList, Code.builtin, Ident.text, hd]
  · rw [List.forall_mem_singleton]
    exact (by decide : Code.plain (.named "closest"))

theorem plain_dispatch (callee : EntityId → FunctionName) {arguments : List Code} {otherwise : Code}
    (harguments : Code.plainList arguments) (hotherwise : otherwise.plain) (ids : List EntityId) :
    ∀ line ∈ ids.flatMap (idCase callee arguments) ++ [⟨1, .giveBack otherwise⟩],
      line.statement.Plain := by
  refine plain_cases (List.forall_mem_nil _) (fun id => ?_) ?_
  · simp only [idCase, List.forall_mem_cons]
    refine ⟨⟨fun _ => rfl, ?_, ')', rfl, rfl⟩, ?_, trivial, List.forall_mem_nil _⟩
    · rfl
    · exact harguments
  · rw [List.forall_mem_singleton]
    exact hotherwise

theorem plain_mandelbulbFunction (n : UInt32) : (mandelbulbFunction n).Plain := by
  simp only [Function.Plain, mandelbulbFunction, List.forall_mem_cons]
  exact ⟨trivial, trivial, trivial, trivial, trivial, ⟨fun _ => rfl, rfl, ')', rfl, rfl⟩, trivial,
    trivial, trivial, trivial, trivial, trivial, trivial, trivial, trivial, List.forall_mem_nil _⟩

theorem plain_foldFunction (n : UInt32) : (foldFunction n).Plain := by
  simp only [Function.Plain, foldFunction, List.forall_mem_cons]
  exact ⟨⟨by decide, plain_vector _⟩, ⟨by decide, plain_vector _⟩, ⟨by decide, plain_vector _⟩,
    trivial, trivial, trivial, trivial, trivial,
    ⟨fun _ => rfl, plain_vector _, ';', rfl, rfl⟩, trivial, trivial, List.forall_mem_nil _⟩

theorem plain_helpers (nodes : Array Node) : ∀ f ∈ helpers nodes, f.Plain := by
  intro f hf
  rcases List.mem_append.1 hf with hf | hf
  · obtain ⟨n, -, rfl⟩ := List.mem_map.1 hf
    exact plain_mandelbulbFunction n
  · obtain ⟨n, -, rfl⟩ := List.mem_map.1 hf
    exact plain_foldFunction n

theorem plain_procedures (program : Program) : ∀ f ∈ procedures program, f.Plain := by
  have hentity (e : EntityProgram) : ∀ f ∈ entityFunctions program e, f.Plain := by
    simp only [entityFunctions, List.forall_mem_cons]
    exact ⟨plain_distanceFunction _ e, plain_normalFunction _ _, plain_materialFunction _ e,
      List.forall_mem_nil _⟩
  simp only [procedures, List.forall_mem_append, List.forall_mem_flatMap, List.forall_mem_cons]
  refine ⟨fun e _ => hentity e, plain_closestFunction _, ?_, ?_, plain_frameFunction _ _,
    List.forall_mem_nil _⟩
  · exact plain_dispatch _ (by decide) (by decide) _
  · exact plain_dispatch _ (by decide) (by decide) _

/-! ## Modules -/

/-- The functions that are generated for a program. -/
def generated (program : Program) : List Function := helpers program.nodes ++ procedures program

/-- The tokens of a constant. -/
def constantTokens (name type : String) (value : List Token) : List Token :=
  .word "const" :: .word name :: .sign ':' :: .word type :: .sign '=' :: value ++ [.sign ';']

theorem ofText_constantLine {name type value : String} {ts : List Token} (hname : isName name)
    (htype : isName type) (hvalue : LexesTo value ts) (s : String) :
    ofText (constantLine name type value ++ s) = constantTokens name type ts ++ ofText s := by
  have hconst : Separate "const " := fun _ => rfl
  have hcolon : Separate ": " := fun _ => rfl
  have hequal : Separate " = " := fun _ => rfl
  have hsemicolon : Separate ";" := fun _ => rfl
  have htyped := (lexesTo_name hname).append hcolon ⟨':', rfl, rfl⟩ (lexesTo_name htype)
  have hdefined := hconst.lexesTo (htyped.append hequal ⟨' ', rfl, rfl⟩ hvalue)
  have hline := (hdefined.separate hsemicolon ⟨';', rfl, rfl⟩).ofText_eq
  have hend : ";\n" = ";" ++ "\n" := by decide
  have htext : constantLine name type value ++ s = "const " ++ (name ++ ": " ++ type ++ " = " ++
      value) ++ ";" ++ "\n" ++ s := by
    rw [constantLine, hend]
    simp only [String.append_assoc]
  rw [htext, ofText_line, hline]
  rfl

/-- The tokens of the options. -/
def optionTokens (o : Options Word) : List Token :=
  constantTokens "MAX_VALUE" "f32" (numberTokens maxDistance) ++
    constantTokens "EPSILON" "f32" (numberTokens o.epsilon) ++
    constantTokens "NORMAL_EPSILON" "f32" (numberTokens o.normalEpsilon) ++
    constantTokens "STEPS" "i32" [.word (toString o.steps.toNat)] ++
    constantTokens "BOUNCES" "i32" [.word (toString o.bounces.toNat)] ++
    constantTokens "ITERATIONS" "i32" [.word (toString o.iterations.toNat)] ++
    constantTokens "STEP_FACTOR" "f32" (numberTokens o.stepFactor) ++
    constantTokens "MEMORY" "f32" (numberTokens o.memory)

theorem ofText_constants (o : Options Word) (s : String) :
    ofText (constants o ++ s) = optionTokens o ++ ofText s := by
  have hf32 : isName "f32" := by decide
  have hi32 : isName "i32" := by decide
  have hdigits (n : ℕ) : LexesTo (toString n) [.word (toString n)] := fun _ => scan_digits n
  have hblank : ofText ("" ++ "\n" ++ s) = ofText s := ofText_line "" s
  rw [String.empty_append] at hblank
  rw [constants]
  simp only [String.append_assoc]
  rw [ofText_constantLine (by decide) hf32 (lexesTo_number _),
    ofText_constantLine (by decide) hf32 (lexesTo_number _),
    ofText_constantLine (by decide) hf32 (lexesTo_number _),
    ofText_constantLine (by decide) hi32 (hdigits _),
    ofText_constantLine (by decide) hi32 (hdigits _),
    ofText_constantLine (by decide) hi32 (hdigits _),
    ofText_constantLine (by decide) hf32 (lexesTo_number _),
    ofText_constantLine (by decide) hf32 (lexesTo_number _), hblank, optionTokens]
  simp only [List.append_assoc]

theorem ofText_join (lines : List String) (s : String) :
    ofText (String.join (lines.map (· ++ "\n")) ++ s) = lines.flatMap ofText ++ ofText s := by
  induction lines with
  | nil => simp
  | cons line rest ih =>
    rw [List.map_cons, String.join_cons, String.append_assoc, ofText_line, ih]
    simp

/-- The tokens of a module are those of its parts. -/
theorem ofText_moduleText (program : Program) : ofText (moduleText program) =
    optionTokens program.options ++ preludeLines.flatMap ofText ++
      (generated program).flatMap Function.tokens ++
      entryPointLines.flatMap ofText := by
  have hempty : ofText "" = [] := rfl
  have hprelude (s : String) : ofText (prelude ++ s) = preludeLines.flatMap ofText ++ ofText s :=
    ofText_join preludeLines s
  have hfinish : ofText ("" ++ "\n" ++ entryPoint) = entryPointLines.flatMap ofText := by
    have hjoin := ofText_join entryPointLines ""
    rw [String.append_empty, hempty, List.append_nil] at hjoin
    rw [ofText_line, hempty, List.nil_append, entryPoint]
    exact hjoin
  rw [String.empty_append] at hfinish
  rw [moduleText]
  simp only [String.append_assoc]
  rw [ofText_constants, hprelude, ofText_functionsText (plain_helpers _),
    ofText_functionsText (plain_procedures _), hfinish, generated, List.flatMap_append]
  simp only [List.append_assoc]

end SphereTracer.Shader
