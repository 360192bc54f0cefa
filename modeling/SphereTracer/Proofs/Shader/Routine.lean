import SphereTracer.Proofs.Shader.Procedure

/-!
# Reading routines

A routine is a function with variables and conditions.  It is read statement by statement from the
text of its module, a condition together with the statements of its block.  The three functions that
tell entities apart are read back as one group of statements for each id.
-/

namespace SphereTracer.Shader

open Token

/-- A statement of a routine. -/
inductive Instruction where
  /-- Declares what a name stands for, or changes it. -/
  | set (name : String) (value : Phrase)
  | giveBack (value : Phrase)
  | guarded (condition : Phrase) (body : List Instruction)

namespace Instruction

/-- Reads the tokens before a semicolon. -/
def ofTokens : List Token → Option Instruction
  | .word "return" :: ts => (Phrase.ofTokens ts).map .giveBack
  | .word "let" :: .word name :: .sign '=' :: ts => (Phrase.ofTokens ts).map (.set name)
  | .word "var" :: .word name :: .sign '=' :: ts => (Phrase.ofTokens ts).map (.set name)
  | .word name :: .sign '=' :: ts => (Phrase.ofTokens ts).map (.set name)
  | _ => none

/-- Reads a comparison; that of equality is written with two signs. -/
def comparisonOf (ts : List Token) : Option Phrase :=
  match ts.dropWhile (· ≠ .sign '=') with
  | .sign '=' :: .sign '=' :: right =>
    (Phrase.ofTokens (ts.takeWhile (· ≠ .sign '='))).bind fun a =>
      (Phrase.ofTokens right).map (.operation .equal a)
  | _ => Phrase.ofTokens ts

/-- Reads the tokens before the brace that opens a block. -/
def conditionOf : List Token → Option Phrase
  | .word "if" :: .sign '(' :: ts =>
    if ts.getLast? = some (.sign ')') then comparisonOf ts.dropLast else none
  | _ => none

/-- Reads statements up to the brace that closes them, given the conditions of the blocks that are
open and what stands before each of them, innermost first, the statements of the innermost block, and
what has been read of the next one. -/
def readFrom (pending : List (Phrase × List Instruction)) (done : List Instruction)
    (current : List Token) : List Token → Option (List Instruction)
  | [] => none
  | t :: ts =>
    if t = .sign ';' then
      (ofTokens current).bind fun i => readFrom pending (done ++ [i]) [] ts
    else if t = .sign '\x7b' then
      (conditionOf current).bind fun c => readFrom ((c, done) :: pending) [] [] ts
    else if t = .sign '\x7d' then
      if current.isEmpty then
        match pending with
        | [] => some done
        | (c, before) :: pending => readFrom pending (before ++ [.guarded c done]) [] ts
      else none
    else readFrom pending done (current ++ [t]) ts

end Instruction

/-- The names before colons, with the types behind these. -/
def typedNames : List Token → List (String × String)
  | .word name :: .sign ':' :: .word type :: ts => (name, type) :: typedNames ts
  | _ :: ts => typedNames ts
  | [] => []

structure Routine where
  /-- The parameters and their types. -/
  parameters : List (String × String)
  body : List Instruction

/-- Reads what comes behind the name of a function: parameters in parentheses, and statements in
braces. -/
def Routine.ofTokens (ts : List Token) : Option Routine :=
  (Instruction.readFrom [] [] [] ((ts.dropWhile (· ≠ .sign '\x7b')).drop 1)).map
    (⟨typedNames (ts.takeWhile (· ≠ .sign ')')), ·⟩)

/-- The routine of a name, where the source first defines it. -/
def routine? (source name : String) : Option Routine :=
  (behind? name false (ofText source)).bind Routine.ofTokens

/-! ## Statements -/

namespace Instruction

/-- Whether tokens neither end a statement nor open or close a block. -/
def Inline (ts : List Token) : Prop := ∀ x, .sign x ∈ ts → x ∈ '=' :: codeSigns

theorem Inline.append {ts ts' : List Token} (h : Inline ts) (h' : Inline ts') :
    Inline (ts ++ ts') := by
  intro x hx
  rcases List.mem_append.1 hx with hx | hx
  · exact h x hx
  · exact h' x hx

theorem inline_code {c : Code} (h : c.grouped) : Inline c.tokens := fun _ hx =>
  List.mem_cons_of_mem _ (mem_codeSigns h hx)

theorem not_mem_equal {c : Code} (h : c.grouped) : .sign '=' ∉ c.tokens := fun hmem =>
  absurd (mem_codeSigns h hmem) (by decide)

theorem readFrom_inline {ts : List Token} (h : Inline ts) (pending : List (Phrase × List Instruction))
    (done : List Instruction) (current rest : List Token) :
    readFrom pending done current (ts ++ rest) = readFrom pending done (current ++ ts) rest := by
  induction ts generalizing current with
  | nil => rw [List.nil_append, List.append_nil]
  | cons t ts ih =>
    have hsign {x : Char} (hx : x ∉ '=' :: codeSigns) : t ≠ .sign x := fun heq =>
      hx (h x (heq ▸ List.mem_cons_self))
    rw [List.cons_append, readFrom.eq_def]
    dsimp only
    rw [if_neg (hsign (by decide)), if_neg (hsign (by decide)), if_neg (hsign (by decide)),
      ih fun x hx => h x (List.mem_cons_of_mem _ hx), List.append_assoc]
    rfl

theorem readFrom_semicolon (pending : List (Phrase × List Instruction)) (done : List Instruction)
    (current rest : List Token) : readFrom pending done current (.sign ';' :: rest) =
      (ofTokens current).bind fun i => readFrom pending (done ++ [i]) [] rest := rfl

theorem readFrom_open (pending : List (Phrase × List Instruction)) (done : List Instruction)
    (current rest : List Token) : readFrom pending done current (.sign '\x7b' :: rest) =
      (conditionOf current).bind fun c => readFrom ((c, done) :: pending) [] [] rest := rfl

/-- Tokens that are read as statements, wherever they stand. -/
def Reads (ts : List Token) (l : List Instruction) : Prop :=
  ∀ pending done rest, readFrom pending done [] (ts ++ rest) = readFrom pending (done ++ l) [] rest

theorem Reads.append {ts ts' : List Token} {l l' : List Instruction} (h : Reads ts l)
    (h' : Reads ts' l') : Reads (ts ++ ts') (l ++ l') := by
  intro pending done rest
  rw [List.append_assoc, h, h', List.append_assoc]

theorem Reads.flatMap {α : Type} {tokens : α → List Token} {instructions : α → List Instruction}
    {l : List α} (h : ∀ a ∈ l, Reads (tokens a) (instructions a)) :
    Reads (l.flatMap tokens) (l.flatMap instructions) := by
  induction l with
  | nil =>
    intro pending done rest
    rw [List.flatMap_nil, List.flatMap_nil, List.nil_append, List.append_nil]
  | cons a l ih =>
    rw [List.forall_mem_cons] at h
    exact h.1.append (ih h.2)

theorem reads_statement {ts : List Token} (hinline : Inline ts) {i : Instruction}
    (h : ofTokens ts = some i) : Reads (ts ++ [.sign ';']) [i] := by
  intro pending done rest
  rw [List.append_assoc, readFrom_inline hinline, List.nil_append, List.singleton_append,
    readFrom_semicolon, h]
  rfl

theorem reads_guarded {ts body : List Token} (hinline : Inline ts) {c : Phrase}
    (h : conditionOf ts = some c) {l : List Instruction} (hbody : Reads body l) :
    Reads (ts ++ .sign '\x7b' :: body ++ [.sign '\x7d']) [.guarded c l] := by
  intro pending done rest
  -- What stood before the block waits with its condition until the brace closes it.
  have hclose : readFrom ((c, done) :: pending) l [] (.sign '\x7d' :: rest) =
      readFrom pending (done ++ [.guarded c l]) [] rest := rfl
  rw [List.append_assoc, List.append_assoc, readFrom_inline hinline, List.nil_append, List.cons_append,
    readFrom_open, h, Option.bind_some, hbody, List.nil_append, List.singleton_append, hclose]

/-! ## Conditions -/

theorem takeWhile_equal {ts us : List Token} (h : .sign '=' ∉ ts) :
    (ts ++ .sign '=' :: us).takeWhile (· ≠ .sign '=') = ts := by
  rw [List.takeWhile_append_of_pos, List.takeWhile_cons_of_neg (by simp), List.append_nil]
  exact fun t ht => decide_eq_true fun heq => h (heq ▸ ht)

theorem dropWhile_equal {ts us : List Token} (h : .sign '=' ∉ ts) :
    (ts ++ .sign '=' :: us).dropWhile (· ≠ .sign '=') = .sign '=' :: us := by
  rw [List.dropWhile_append_of_pos, List.dropWhile_cons_of_neg (by simp)]
  exact fun t ht => decide_eq_true fun heq => h (heq ▸ ht)

theorem comparisonOf_equal {a b : Code} (ha : a.grouped) (hb : b.grouped) :
    comparisonOf (Code.operation .equal a b).tokens = some (Code.operation .equal a b).phrase := by
  have htokens : (Code.operation .equal a b).tokens =
      a.tokens ++ .sign '=' :: (.sign '=' :: b.tokens) := by
    rw [Code.tokens, List.append_assoc]
    rfl
  unfold comparisonOf
  rw [htokens, dropWhile_equal (not_mem_equal ha), takeWhile_equal (not_mem_equal ha)]
  show ((Phrase.ofTokens a.tokens).bind fun x =>
    (Phrase.ofTokens b.tokens).map (Phrase.operation .equal x)) = _
  rw [Phrase.ofTokens_code ha, Phrase.ofTokens_code hb]
  rfl

theorem comparisonOf_code {c : Code} (h : c.grouped) : comparisonOf c.tokens = some c.phrase := by
  have hdrop : c.tokens.dropWhile (· ≠ .sign '=') = [] := by
    rw [List.dropWhile_eq_nil_iff]
    exact fun t ht => decide_eq_true fun heq => not_mem_equal h (heq ▸ ht)
  rw [comparisonOf, hdrop]
  exact Phrase.ofTokens_code h

theorem conditionOf_parenthesized {ts : List Token} {c : Phrase} (h : comparisonOf ts = some c) :
    conditionOf (.word "if" :: .sign '(' :: ts ++ [.sign ')']) = some c := by
  rw [List.cons_append, List.cons_append, conditionOf, if_pos List.getLast?_concat,
    List.dropLast_concat, h]

end Instruction

/-! ## Generated routines -/

/-- What compares one entity with the nearest so far. -/
def closestInstructions (id : EntityId) : List Instruction :=
  let d : Code := .named ("d" ++ toString id)
  [.set ("d" ++ toString id) (Code.builtin .abs [distanceAt id (.named "p")]).phrase,
    .guarded (Code.operation .less d (.access (.named "closest") "dist")).phrase
      [.set "closest" (Code.builtin .closest [.int id.raw, d]).phrase]]

/-- What answers for one entity by a function of its own. -/
def idInstruction (callee : EntityId → FunctionName) (arguments : List Code) (id : EntityId) :
    Instruction :=
  .guarded (Code.operation .equal (.named "id") (.int id.raw)).phrase
    [.giveBack (Code.call (.generated (callee id)) arguments).phrase]

namespace Instruction

theorem reads_bind {name : Ident} {value : Code} (h : value.grouped) :
    Reads (Statement.bind name value).tokens [.set name.text value.phrase] := by
  have hinline : Inline (.word "let" :: .word name.text :: .sign '=' :: value.tokens) := by
    have hfront : Inline [.word "let", .word name.text, .sign '='] := by simp [Inline]
    exact hfront.append (inline_code h)
  have hreads : ofTokens (.word "let" :: .word name.text :: .sign '=' :: value.tokens) =
      some (.set name.text value.phrase) := by
    rw [ofTokens, Phrase.ofTokens_code h]
    rfl
  exact reads_statement hinline hreads

theorem reads_giveBack {value : Code} (h : value.grouped) :
    Reads (Statement.giveBack value).tokens [.giveBack value.phrase] := by
  have hinline : Inline (.word "return" :: value.tokens) := by
    have hfront : Inline [.word "return"] := by simp [Inline]
    exact hfront.append (inline_code h)
  have hreads : ofTokens (.word "return" :: value.tokens) = some (.giveBack value.phrase) := by
    rw [ofTokens, Phrase.ofTokens_code h]
    rfl
  exact reads_statement hinline hreads

/-- A new value for the nearest entity, with or without its declaration. -/
theorem reads_closest {before : String} {value : Code} (h : value.grouped)
    (hbefore : ofText before = [.word "closest", .sign '='] ∨
      ofText before = [.word "var", .word "closest", .sign '=']) :
    Reads (Statement.part before value ";").tokens [.set "closest" value.phrase] := by
  have hafter : ofText ";" = [.sign ';'] := by decide
  have hinline : Inline (ofText before ++ value.tokens) := by
    have hfront : Inline (ofText before) := by
      rcases hbefore with hbefore | hbefore <;> simp [hbefore, Inline]
    exact hfront.append (inline_code h)
  have hreads : ofTokens (ofText before ++ value.tokens) = some (.set "closest" value.phrase) := by
    rcases hbefore with hbefore | hbefore
    · rw [hbefore]
      show (Phrase.ofTokens value.tokens).map _ = _
      rw [Phrase.ofTokens_code h]
      rfl
    · rw [hbefore]
      show (Phrase.ofTokens value.tokens).map _ = _
      rw [Phrase.ofTokens_code h]
      rfl
  rw [Statement.tokens, hafter]
  exact reads_statement hinline hreads

/-- A line that opens a block, and the line that closes it. -/
theorem reads_block {condition : Code} (hinline : Inline condition.tokens)
    (h : comparisonOf condition.tokens = some condition.phrase) {body : List Token}
    {l : List Instruction} (hbody : Reads body l) :
    Reads ((Statement.part "if (" condition ") \x7b").tokens ++ body ++ closing.statement.tokens)
      [.guarded condition.phrase l] := by
  have hopen : ofText "if (" = [.word "if", .sign '('] := by decide
  have hafter : ofText ") \x7b" = [.sign ')', .sign '\x7b'] := by decide
  have hclosing : closing.statement.tokens = [.sign '\x7d'] := by decide
  have hfront : Inline (.word "if" :: .sign '(' :: condition.tokens ++ [.sign ')']) := by
    have hif : Inline [.word "if", .sign '('] := by simp [Inline, codeSigns]
    have hend : Inline [.sign ')'] := by simp [Inline, codeSigns]
    exact (hif.append hinline).append hend
  have hreads := reads_guarded hfront (conditionOf_parenthesized h) hbody
  rw [Statement.tokens, hopen, hafter, hclosing]
  simpa using hreads

theorem reads_closestCase (id : EntityId) :
    Reads ((closestCase id).flatMap (·.statement.tokens)) (closestInstructions id) := by
  have hd : isName ("d" ++ toString id) :=
    isName_append (by decide) (by decide) (isWordChar_digits _)
  have hdistance : (Code.builtin .abs [distanceAt id (.named "p")]).grouped := rfl
  have hless : (Code.operation .less (.named ("d" ++ toString id))
      (.access (.named "closest") "dist")).grouped := by
    simp [Code.grouped, Code.named, Ident.text, Code.strength, Operator.strength, hd]
    decide
  have hnearest : (Code.builtin .closest [.int id.raw, .named ("d" ++ toString id)]).grouped := by
    simp [Code.grouped, Code.groupedList, Code.builtin, Code.named, Ident.text, hd]
  have hassign := reads_closest hnearest (.inl (by decide : ofText "closest = " = _))
  have hblock := reads_block (inline_code hless) (comparisonOf_code hless) hassign
  have hlines : (closestCase id).flatMap (·.statement.tokens) =
      (Statement.bind (.named ("d" ++ toString id))
        (.builtin .abs [distanceAt id (.named "p")])).tokens ++
      ((Statement.part "if (" (.operation .less (.named ("d" ++ toString id))
          (.access (.named "closest") "dist")) ") \x7b").tokens ++
        (Statement.part "closest = "
          (.builtin .closest [.int id.raw, .named ("d" ++ toString id)]) ";").tokens ++
        closing.statement.tokens) := by
    simp [closestCase, Code.named]
  rw [hlines]
  exact (reads_bind hdistance).append hblock

theorem reads_idCase (callee : EntityId → FunctionName) {arguments : List Code}
    (h : ∀ f, (Code.call f arguments).grouped) (id : EntityId) :
    Reads ((idCase callee arguments id).flatMap (·.statement.tokens))
      [idInstruction callee arguments id] := by
  have hid : (Code.named "id").grouped := by decide
  have hinline : Inline (Code.operation .equal (.named "id") (.int id.raw)).tokens := by
    simp [Inline, Code.tokens, Code.named, Operator.tokens]
  have hblock := reads_block hinline (comparisonOf_equal hid (b := .int id.raw) rfl)
    (reads_giveBack (h (.generated (callee id))))
  have hlines : (idCase callee arguments id).flatMap (·.statement.tokens) =
      (Statement.part "if (" (.operation .equal (.named "id") (.int id.raw)) ") \x7b").tokens ++
        (Statement.giveBack (.call (.generated (callee id)) arguments)).tokens ++
        closing.statement.tokens := by
    simp [idCase]
  rw [hlines]
  exact hblock

end Instruction

section
variable {program : Program}

/-- A function whose lines are read as statements is read as a routine of them. -/
theorem routine?_eq (hw : program.WellFormed) {f : Function} (hf : f ∈ generated program)
    (hfixed : .word f.name.text ∉ preludeLines.flatMap ofText) {inside result : List Token}
    (hts : ofText (signature f.parameters f.result) =
      inside ++ .sign ')' :: result ++ [.sign '\x7b'])
    (hinside : .sign ')' ∉ inside) (hopen : .sign '\x7b' ∉ inside ++ .sign ')' :: result)
    {parameters : List (String × String)} (hparameters : typedNames inside = parameters)
    {l : List Instruction} (hbody : Instruction.Reads (f.body.flatMap (·.statement.tokens)) l) :
    routine? (moduleText program) f.name.text = some ⟨parameters, l⟩ := by
  obtain ⟨rest, hbehind⟩ := exists_behind? program hw.ascending hf hfixed
  have hend : Instruction.readFrom [] l [] (.sign '\x7d' :: rest) = some l := rfl
  rw [routine?, hbehind, Option.bind_some, Routine.ofTokens, Procedure.takeWhile_inner hts hinside,
    Procedure.dropWhile_inner hts hopen, List.drop_one, List.tail_cons, hbody, List.nil_append, hend,
    hparameters]
  rfl

theorem noTail_calculate : ∀ line ∈ preludeLines,
    noTail (List.isPrefixOf ['c', 'a', 'l', 'c', 'u', 'l', 'a', 't', 'e']) line.toList := by
  unfold preludeLines
  repeat refine List.forall_mem_cons.2 ⟨noTail_ofList (by decide), ?_⟩
  exact List.forall_mem_nil _

/-- No fixed text has a word that begins like the names of the routines. -/
theorem calculate_not_fixed (rest : String) :
    .word ("calculate" ++ rest) ∉ preludeLines.flatMap ofText := by
  intro hmem
  obtain ⟨line, hline, hw⟩ := List.mem_flatMap.1 hmem
  obtain ⟨front, back, heq⟩ := infix_of_word_mem_scan hw
  have hsuffix : ("calculate" ++ rest).toList ++ back <:+ line.toList :=
    ⟨front, by rw [← List.append_assoc, heq, List.nil_append]⟩
  have hfalse := eq_false_of_noTail (noTail_calculate line hline) (by simp) hsuffix
  rw [String.toList_append, List.append_assoc] at hfalse
  have hstart : List.isPrefixOf ['c', 'a', 'l', 'c', 'u', 'l', 'a', 't', 'e']
      ("calculate".toList ++ (rest.toList ++ back)) = true := by
    simp
  exact absurd (hstart.symm.trans hfalse) (by decide)

theorem mem_generated_of_dispatch {f : Function}
    (hf : f ∈ [closestFunction (program.entities.toList.map (·.id)),
      normalDispatch (program.entities.toList.map (·.id)),
      materialDispatch (program.entities.toList.map (·.id))]) : f ∈ generated program := by
  refine List.mem_append_right _ (List.mem_append_right _ ?_)
  exact List.mem_append_left [frameFunction program.nodes program.frame] hf

/-- The search for the nearest entity as it stands in the module. -/
theorem routine?_closest (hw : program.WellFormed) :
    routine? (moduleText program) "calculateClosest" = some ⟨[("p", "vec3<f32>")],
      .set "closest" (Code.builtin .closest [.int 0, .named "MAX_VALUE"]).phrase ::
        (program.entities.toList.map (·.id)).flatMap closestInstructions ++
        [.giveBack (Code.named "closest").phrase]⟩ := by
  have hf : closestFunction (program.entities.toList.map (·.id)) ∈ generated program :=
    mem_generated_of_dispatch List.mem_cons_self
  let inside : List Token := [.sign '(', .word "p", .sign ':', .word "vec3<f32>"]
  let result : List Token := [.sign '-', .sign '>', .word "Closest"]
  have hts : ofText (signature [vectorParameter "p"] "Closest") =
      inside ++ .sign ')' :: result ++ [.sign '\x7b'] := by
    decide
  have hfirst := Instruction.reads_closest
    (show (Code.builtin .closest [.int 0, .named "MAX_VALUE"]).grouped by decide)
    (.inr (by decide : ofText "var closest = " = _))
  have hcases := Instruction.Reads.flatMap (l := program.entities.toList.map (·.id))
    fun id _ => Instruction.reads_closestCase id
  have hlast := Instruction.reads_giveBack (show (Code.named "closest").grouped by decide)
  have hbody := (hfirst.append hcases).append hlast
  refine routine?_eq hw hf (calculate_not_fixed "Closest") hts (by simp [inside])
    (by simp [inside, result]) rfl ?_
  simpa [closestFunction, List.flatMap_assoc] using hbody

/-- A function that tells entities apart by an id, as it stands in the module. -/
theorem routine?_dispatch (hw : program.WellFormed) {f : Function} (hf : f ∈ generated program)
    (hfixed : .word f.name.text ∉ preludeLines.flatMap ofText)
    {callee : EntityId → FunctionName} {arguments : List Code} {otherwise : Code}
    (hbody : f.body = (program.entities.toList.map (·.id)).flatMap (idCase callee arguments) ++
      [⟨1, .giveBack otherwise⟩])
    (harguments : ∀ f, (Code.call f arguments).grouped) (hotherwise : otherwise.grouped)
    {inside result : List Token}
    (hts : ofText (signature f.parameters f.result) =
      inside ++ .sign ')' :: result ++ [.sign '\x7b'])
    (hinside : .sign ')' ∉ inside) (hopen : .sign '\x7b' ∉ inside ++ .sign ')' :: result)
    {parameters : List (String × String)} (hparameters : typedNames inside = parameters) :
    routine? (moduleText program) f.name.text = some ⟨parameters,
      (program.entities.toList.map (·.id)).map (idInstruction callee arguments) ++
        [.giveBack otherwise.phrase]⟩ := by
  have hcases := Instruction.Reads.flatMap (l := program.entities.toList.map (·.id))
    fun id _ => Instruction.reads_idCase callee harguments id
  have hreads := hcases.append (Instruction.reads_giveBack hotherwise)
  refine routine?_eq hw hf hfixed hts hinside hopen hparameters ?_
  rw [hbody, List.flatMap_append, List.flatMap_assoc, List.flatMap_singleton,
    List.map_eq_flatMap (f := idInstruction callee arguments)]
  exact hreads

theorem routine?_normal (hw : program.WellFormed) :
    routine? (moduleText program) "calculateNormal" = some ⟨[("id", "i32"), ("p", "vec3<f32>")],
      (program.entities.toList.map (·.id)).map (idInstruction .normal [.named "p"]) ++
        [.giveBack (Code.splat (.float 0.0)).phrase]⟩ := by
  have hf : normalDispatch (program.entities.toList.map (·.id)) ∈ generated program :=
    mem_generated_of_dispatch (by simp)
  let inside : List Token := [.sign '(', .word "id", .sign ':', .word "i32", .sign ',', .word "p",
    .sign ':', .word "vec3<f32>"]
  let result : List Token := [.sign '-', .sign '>', .word "vec3<f32>"]
  have hts : ofText (signature [⟨"id", "i32"⟩, vectorParameter "p"] "vec3<f32>") =
      inside ++ .sign ')' :: result ++ [.sign '\x7b'] := by
    decide
  exact routine?_dispatch hw hf (calculate_not_fixed "Normal") rfl (fun _ => rfl)
    (by decide) hts (by simp [inside]) (by simp [inside, result]) rfl

theorem routine?_material (hw : program.WellFormed) :
    routine? (moduleText program) "calculateMaterial" = some
      ⟨[("id", "i32"), ("p", "vec3<f32>"), ("n", "vec3<f32>"), ("d", "vec3<f32>")],
      (program.entities.toList.map (·.id)).map
          (idInstruction .material [.named "p", .named "n", .named "d"]) ++
        [.giveBack (Code.builtin .material [.float 0.0, .float 1.0, .float 1.0,
          .named "MAX_VALUE", .splat (.float 0.0), .splat (.float 0.0)]).phrase]⟩ := by
  have hf : materialDispatch (program.entities.toList.map (·.id)) ∈ generated program :=
    mem_generated_of_dispatch (by simp)
  let inside : List Token := [.sign '(', .word "id", .sign ':', .word "i32", .sign ',', .word "p",
    .sign ':', .word "vec3<f32>", .sign ',', .word "n", .sign ':', .word "vec3<f32>", .sign ',',
    .word "d", .sign ':', .word "vec3<f32>"]
  let result : List Token := [.sign '-', .sign '>', .word "Material"]
  have hts : ofText (signature (⟨"id", "i32"⟩ :: materialParameters) "Material") =
      inside ++ .sign ')' :: result ++ [.sign '\x7b'] := by
    decide
  exact routine?_dispatch hw hf (calculate_not_fixed "Material") rfl (fun _ => rfl)
    (by decide) hts (by simp [inside]) (by simp [inside, result]) rfl

end

end SphereTracer.Shader
