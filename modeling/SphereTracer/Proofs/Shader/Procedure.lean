import SphereTracer.Proofs.Shader.Defined
import SphereTracer.Proofs.Shader.Phrase

/-!
# Reading procedures

A function that only binds names and gives back a value is read line by line from the text of its
module.  The functions that are generated from a program's orders are read back as the bindings of
their nodes.
-/

namespace SphereTracer.Shader

open Token

/-- A line of a procedure. -/
inductive Sentence where
  | bind (name : String) (value : Phrase)
  | giveBack (value : Phrase)

/-- Reads the tokens before a semicolon. -/
def Sentence.ofTokens : List Token → Option Sentence
  | .word "return" :: ts => (Phrase.ofTokens ts).map .giveBack
  | .word "let" :: .word name :: .sign '=' :: ts => (Phrase.ofTokens ts).map (.bind name)
  | _ => none

structure Procedure where
  parameters : List String
  sentences : List Sentence

namespace Procedure

/-- Reads sentences, each up to its semicolon, given what has been read of the first. -/
def sentencesOf (current : List Token) : List Token → Option (List Sentence)
  | [] => if current.isEmpty then some [] else none
  | t :: ts =>
    if t = .sign ';' then
      (Sentence.ofTokens current).bind fun s => (sentencesOf [] ts).map (s :: ·)
    else sentencesOf (current ++ [t]) ts

/-- The names before colons. -/
def parametersOf : List Token → List String
  | .word name :: .sign ':' :: ts => name :: parametersOf ts
  | _ :: ts => parametersOf ts
  | [] => []

/-- Reads what comes behind the name of a function: parameters in parentheses, and sentences in
braces. -/
def ofTokens (ts : List Token) : Option Procedure :=
  let body := ((ts.dropWhile (· ≠ .sign '\x7b')).drop 1).takeWhile (· ≠ .sign '\x7d')
  (sentencesOf [] body).map (⟨parametersOf (ts.takeWhile (· ≠ .sign ')')), ·⟩)

end Procedure

/-- The procedure of a name, where the source first defines it. -/
def procedure? (source name : String) : Option Procedure :=
  (behind? name false (ofText source)).bind Procedure.ofTokens

/-! ## Sentences -/

/-- The signs of expressions. -/
def codeSigns : List Char := ['-', '+', '*', '/', '<', '.', ',', '(', ')']

mutual

theorem mem_codeSigns : ∀ {c : Code}, c.grouped → ∀ {x : Char}, .sign x ∈ c.tokens → x ∈ codeSigns
  | .name _, _, x, hx => by simp [Code.tokens] at hx
  | .float w, h, x, hx => by
    rw [Code.grouped] at h
    rw [Code.tokens, numberTokens, if_pos h] at hx
    split at hx <;> simp at hx
    rw [hx]
    decide
  | .int _, _, x, hx => by simp [Code.tokens] at hx
  | .access (.name _) _, _, x, hx => by
    simp [Code.tokens] at hx
    rw [hx]
    decide
  | .neg a, h, x, hx => by
    rw [Code.grouped, Bool.and_eq_true] at h
    rw [Code.tokens, List.mem_cons, Token.sign.injEq] at hx
    rcases hx with rfl | hx
    · decide
    · exact mem_codeSigns h.1 hx
  | .operation f a b, h, x, hx => by
    simp only [Code.grouped, Bool.and_eq_true, decide_eq_true_eq] at h
    obtain ⟨⟨⟨⟨ha, hb⟩, hf⟩, -⟩, -⟩ := h
    rw [Code.tokens, List.mem_append, List.mem_append] at hx
    rcases hx with (hx | hx) | hx
    · exact mem_codeSigns ha hx
    · cases f <;> simp [Operator.tokens] at hx hf <;> rw [hx] <;> decide
    · exact mem_codeSigns hb hx
  | .call f arguments, h, x, hx => by
    rw [Code.grouped, Bool.and_eq_true] at h
    simp only [Code.tokens, List.mem_append, List.mem_cons, List.not_mem_nil, or_false, reduceCtorEq,
      false_or, Token.sign.injEq] at hx
    rcases hx with (rfl | hx) | rfl
    · decide
    · exact mem_codeSigns_list h.2 hx
    · decide

theorem mem_codeSigns_list : ∀ {l : List Code}, Code.groupedList l → ∀ {x : Char},
    .sign x ∈ Code.tokensList l → x ∈ codeSigns
  | [], _, x, hx => by simp [Code.tokensList] at hx
  | [a], h, x, hx => by
    rw [Code.groupedList, Bool.and_eq_true] at h
    exact mem_codeSigns h.1 hx
  | a :: b :: l, h, x, hx => by
    rw [Code.groupedList, Bool.and_eq_true] at h
    rw [Code.tokensList, List.mem_append, List.mem_cons, Token.sign.injEq] at hx
    rcases hx with hx | rfl | hx
    · exact mem_codeSigns h.1 hx
    · decide
    · exact mem_codeSigns_list h.2 hx

end

/-- The sentence that a statement makes. -/
def Statement.sentence? : Statement → Option Sentence
  | bind name value => some (.bind name.text value.phrase)
  | giveBack value => some (.giveBack value.phrase)
  | _ => none

/-- Whether a statement's expression is read as it is meant. -/
def Statement.Grouped : Statement → Prop
  | bind _ value => value.grouped
  | giveBack value => value.grouped
  | _ => False

/-- The tokens of a statement before its semicolon make its sentence. -/
theorem exists_sentence {s : Statement} (h : s.Grouped) : ∃ ts sentence,
    s.tokens = ts ++ [.sign ';'] ∧ (∀ x, .sign x ∈ ts → x ≠ ';' ∧ x ≠ '\x7d') ∧
      Sentence.ofTokens ts = some sentence ∧ s.sentence? = some sentence := by
  have hsigns {x : Char} (hx : x ∈ '=' :: codeSigns) : x ≠ ';' ∧ x ≠ '\x7d' := by
    have hall : ∀ x ∈ '=' :: codeSigns, x ≠ ';' ∧ x ≠ '\x7d' := by
      simp [codeSigns]
    exact hall x hx
  cases s with
  | bind name value =>
    refine ⟨.word "let" :: .word name.text :: .sign '=' :: value.tokens, _, rfl, fun x hx => hsigns ?_,
      ?_, rfl⟩
    · simp only [List.mem_cons, reduceCtorEq, false_or, Token.sign.injEq] at hx
      exact List.mem_cons.2 (hx.imp id fun hx => mem_codeSigns h hx)
    · rw [Sentence.ofTokens, Phrase.ofTokens_code h]
      rfl
  | giveBack value =>
    refine ⟨.word "return" :: value.tokens, _, rfl, fun x hx => hsigns ?_, ?_, rfl⟩
    · simp only [List.mem_cons, reduceCtorEq, false_or] at hx
      exact List.mem_cons_of_mem _ (mem_codeSigns h hx)
    · rw [Sentence.ofTokens, Phrase.ofTokens_code h]
      rfl
  | _ => exact absurd h id

namespace Procedure

theorem sentencesOf_append {ts : List Token} (h : .sign ';' ∉ ts) (current us : List Token) :
    sentencesOf current (ts ++ .sign ';' :: us) =
      (Sentence.ofTokens (current ++ ts)).bind fun s => (sentencesOf [] us).map (s :: ·) := by
  -- What has been read of the sentence grows with each token.
  induction ts generalizing current with
  | nil => rw [List.nil_append, sentencesOf, if_pos rfl, List.append_nil]
  | cons t ts ih =>
    rw [List.mem_cons, not_or] at h
    rw [List.cons_append, sentencesOf, if_neg (Ne.symm h.1), ih h.2, List.append_assoc]
    rfl

theorem sentencesOf_lines {lines : List Line} (h : ∀ line ∈ lines, line.statement.Grouped) :
    sentencesOf [] (lines.flatMap (·.statement.tokens)) =
      some (lines.filterMap (·.statement.sentence?)) := by
  induction lines with
  | nil => rfl
  | cons line rest ih =>
    rw [List.forall_mem_cons] at h
    obtain ⟨ts, sentence, htokens, hsigns, hreads, hsentence⟩ := exists_sentence h.1
    have hsemicolon : .sign ';' ∉ ts := fun hmem => (hsigns _ hmem).1 rfl
    rw [List.flatMap_cons, htokens, List.append_assoc, List.singleton_append,
      sentencesOf_append hsemicolon, List.nil_append, hreads, ih h.2, List.filterMap_cons,
      hsentence]
    rfl

theorem not_mem_lines {lines : List Line} (h : ∀ line ∈ lines, line.statement.Grouped) :
    .sign '\x7d' ∉ lines.flatMap (·.statement.tokens) := by
  rw [List.mem_flatMap]
  rintro ⟨line, hline, hmem⟩
  obtain ⟨ts, -, htokens, hsigns, -⟩ := exists_sentence (h line hline)
  rw [htokens, List.mem_append] at hmem
  rcases hmem with hmem | hmem
  · exact (hsigns _ hmem).2 rfl
  · exact absurd (List.mem_singleton.1 hmem) (by decide)

/-- The tokens lead from parameters in parentheses to the brace that opens a body. -/
def Opens (parameters : List String) (ts : List Token) : Prop :=
  ∃ inside result, ts = inside ++ .sign ')' :: result ++ [.sign '\x7b'] ∧ .sign ')' ∉ inside ∧
    .sign '\x7b' ∉ inside ++ .sign ')' :: result ∧ parametersOf inside = parameters

section
variable {f : Function} {inside result : List Token}
  (hts : ofText (signature f.parameters f.result) =
    inside ++ .sign ')' :: result ++ [.sign '\x7b'])

include hts

/-- The parameters of a function come before its first closing parenthesis. -/
theorem takeWhile_inner (hinside : .sign ')' ∉ inside) (rest : List Token) :
    (f.inner ++ rest).takeWhile (· ≠ .sign ')') = inside := by
  have hinner : f.inner ++ rest = inside ++ .sign ')' :: (result ++ .sign '\x7b' ::
      (f.body.flatMap (·.statement.tokens) ++ .sign '\x7d' :: rest)) := by
    rw [Function.inner, hts]
    simp
  rw [hinner, List.takeWhile_append_of_pos, List.takeWhile_cons_of_neg (by simp), List.append_nil]
  exact fun t ht => decide_eq_true fun heq => hinside (heq ▸ ht)

/-- The first opening brace opens the body of a function. -/
theorem dropWhile_inner (hopen : .sign '\x7b' ∉ inside ++ .sign ')' :: result)
    (rest : List Token) : (f.inner ++ rest).dropWhile (· ≠ .sign '\x7b') = .sign '\x7b' ::
      (f.body.flatMap (·.statement.tokens) ++ .sign '\x7d' :: rest) := by
  have hinner : f.inner ++ rest = (inside ++ .sign ')' :: result) ++ .sign '\x7b' ::
      (f.body.flatMap (·.statement.tokens) ++ .sign '\x7d' :: rest) := by
    rw [Function.inner, hts]
    simp
  rw [hinner, List.dropWhile_append_of_pos, List.dropWhile_cons_of_neg (by simp)]
  exact fun t ht => decide_eq_true fun heq => hopen (heq ▸ ht)

end

theorem ofTokens_inner {f : Function} (h : ∀ line ∈ f.body, line.statement.Grouped)
    {parameters : List String} (hopens : Opens parameters (ofText (signature f.parameters f.result)))
    (rest : List Token) : ofTokens (f.inner ++ rest) =
      some ⟨parameters, f.body.filterMap (·.statement.sentence?)⟩ := by
  obtain ⟨inside, result, hts, hinside, hopen, rfl⟩ := hopens
  have hbody : (f.body.flatMap (·.statement.tokens) ++ .sign '\x7d' :: rest).takeWhile
      (· ≠ .sign '\x7d') = f.body.flatMap (·.statement.tokens) := by
    rw [List.takeWhile_append_of_pos, List.takeWhile_cons_of_neg (by simp), List.append_nil]
    exact fun t ht => decide_eq_true fun heq => not_mem_lines h (heq ▸ ht)
  rw [ofTokens, takeWhile_inner hts hinside, dropWhile_inner hts hopen, List.drop_one, List.tail_cons,
    hbody, sentencesOf_lines h]
  rfl

end Procedure

/-! ## Generated procedures -/

/-- The sentences of an order's bindings. -/
def bindingSentence (nodes : Array Node) (h : Handle) : Sentence :=
  .bind (nodeIdent nodes h).text
    (match nodes[h.index]? with
      | some node => (opCode (nodeCode nodes) node.op).phrase
      | none => (nodeCode nodes h).phrase)

/-- A function that binds the nodes of an order and gives back a value, as it is read. -/
def orderSentences (nodes : Array Node) (order : Array Handle) (value : Code) : List Sentence :=
  order.toList.map (bindingSentence nodes) ++ [.giveBack value.phrase]

theorem grouped_bindings {nodes : Array Node} {order : Array Handle} {value : Code}
    (hfinite : ∀ node ∈ nodes, node.op.Finite) (hvalue : value.grouped) :
    ∀ line ∈ bindings nodes order ++ [⟨1, .giveBack value⟩], line.statement.Grouped := by
  intro line hline
  rcases List.mem_append.1 hline with hline | hline
  · obtain ⟨h, -, rfl⟩ := List.mem_map.1 hline
    change Code.grouped _
    split
    · next node hnode =>
      exact grouped_opCode (fun a => isName_node _) (hfinite node (Array.mem_of_getElem? hnode))
    · exact isName_node _
  · rw [List.mem_singleton.1 hline]
    exact hvalue

theorem filterMap_bindings (nodes : Array Node) (order : Array Handle) (value : Code) :
    (bindings nodes order ++ [(⟨1, .giveBack value⟩ : Line)]).filterMap
        (fun line => line.statement.sentence?) = orderSentences nodes order value := by
  have hbinding (h : Handle) :
      (binding nodes h).statement.sentence? = some (bindingSentence nodes h) := by
    rw [binding, bindingSentence]
    cases nodes[h.index]? <;> rfl
  have hbindings : (bindings nodes order).filterMap (fun line => line.statement.sentence?) =
      order.toList.map (bindingSentence nodes) := by
    rw [bindings, List.filterMap_map, ← List.filterMap_eq_map]
    exact List.filterMap_congr fun h _ => hbinding h
  rw [List.filterMap_append, hbindings]
  rfl

section
variable {program : Program}

/-- A function that binds the nodes of an order is read back from its module. -/
theorem procedure?_eq (hw : program.WellFormed) {f : Function} (hf : f ∈ generated program)
    (hfixed : .word f.name.text ∉ preludeLines.flatMap ofText) {order : Array Handle} {value : Code}
    (hbody : f.body = bindings program.nodes order ++ [⟨1, .giveBack value⟩])
    (hvalue : value.grouped) {parameters : List String}
    (hopens : Procedure.Opens parameters (ofText (signature f.parameters f.result))) :
    procedure? (moduleText program) f.name.text =
      some ⟨parameters, orderSentences program.nodes order value⟩ := by
  obtain ⟨rest, hbehind⟩ := exists_behind? program hw.ascending hf hfixed
  have hgrouped : ∀ line ∈ f.body, line.statement.Grouped := by
    rw [hbody]
    exact grouped_bindings hw.finite hvalue
  rw [procedure?, hbehind, Option.bind_some, Procedure.ofTokens_inner hgrouped hopens, hbody,
    filterMap_bindings]

theorem numbered_text {kind : String} (hkind : kind ∈ numberedKinds) (id : EntityId) :
    .word (kind ++ toString id) ∉ preludeLines.flatMap ofText := fun hmem =>
  not_numbered_of_fixed (.inl hmem) ⟨kind, hkind, id.raw.toNat, rfl⟩

theorem mem_generated_of_entity {e : EntityProgram} (he : e ∈ program.entities) {f : Function}
    (hf : f ∈ entityFunctions program e) : f ∈ generated program := by
  refine List.mem_append_right _ (List.mem_append_left _ ?_)
  exact List.mem_flatMap.2 ⟨e, Array.mem_toList_iff.2 he, hf⟩

/-- The distance to an entity as it stands in the module. -/
theorem procedure?_distance (hw : program.WellFormed) {e : EntityProgram}
    (he : e ∈ program.entities) :
    procedure? (moduleText program) ("distance" ++ toString e.id) =
      some ⟨["p"], orderSentences program.nodes e.distanceOrder
        (nodeCode program.nodes e.distance).first⟩ := by
  have hf : distanceFunction program.nodes e ∈ generated program :=
    mem_generated_of_entity he List.mem_cons_self
  have hopens : Procedure.Opens ["p"] (ofText (signature [vectorParameter "p"] "f32")) :=
    ⟨[.sign '(', .word "p", .sign ':', .word "vec3<f32>"], [.sign '-', .sign '>', .word "f32"],
      by decide +kernel, by simp, by simp, rfl⟩
  exact procedure?_eq hw hf (numbered_text (by simp [numberedKinds]) e.id) rfl
    (grouped_first_nodeCode _ _) hopens

/-- The material of an entity as it stands in the module. -/
theorem procedure?_material (hw : program.WellFormed) {e : EntityProgram}
    (he : e ∈ program.entities) :
    procedure? (moduleText program) ("material" ++ toString e.id) =
      some ⟨["p", "n", "d"], orderSentences program.nodes e.materialOrder
        (materialCode program.nodes e.material)⟩ := by
  have hf : materialFunction program.nodes e ∈ generated program :=
    mem_generated_of_entity he (List.mem_cons_of_mem _ (List.mem_cons_of_mem _ List.mem_cons_self))
  have hopens : Procedure.Opens ["p", "n", "d"]
      (ofText (signature materialParameters "Material")) :=
    ⟨[.sign '(', .word "p", .sign ':', .word "vec3<f32>", .sign ',', .word "n", .sign ':',
      .word "vec3<f32>", .sign ',', .word "d", .sign ':', .word "vec3<f32>"],
      [.sign '-', .sign '>', .word "Material"], by decide +kernel, by simp, by simp, rfl⟩
  exact procedure?_eq hw hf (numbered_text (by simp [numberedKinds]) e.id) rfl
    (grouped_materialCode _ _) hopens

/-- The camera and the air as they stand in the module. -/
theorem procedure?_frame (hw : program.WellFormed) :
    procedure? (moduleText program) "frame_setup" =
      some ⟨[], orderSentences program.nodes program.frame.order
        (frameCode program.nodes program.frame.camera program.frame.air)⟩ := by
  have hf : frameFunction program.nodes program.frame ∈ generated program := by
    refine List.mem_append_right _ (List.mem_append_right _ ?_)
    simp
  have hopens : Procedure.Opens [] (ofText (signature [] "Frame")) :=
    ⟨[.sign '('], [.sign '-', .sign '>', .word "Frame"], by decide +kernel, by simp, by simp, rfl⟩
  exact procedure?_eq hw hf (fun hmem => ne_frameSetup_of_prelude hmem rfl) rfl
    (grouped_frameCode _ _ _) hopens

end

end SphereTracer.Shader
