import SphereTracer.Proofs.Shader.Procedure

/-!
# Modules are closed

Every line of a generated procedure uses what earlier lines have bound, and binds a name of its own;
a module defines every numbered function once, and every one that it mentions.
-/

namespace SphereTracer.Shader

open SphereTracer.Graph

/-! ## Names within procedures -/

namespace Phrase

mutual

/-- The names of values in an expression; those of functions and members are not among them. -/
def names : Phrase → List String
  | number _ => []
  | name s => [s]
  | member a _ => names a
  | negated a => names a
  | operation _ a b => names a ++ names b
  | call _ arguments => namesOfList arguments

def namesOfList : List Phrase → List String
  | [] => []
  | a :: rest => names a ++ namesOfList rest

end

end Phrase

namespace Sentence

/-- The name that a line binds. -/
def bound? : Sentence → Option String
  | bind name _ => some name
  | giveBack _ => none

/-- The names that a line uses. -/
def names : Sentence → List String
  | bind _ value => value.names
  | giveBack value => value.names

end Sentence

/-- A name of nodes: sixteen digits behind a letter. -/
def IsNodeName (name : String) : Prop := ∃ hash : UInt64, name = (Ident.node hash).text

theorem length_node (hash : UInt64) : (Ident.node hash).text.toList.length = 17 := by
  rw [Ident.text, String.toList_append, List.length_append, Text.hex, String.toList_ofList,
    String.toList_ofList, Text.length_hexDigits]
  rfl

/-- A text of another length or with another first letter is not the name of a node. -/
theorem IsNodeName.ne_of_form {name s : String} (h : IsNodeName name)
    (hs : s.toList.length ≠ 17 ∨ s.toList.head? ≠ some 'v') : name ≠ s := by
  obtain ⟨hash, rfl⟩ := h
  rintro rfl
  rcases hs with hlength | hhead
  · exact hlength (length_node hash)
  · rw [Ident.text, String.toList_append] at hhead
    exact hhead rfl

/-- Single assignment and definition before use. -/
structure Procedure.Closed (p : Procedure) : Prop where
  /-- No name is bound twice, and no parameter is bound again. -/
  nodup : (p.parameters ++ p.sentences.filterMap Sentence.bound?).Nodup
  /-- What a line uses has been bound by a line before it, or is a parameter or the uniforms; names of
  nodes have been bound. -/
  bound : ∀ before s after, p.sentences = before ++ s :: after → ∀ name ∈ s.names,
    name ∈ before.filterMap Sentence.bound? ∨
      name ∈ "uniforms" :: p.parameters ∧ ¬ IsNodeName name
  /-- The last line gives a value back, and no other one does. -/
  returns : ∃ init value, p.sentences = init ++ [.giveBack value] ∧ ∀ s ∈ init, s.bound?.isSome

/-! ## Names of nodes -/

section
variable {nodes : Array Node}

theorem text_nodeIdent {h : Handle} {node : Node} (hnode : nodes[h.index]? = some node) :
    (nodeIdent nodes h).text = node.name := by
  rw [nodeIdent, Arena.hashOf, hnode]
  rfl

theorem nodeIdent_inj (hnames : (nodes.toList.map Node.name).Nodup) {a b : Handle}
    (ha : a.index < nodes.size) (hb : b.index < nodes.size)
    (h : (nodeIdent nodes a).text = (nodeIdent nodes b).text) : a = b := by
  have ha' : a.index < nodes.toList.length := by simpa using ha
  have hb' : b.index < nodes.toList.length := by simpa using hb
  rw [text_nodeIdent (Array.getElem?_eq_getElem ha), text_nodeIdent (Array.getElem?_eq_getElem hb)] at h
  exact Handle.index_inj (index_eq_of_nodup_map hnames ha' hb' (by simpa using h))

/-- The names of the variables that a procedure may read. -/
def varName : Var → String
  | .position => "p"
  | .normal => "n"
  | .direction => "d"
  | .mouse => "uniforms"
  | .time => "uniforms"

theorem names_varCode (v : Var) : (varCode v).phrase.names = [varName v] := by
  cases v <;> rfl

theorem names_vector (v : Vec3 Word) : (Code.vector v).phrase.names = [] := by
  have hfloat (w : Word) : (if w.isNegative = true then Phrase.negated (Code.numeral w)
      else Code.numeral w).names = [] := by
    split <;> rfl
  unfold Code.vector
  split <;> simp [Code.splat, Code.builtin, Code.phrase, Code.phraseList, Phrase.names,
    Phrase.namesOfList, hfloat]

theorem names_opCode {α : Type} {ident : α → Ident} {op : Op Word α} {name : String}
    (h : name ∈ (opCode (fun a => .name (ident a)) op).phrase.names) :
    (∃ a ∈ op.operands, name = (ident a).text) ∨ ∃ v, op.var? = some v ∧ name = varName v := by
  cases op with
  | var v =>
    rw [opCode, names_varCode, List.mem_singleton] at h
    exact .inr ⟨v, rfl, h⟩
  | constant c =>
    rw [opCode, names_vector] at h
    exact absurd h List.not_mem_nil
  | unary f a =>
    refine .inl ?_
    cases f <;> simpa [opCode, unaryCode, Code.splat, Code.builtin, Code.phrase, Code.phraseList,
      Phrase.names, Phrase.namesOfList, Op.operands] using h
  | binary f a b =>
    refine .inl ?_
    cases f <;> simp only [opCode, binaryCode, Code.splat, Code.builtin, Code.phrase,
      Code.phraseList, Phrase.names, Phrase.namesOfList, Op.operands, List.mem_append, List.mem_cons,
      List.not_mem_nil, or_false, exists_eq_or_imp, exists_eq_left] at h ⊢ <;> tauto
  | _ =>
    refine .inl ?_
    simp only [opCode, Code.first, Code.splat, Code.builtin, Code.phrase, Code.phraseList,
      Phrase.names, Phrase.namesOfList, Op.operands, List.mem_append, List.mem_cons,
      List.not_mem_nil, or_false, exists_eq_or_imp, exists_eq_left] at h ⊢
    tauto

theorem not_isNodeName {name : String} (h : name ∈ ["uniforms", "p", "n", "d"]) :
    ¬ IsNodeName name := by
  intro hnode
  have hne (s : String) (hs : s.toList.length ≠ 17) : name ≠ s := hnode.ne_of_form (.inl hs)
  simp only [List.mem_cons, List.not_mem_nil, or_false] at h
  rcases h with h | h | h | h <;> exact hne _ (by decide) h

/-! ## Procedures of an order -/

/-- A line that binds a node uses the nodes that the node uses, and its variable. -/
theorem names_bindingSentence {h : Handle} (hlt : h.index < nodes.size) {name : String}
    (hname : name ∈ (bindingSentence nodes h).names) :
    (∃ a, Uses nodes h a ∧ name = (nodeIdent nodes a).text) ∨
      ∃ v, Program.varOf nodes h = some v ∧ name = varName v := by
  have hnode := Array.getElem?_eq_getElem hlt
  rw [bindingSentence, hnode, Sentence.names] at hname
  rcases names_opCode hname with ⟨a, ha, rfl⟩ | ⟨v, hv, rfl⟩
  · exact .inl ⟨a, (uses_iff hnode).2 ha, rfl⟩
  · refine .inr ⟨v, ?_, rfl⟩
    rw [Program.varOf_eq_of_getElem? hnode]
    exact hv

/-- A member of a list that ends in a value of its own is that value, or it comes from what the list
has been mapped from. -/
theorem exists_of_map_append_eq {α β : Type} {f : α → β} {l : List α} {last b : β}
    {before after : List β} (h : l.map f ++ [last] = before ++ b :: after) :
    before = l.map f ∧ b = last ∨
      ∃ done a rest, l = done ++ a :: rest ∧ before = done.map f ∧ b = f a := by
  induction l generalizing before with
  | nil =>
    cases before with
    | nil => exact .inl ⟨rfl, (List.cons.inj h).1.symm⟩
    | cons c before => simp at h
  | cons a l ih =>
    cases before with
    | nil => exact .inr ⟨[], a, l, rfl, rfl, (List.cons.inj h).1.symm⟩
    | cons c before =>
      obtain ⟨rfl, htail⟩ := List.cons.inj h
      rcases ih htail with ⟨rfl, rfl⟩ | ⟨done, a', rest, rfl, rfl, rfl⟩
      · exact .inl ⟨rfl, rfl⟩
      · exact .inr ⟨a :: done, a', rest, rfl, rfl, rfl⟩

/-- The sentences of an order whose variables are in scope make a closed procedure. -/
theorem closed_orderSentences (hnames : (nodes.toList.map Node.name).Nodup) {roots : List Handle}
    {order : Array Handle} (he : Evaluable nodes roots order) {value : Code}
    (hvalue : ∀ name ∈ value.phrase.names, ∃ r ∈ roots, name = (nodeIdent nodes r).text)
    {parameters : List String} (hnodup : parameters.Nodup) (hparameters : parameters ⊆ ["p", "n", "d"])
    (hscope : ∀ h ∈ order, ∀ v, Program.varOf nodes h = some v →
      varName v ∈ "uniforms" :: parameters) :
    (⟨parameters, orderSentences nodes order value⟩ : Procedure).Closed := by
  have hbound (l : List Handle) : (l.map (bindingSentence nodes)).filterMap Sentence.bound? =
      l.map fun h => (nodeIdent nodes h).text := by
    rw [List.filterMap_map, ← List.filterMap_eq_map]
    rfl
  have hall : (orderSentences nodes order value).filterMap Sentence.bound? =
      order.toList.map fun h => (nodeIdent nodes h).text := by
    rw [orderSentences, List.filterMap_append, hbound]
    exact List.append_nil _
  have hgiven {name : String} (hname : name ∈ "uniforms" :: parameters) : ¬ IsNodeName name := by
    refine not_isNodeName ?_
    rcases List.mem_cons.1 hname with rfl | hname
    · exact List.mem_cons_self
    · exact List.mem_cons_of_mem _ (hparameters hname)
  refine ⟨?_, ?_, _, _, rfl, ?_⟩
  · change (parameters ++ (orderSentences nodes order value).filterMap Sentence.bound?).Nodup
    -- Nodes of one name are one node, which is listed once; and no parameter is called like a node.
    rw [hall, List.nodup_append]
    refine ⟨hnodup, he.nodup.map_on fun a ha b hb => ?_, ?_⟩
    · rw [Array.mem_toList_iff] at ha hb
      exact nodeIdent_inj hnames (he.index_lt a ha) (he.index_lt b hb)
    · rintro name hname _ hnode rfl
      obtain ⟨h, -, rfl⟩ := List.mem_map.1 hnode
      exact hgiven (List.mem_cons_of_mem _ hname) ⟨_, rfl⟩
  · rintro before s after hsplit name hname
    rcases exists_of_map_append_eq hsplit with ⟨rfl, rfl⟩ | ⟨done, h, rest, horder, rfl, rfl⟩
    · obtain ⟨r, hr, rfl⟩ := hvalue name hname
      rw [hbound]
      exact .inl (List.mem_map_of_mem (Array.mem_toList_iff.2 (he.root_mem r hr)))
    · have hmem : h ∈ order := Array.mem_toList_iff.1 (horder ▸ by simp)
      rcases names_bindingSentence (he.index_lt h hmem) hname with ⟨a, ha, rfl⟩ | ⟨v, hv, rfl⟩
      · rw [hbound]
        exact .inl (List.mem_map_of_mem (he.operandsFirst done h rest horder a ha))
      · have hvariable := hscope h hmem v hv
        exact .inr ⟨hvariable, hgiven hvariable⟩
  · intro s hs
    obtain ⟨h, -, rfl⟩ := List.mem_map.1 hs
    rfl

theorem names_materialCode (m : Material Handle) : (materialCode nodes m).phrase.names =
    m.toList.map fun h => (nodeIdent nodes h).text := rfl

theorem names_frameCode (camera : Camera Handle) (air : Material Handle) :
    (frameCode nodes camera air).phrase.names =
      (camera.toList ++ air.toList).map fun h => (nodeIdent nodes h).text := rfl

end

/-! ## Modules -/

section
variable {program : Program}

theorem exists_closed_distance (hw : program.WellFormed) {e : EntityProgram}
    (he : e ∈ program.entities) : ∃ p, procedure? (moduleText program) ("distance" ++ toString e.id) =
      some p ∧ p.parameters = ["p"] ∧ p.Closed := by
  refine ⟨_, procedure?_distance hw he, rfl, ?_⟩
  refine closed_orderSentences hw.names (hw.distance e he) (fun name hname => ?_) (by simp) (by simp)
    fun h hh v hv => ?_
  · exact ⟨_, List.mem_cons_self, List.mem_singleton.1 hname⟩
  · obtain ⟨hnormal, hdirection⟩ := hw.distance_var e he h hh
    rw [hv] at hnormal hdirection
    cases v <;> simp [varName] at hnormal hdirection ⊢

theorem exists_closed_material (hw : program.WellFormed) {e : EntityProgram}
    (he : e ∈ program.entities) : ∃ p, procedure? (moduleText program) ("material" ++ toString e.id) =
      some p ∧ p.parameters = ["p", "n", "d"] ∧ p.Closed := by
  refine ⟨_, procedure?_material hw he, rfl, ?_⟩
  refine closed_orderSentences hw.names (hw.material e he) (fun name hname => ?_) (by simp)
    (List.Subset.refl _) fun h _ v _ => ?_
  · obtain ⟨r, hr, rfl⟩ := List.mem_map.1 (names_materialCode e.material ▸ hname)
    exact ⟨r, hr, rfl⟩
  · cases v <;> simp [varName]

theorem exists_closed_frame (hw : program.WellFormed) :
    ∃ p, procedure? (moduleText program) "frame_setup" = some p ∧ p.parameters = [] ∧ p.Closed := by
  refine ⟨_, procedure?_frame hw, rfl, ?_⟩
  refine closed_orderSentences hw.names hw.frame (fun name hname => ?_) (by simp) (by simp)
    fun h hh v hv => ?_
  · rw [names_frameCode] at hname
    obtain ⟨r, hr, rfl⟩ := List.mem_map.1 hname
    exact ⟨r, hr, rfl⟩
  · obtain ⟨hposition, hnormal, hdirection⟩ := hw.frame_var h hh
    rw [hv] at hposition hnormal hdirection
    cases v <;> simp [varName] at hposition hnormal hdirection ⊢

theorem numbered_of_mem_opCalls {α : Type} {op : Op Word α} {f : FunctionName} (hf : f ∈ opCalls op) :
    Numbered f.text := by
  cases op <;> simp only [opCalls, List.mem_singleton, List.not_mem_nil] at hf
  · exact ⟨"mandelbulb_", by simp [numberedKinds], _, by rw [hf]; rfl⟩
  · exact ⟨"sierpinski_fold_", by simp [numberedKinds], _, by rw [hf]; rfl⟩

theorem count_eq_one_of_mem (hw : program.WellFormed) {f : Function} (hf : f ∈ generated program)
    (hnumbered : Numbered f.name.text) :
    (definedNames (moduleText program)).count f.name.text = 1 := by
  rw [count_definedNames program hnumbered]
  exact List.count_eq_one_of_mem (nodup_texts program hw.ascending) (List.mem_map_of_mem hf)

theorem count_entity (hw : program.WellFormed) {e : EntityProgram} (he : e ∈ program.entities)
    {kind : String} (hkind : kind ∈ ["distance", "normal", "material"]) :
    (definedNames (moduleText program)).count (kind ++ toString e.id) = 1 := by
  have hnumbered : Numbered (kind ++ toString e.id) :=
    ⟨kind, List.subset_append_left _ ["mandelbulb_", "sierpinski_fold_"] hkind, e.id.raw.toNat, rfl⟩
  have hmem : kind ++ toString e.id ∈ (entityFunctions program e).map (·.name.text) := by
    simp only [List.mem_cons, List.not_mem_nil, or_false] at hkind
    rcases hkind with rfl | rfl | rfl
    · exact List.mem_cons_self
    · exact List.mem_cons_of_mem _ List.mem_cons_self
    · exact List.mem_cons_of_mem _ (List.mem_cons_of_mem _ List.mem_cons_self)
  obtain ⟨f, hf, htext⟩ := List.mem_map.1 hmem
  rw [← htext] at hnumbered ⊢
  exact count_eq_one_of_mem hw (mem_generated_of_entity he hf) hnumbered

/-- Of every program, the procedures are closed: as they are read from the module's text, each line
uses what lines before it have bound, and what is bound is bound once.  The functions of entities and
of loops are defined once, and so is every numbered function whose name stands anywhere in the
module. -/
theorem closed_of_ofScene {scene : Scene} {options : Options Word}
    (h : Program.ofScene scene options = .ok program) :
    let source := (Kernel.ofProgram program).source
    (∀ e ∈ program.entities,
      (∃ p, procedure? source ("distance" ++ toString e.id) = some p ∧ p.parameters = ["p"] ∧
        p.Closed) ∧
      (∃ p, procedure? source ("material" ++ toString e.id) = some p ∧
        p.parameters = ["p", "n", "d"] ∧ p.Closed) ∧
      ∀ kind ∈ ["distance", "normal", "material"],
        (definedNames source).count (kind ++ toString e.id) = 1) ∧
    (∃ p, procedure? source "frame_setup" = some p ∧ p.parameters = [] ∧ p.Closed) ∧
    (∀ node ∈ program.nodes, ∀ f ∈ opCalls node.op, (definedNames source).count f.text = 1) ∧
    ∀ w, Numbered w → .word w ∈ Token.ofText source → (definedNames source).count w = 1 := by
  obtain ⟨hw, -⟩ := Program.spec_of_ofScene h
  intro source
  refine ⟨fun e he => ⟨exists_closed_distance hw he, exists_closed_material hw he, ?_⟩,
    exists_closed_frame hw, ?_, fun w => count_eq_one_of_word_mem program hw.ascending⟩
  · exact fun kind hkind => count_entity hw he hkind
  · intro node hnode f hf
    obtain ⟨i, hi, rfl⟩ := Array.mem_iff_getElem.1 hnode
    obtain ⟨g, hg, rfl⟩ := exists_helper (Array.getElem?_eq_getElem hi) hf
    exact count_eq_one_of_mem hw (List.mem_append_left _ hg) (numbered_of_mem_opCalls hf)

end

open Kernel in
/-- The ball's distance and the ground's normal. -/
theorem closed_of_ofScene_stage :
    ∃ program, Program.ofScene (stage [ball, ground]) .standard = .ok program ∧
      (∃ p, procedure? (Kernel.ofProgram program).source "distance1" = some p ∧ p.Closed) ∧
      (definedNames (Kernel.ofProgram program).source).count "normal2" = 1 := by
  obtain ⟨program, hprogram, b, hb, g, hg, hball, hground⟩ := exists_program_entities
  have hclosed := closed_of_ofScene hprogram
  obtain ⟨p, hp, -, hpclosed⟩ := (hclosed.1 b hb).1
  have hnormal := (hclosed.1 g hg).2.2 "normal" (by simp)
  rw [hball] at hp
  rw [hground] at hnormal
  exact ⟨program, hprogram, ⟨p, hp, hpclosed⟩, hnormal⟩

end SphereTracer.Shader
