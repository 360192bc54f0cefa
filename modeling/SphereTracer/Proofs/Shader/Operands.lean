import SphereTracer.Proofs.Expr.Encoded
import SphereTracer.Proofs.Shader.Closed

/-!
# Operands

What an operation says that its operands are is what everything else takes of the nodes: its value
depends on nothing but theirs, its code names them and no other nodes, its bytes tell the numbers of
all of them, and an order has them before it.
-/

namespace SphereTracer.Shader

open Token SphereTracer.Graph

/-! ## Words that are no names of nodes -/

namespace IsNodeName

variable {w : String}

theorem ne_of_isDigit (h : IsNodeName w) {s : String} {c : Char} {rest : List Char}
    (hs : s.toList = c :: rest) (hc : c.isDigit) : w ≠ s := by
  refine h.ne_of_form (.inr ?_)
  rw [hs]
  rintro ⟨⟩
  exact absurd hc (by decide)

theorem not_mem_numberTokens (h : IsNodeName w) (v : Word) : .word w ∉ numberTokens v := by
  have hnumber : EveryWord (w ≠ ·) (numberTokens v) := everyWord_numberTokens h.ne_of_isDigit
    (h.ne_of_form (by decide)) (h.ne_of_form (by decide)) v
  exact fun hmem => hnumber w hmem rfl

theorem ne_functionName (h : IsNodeName w) (f : FunctionName) : w ≠ f.text := by
  have hfirst : ∀ s ∈ FunctionName.letters, s.toList ≠ [] ∧ s.toList.head? ≠ some 'v' := by
    decide +kernel
  obtain ⟨hne, hhead⟩ := hfirst _ f.parts_mem_letters
  refine h.ne_of_form (.inr ?_)
  rw [f.toList_text, List.head?_append_of_ne_nil _ hne]
  exact hhead

end IsNodeName

/-! ## Names of nodes in code -/

section
variable {w : String} (hw : IsNodeName w)
include hw

theorem word_not_mem_varCode (v : Var) : .word w ∉ (varCode v).tokens := by
  cases v <;> simp (disch := decide) [varCode, Code.named, Code.splat, Code.builtin, Code.tokens,
    Code.tokensList, Callee.text, Builtin.text, Ident.text, hw.ne_of_form, hw.not_mem_numberTokens]

theorem word_not_mem_vector (v : Vec3 Word) : .word w ∉ (Code.vector v).tokens := by
  unfold Code.vector
  split <;> simp (disch := decide) [Code.splat, Code.builtin, Code.tokens, Code.tokensList,
    Callee.text, Builtin.text, hw.ne_of_form, hw.not_mem_numberTokens]

theorem word_mem_unaryCode (f : Unary) {i : Ident} :
    .word w ∈ (unaryCode f (.name i)).tokens ↔ w = i.text := by
  cases f <;> simp (disch := decide) [unaryCode, Code.splat, Code.builtin, Code.tokens,
    Code.tokensList, Callee.text, Builtin.text, hw.ne_of_form]

theorem word_mem_binaryCode (f : Binary) {i j : Ident} :
    .word w ∈ (binaryCode f (.name i) (.name j)).tokens ↔ w = i.text ∨ w = j.text := by
  cases f <;> simp (disch := decide) [binaryCode, Code.splat, Code.builtin, Code.tokens,
    Code.tokensList, Callee.text, Builtin.text, Operator.tokens, hw.ne_of_form, or_left_comm]

variable {α : Type} {ident : α → Ident}

/-- The names of nodes in the code of an operation are those of its operands. -/
theorem word_mem_opCode (op : Op Word α) :
    .word w ∈ (opCode (fun a => .name (ident a)) op).tokens ↔
      ∃ a ∈ op.operands, w = (ident a).text := by
  -- Everything that is not the name of an operand is excluded by its length or its first letter.
  cases op with
  | var v => simp [opCode, Op.operands, word_not_mem_varCode hw]
  | constant c => simp [opCode, Op.operands, word_not_mem_vector hw]
  | unary f a => simp [opCode, Op.operands, word_mem_unaryCode hw]
  | binary f a b => simp [opCode, Op.operands, word_mem_binaryCode hw]
  | component a axis =>
    cases axis <;> simp (disch := decide) [opCode, Axis.letter, Code.splat, Code.builtin,
      Code.tokens, Code.tokensList, Callee.text, Builtin.text, Op.operands, hw.ne_of_form]
  | select lhs rhs below otherwise =>
    simp (disch := decide) [opCode, Code.first, Code.builtin, Code.tokens, Code.tokensList,
      Callee.text, Builtin.text, Operator.tokens, Op.operands, hw.ne_of_form, or_assoc, or_comm]
  | _ =>
    simp (disch := decide) [opCode, Code.first, Code.splat, Code.builtin, Code.tokens,
      Code.tokensList, Callee.text, Builtin.text, Op.operands, hw.ne_of_form, hw.ne_functionName]

end

/-- As they are read from its text. -/
theorem word_mem_ofText_opCode (nodes : Array Node) (op : GraphOp) (w : String) :
    (.word w ∈ ofText (opCode (nodeCode nodes) op).text ∧ IsNodeName w) ↔
      ∃ a ∈ op.operands, w = (nodeIdent nodes a).text := by
  have hplain : (opCode (nodeCode nodes) op).plain := plain_opCode (fun a => isName_node _) op
  rw [(lexesTo_code hplain).ofText_eq]
  constructor
  · rintro ⟨hmem, hw⟩
    exact (word_mem_opCode hw op).1 hmem
  · rintro ⟨a, ha, rfl⟩
    have hw : IsNodeName (nodeIdent nodes a).text := ⟨_, rfl⟩
    exact ⟨(word_mem_opCode hw op).2 ⟨a, ha, rfl⟩, hw⟩

/-- The operands of an operation are what is read of other nodes.  Its value is the same over any two
tables that agree on them; the names of nodes in its code are theirs; its bytes are the same exactly
if the numbers of all of them are; and an order has all of them before it. -/
theorem operands_exact (op : GraphOp) :
    (∀ (S : Type) [Scalar S] (bindings : Bindings S) (slots slots' : Slots S),
      (∀ a ∈ op.operands, slots.get a = slots'.get a) →
        op.eval Scalar.ofWord slots.get bindings = op.eval Scalar.ofWord slots'.get bindings) ∧
    (∀ nodes w, (.word w ∈ ofText (opCode (nodeCode nodes) op).text ∧ IsNodeName w) ↔
      ∃ a ∈ op.operands, w = (nodeIdent nodes a).text) ∧
    (∀ nodes (a : Handle) node, nodes[a.index]? = some node →
      (nodeIdent nodes a).text = node.name) ∧
    (∀ number number' : Handle → UInt64,
      op.encode number = op.encode number' ↔ ∀ a ∈ op.operands, number a = number' a) ∧
    ∀ nodes roots order hash (h : Handle) done rest, flatten nodes roots = .ok order →
      nodes[h.index]? = some ⟨op, hash⟩ → order.toList = done ++ h :: rest →
        ∀ a ∈ op.operands, a ∈ done := by
  refine ⟨fun S _ bindings slots slots' h => Op.eval_congr h,
    fun nodes w => word_mem_ofText_opCode nodes op w, fun nodes a node => text_nodeIdent,
    fun number number' => ⟨fun h => ?_, Op.encode_congr⟩,
    fun nodes roots order hash h done rest horder hnode hsplit a ha => ?_⟩
  · obtain ⟨-, -, -, hnumbers⟩ := Op.parts_of_encode_eq h
    exact List.map_inj_left.1 hnumbers
  · exact (evaluable_of_flatten horder).operandsFirst done h rest hsplit a ((uses_iff hnode).2 ha)

/-- A difference: what is in its own slot is not read, and its code names its operands, which an order
lists before it. -/
theorem operands_exact_difference :
    let op : GraphOp := .binary .sub ⟨1⟩ ⟨0⟩
    let slots : Slots Float32 := #[.zero, .one, .zero]
    let slots' : Slots Float32 := #[.zero, .one, .one]
    op.eval Scalar.ofWord slots.get (.atPoint .one) =
        op.eval Scalar.ofWord slots'.get (.atPoint .one) ∧
      .word "v0000000000000001" ∈ ofText (opCode (nodeCode sharedNodes) op).text ∧
      .word "v0000000000000002" ∉ ofText (opCode (nodeCode sharedNodes) op).text ∧
      op.encode (Arena.hashOf sharedNodes) ≠ op.encode (Arena.hashOf #[]) ∧
      flatten sharedNodes [⟨2⟩] = .ok #[⟨0⟩, ⟨1⟩, ⟨2⟩] ∧
      (⟨1⟩ : Handle) ∈ ([⟨0⟩, ⟨1⟩] : List Handle) := by
  intro op slots slots'
  obtain ⟨hvalue, hnames, -, hbytes, horder⟩ := operands_exact op
  have hwalk : flatten sharedNodes [⟨2⟩] = .ok #[⟨0⟩, ⟨1⟩, ⟨2⟩] := by cbv
  refine ⟨hvalue Float32 _ slots slots' ?_, ((hnames sharedNodes _).2 ⟨⟨1⟩, ?_, ?_⟩).1, fun hmem => ?_,
    fun heq => ?_, hwalk, horder sharedNodes _ _ 2 ⟨2⟩ [⟨0⟩, ⟨1⟩] [] hwalk rfl rfl ⟨1⟩ (by decide)⟩
  · exact List.forall_mem_cons.2 ⟨rfl, List.forall_mem_singleton.2 rfl⟩
  · decide
  · decide
  · obtain ⟨a, ha, hname⟩ := (hnames sharedNodes _).1 ⟨hmem, 2, by decide⟩
    have hother : ∀ a ∈ op.operands, "v0000000000000002" ≠ (nodeIdent sharedNodes a).text := by decide
    exact hother a ha hname
  · exact absurd ((hbytes _ _).1 heq ⟨1⟩ (by decide)) (by decide)

end SphereTracer.Shader
