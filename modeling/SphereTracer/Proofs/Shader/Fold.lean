import Mathlib
import SphereTracer.Proofs.Program.Stage
import SphereTracer.Proofs.Shader.Loop
import SphereTracer.Proofs.Shape.Unrolled

/-!
# The fold of a module

A module has a helper for each number of rounds that its graph folds with.  It mirrors with the least
of zero and a distance, and doubles where the fold divides by a half; in exact arithmetic it computes
the same fold.
-/

namespace SphereTracer.Shader

open Token

/-! ## The helper as it is read -/

/-- A reflection of the running point at the plane of a name. -/
def reflection (normal : String) : Code :=
  let q : Code := .named "q"
  let behind : Code := .builtin .min [.float 0.0, .builtin .dot [q, .named normal]]
  .operation .sub q (.operation .mul (.operation .mul (.float 2.0) behind) (.named normal))

/-- The running point, doubled about the offset. -/
def doubling : Code :=
  .operation .sub (.operation .mul (.named "q") (.float 2.0))
    (.vector Intrinsic.offsetWords)

/-- What a round of the helper changes. -/
def foldChanges : List (String × Phrase) :=
  [("q", (reflection "n1").phrase), ("q", (reflection "n2").phrase), ("q", (reflection "n3").phrase),
    ("q", doubling.phrase)]

/-- The helper, clause by clause. -/
def foldClauses (n : UInt32) : List Clause :=
  let (n₁, n₂, n₃) := Intrinsic.normalWords
  [.bind "n1" (Code.vector n₁).phrase, .bind "n2" (Code.vector n₂).phrase,
    .bind "n3" (Code.vector n₃).phrase, .bind "q" (Code.named "p").phrase,
    .loop "i" n.toNat foldChanges, .giveBack (Code.named "q").phrase]

/-- The constants of the helper are written as numerals without a sign. -/
theorem isFinite_foldWords :
    ∀ v ∈ [Intrinsic.normalWords.1, Intrinsic.normalWords.2.1, Intrinsic.normalWords.2.2,
      Intrinsic.offsetWords], ∀ axis : Axis, (axis.lane v).isFinite ∧ ¬ (axis.lane v).isNegative := by
  simp only [List.forall_mem_cons]
  refine ⟨?_, ?_, ?_, ?_, List.forall_mem_nil _⟩ <;> intro axis <;> cases axis <;> decide +kernel

/-- The statements of the loop are assignments to the running point. -/
theorem tokens_reflection (normal : String) (hnormal : normal ∈ ["n1", "n2", "n3"]) :
    ofText ("q = q - 2.0 * min(0.0, dot(q, " ++ normal ++ ")) * " ++ normal ++ ";") =
        (Statement.part "q = " (reflection normal) ";").tokens ∧ (reflection normal).grouped := by
  simp only [List.mem_cons, List.not_mem_nil, or_false] at hnormal
  rcases hnormal with rfl | rfl | rfl <;> decide +kernel

theorem tokens_doubling :
    (Statement.part "q = q * 2.0 - " (.vector Intrinsic.offsetWords) ";").tokens =
      (Statement.part "q = " doubling ";").tokens ∧ doubling.grouped := by
  decide +kernel

theorem tokens_foldFunction (n : UInt32) :
    (foldFunction n).body.flatMap (·.statement.tokens) =
      (Statement.bind (.named "n1") (.vector Intrinsic.normalWords.1)).tokens ++
        ((Statement.bind (.named "n2") (.vector Intrinsic.normalWords.2.1)).tokens ++
        ((Statement.bind (.named "n3") (.vector Intrinsic.normalWords.2.2)).tokens ++
        (ofText "var q = p;" ++
        (ofText ("for (var i = 0u; i < " ++ toString n.toNat ++ "u; i++) \x7b") ++
        ((Statement.part "q = " (reflection "n1") ";").tokens ++
        ((Statement.part "q = " (reflection "n2") ";").tokens ++
        ((Statement.part "q = " (reflection "n3") ";").tokens ++
        ((Statement.part "q = " doubling ";").tokens ++
        (ofText "\x7d" ++ ofText "return q;"))))))))) := by
  rw [← tokens_doubling.1, ← (tokens_reflection "n1" (by simp)).1,
    ← (tokens_reflection "n2" (by simp)).1,
    ← (tokens_reflection "n3" (by simp)).1]
  rfl

theorem readFrom_foldFunction (n : UInt32) (rest : List Token) :
    Clause.readFrom [] none []
        ((foldFunction n).body.flatMap (·.statement.tokens) ++ .sign '\x7d' :: rest) =
      some (foldClauses n) := by
  have hnormals : (Code.vector Intrinsic.normalWords.1).grouped ∧
      (Code.vector Intrinsic.normalWords.2.1).grouped ∧
      (Code.vector Intrinsic.normalWords.2.2).grouped := by decide +kernel
  have hassign : ofText "q = " = [.word "q", .sign '='] := by decide
  have hvar : Instruction.Inline [.word "var", .word "q", .sign '=', .word "p"] := by
    simp [Instruction.Inline]
  have hstart (rest : List Token) (done : List Clause) :
      Clause.readFrom done none [] (ofText "var q = p;" ++ rest) =
        Clause.readFrom (done ++ [.bind "q" (Code.named "p").phrase]) none [] rest :=
    Clause.readFrom_clause hvar (by simp) rfl
  have hreturn : Instruction.Inline [.word "return", .word "q"] := by simp [Instruction.Inline]
  have hend (rest : List Token) (done : List Clause) :
      Clause.readFrom done none [] (ofText "return q;" ++ rest) =
        Clause.readFrom (done ++ [.giveBack (Code.named "q").phrase]) none [] rest :=
    Clause.readFrom_clause hreturn (by simp) rfl
  have hclose : ofText "\x7d" = [.sign '\x7d'] := by decide
  have hname : "q" ≠ "for" := by decide
  simp only [tokens_foldFunction, hclose, List.append_assoc]
  rw [Clause.readFrom_bind hnormals.1, Clause.readFrom_bind hnormals.2.1,
    Clause.readFrom_bind hnormals.2.2, hstart, Clause.readFrom_header,
    Clause.readFrom_assign hname hassign (tokens_reflection _ (by simp)).2,
    Clause.readFrom_assign hname hassign (tokens_reflection _ (by simp)).2,
    Clause.readFrom_assign hname hassign (tokens_reflection _ (by simp)).2,
    Clause.readFrom_assign hname hassign tokens_doubling.2, List.singleton_append,
    Clause.readFrom_close, hend]
  rfl

theorem helper?_fold {program : Program} (hw : program.WellFormed) {node : Node}
    (hnode : node ∈ program.nodes) {a : Handle} {n : UInt32} (hop : node.op = .fold a n) :
    helper? (moduleText program) ("sierpinski_fold_" ++ toString n.toNat) =
      some ⟨["p"], foldClauses n⟩ := by
  have hf : foldFunction n ∈ generated program := by
    refine List.mem_append_left _ (List.mem_append_right _ (List.mem_map_of_mem ?_))
    exact mem_counts_of_node hnode (by rw [hop, foldCount?])
  have hfixed : .word (foldFunction n).name.text ∉ preludeLines.flatMap ofText := fun hmem =>
    not_numbered_of_fixed (.inl hmem) ⟨_, by simp [numberedKinds], n.toNat, rfl⟩
  obtain ⟨rest, hbehind⟩ := exists_behind? program hw.ascending hf hfixed
  let inside : List Token := [.sign '(', .word "p", .sign ':', .word "vec3<f32>"]
  let result : List Token := [.sign '-', .sign '>', .word "vec3<f32>"]
  have hts : ofText (signature (foldFunction n).parameters (foldFunction n).result) =
      inside ++ .sign ')' :: result ++ [.sign '\x7b'] := by
    show ofText (signature [vectorParameter "p"] "vec3<f32>") = _
    decide
  change behind? ("sierpinski_fold_" ++ toString n.toNat) false _ = _ at hbehind
  rw [helper?, hbehind, Option.bind_some, Helper.ofTokens,
    Procedure.takeWhile_inner hts (by simp [inside]),
    Procedure.dropWhile_inner hts (by simp [inside, result]), List.drop_one, List.tail_cons,
    readFrom_foldFunction]
  rfl

/-! ## What it computes -/

section
variable {names : Names ℝ} {p : Vec3 ℝ}

/-- What names stand for between two rounds: the planes, and the point that has been reached. -/
structure Folding (names : Names ℝ) (p : Vec3 ℝ) : Prop where
  first : names "n1" = some (.vector (.ofWords Intrinsic.normalWords.1))
  second : names "n2" = some (.vector (.ofWords Intrinsic.normalWords.2.1))
  third : names "n3" = some (.vector (.ofWords Intrinsic.normalWords.2.2))
  point : names "q" = some (.vector p)

theorem Folding.update (h : Folding names p) (q : Vec3 ℝ) :
    Folding (Function.update names "q" (some (.vector q))) q where
  first := h.first
  second := h.second
  third := h.third
  point := Function.update_self ..

/-- The product with the least of zero and a distance is the reflection. -/
theorem mixed_reflection {normal : String} {n : Vec3 ℝ} (hq : names "q" = some (.vector p))
    (hn : names normal = some (.vector n)) :
    (reflection normal).phrase.mixed names = some (.vector (Intrinsic.mirror p n)) := by
  have hname (s : String) : (Code.named s).phrase.mixed names = names s := rfl
  have hzero : (Code.float 0.0).phrase.mixed names = some (.scalar (Scalar.ofWord 0.0)) :=
    mixed_float (by decide +kernel) (by decide +kernel)
  have htwo : (Code.float 2.0).phrase.mixed names = some (.scalar (Scalar.ofWord 2.0)) :=
    mixed_float (by decide +kernel) (by decide +kernel)
  rw [← mirrorPoint_eq_mirror, reflection]
  unfold mirrorPoint Vec3.zero
  rw [← real_ofWord_zero, ← real_ofWord_two]
  simp only [mixed_operation, mixed_builtin (show Builtin.min ∈ knownBuiltins by decide),
    mixed_builtin (show Builtin.dot ∈ knownBuiltins by decide), Code.phraseList, Phrase.mixedList,
    hname, hzero, htwo, hq, hn, Option.bind_some, Option.map_some]
  rfl

theorem mixed_doubling (hq : names "q" = some (.vector p)) :
    doubling.phrase.mixed names =
      some (.vector (p.shrink Intrinsic.foldScale - Intrinsic.foldOffset)) := by
  obtain ⟨-, -, -, hwords, -⟩ := by simpa only [List.forall_mem_cons] using isFinite_foldWords
  have hname : (Code.named "q").phrase.mixed names = some (.vector p) := hq
  have htwo : (Code.float 2.0).phrase.mixed names = some (.scalar (Scalar.ofWord 2.0)) :=
    mixed_float (by decide +kernel) (by decide +kernel)
  have hdouble : p.shrink Intrinsic.foldScale = p * .splat (Scalar.ofWord 2.0) := by
    refine Vec3.ext_axis fun axis => ?_
    rw [Axis.lane_shrink, Axis.lane_mul, Axis.lane_splat, Intrinsic.foldScale_real,
      real_ofWord_two, real_two, one_div, div_inv_eq_mul]
  rw [hdouble, Intrinsic.foldOffset_real, doubling]
  simp only [mixed_operation, mixed_vector hwords, hname, htwo, Option.bind_some]
  rfl

theorem Folding.change (h : Folding names p) {a : Phrase} {q : Vec3 ℝ}
    (ha : a.mixed names = some (.vector q)) :
    ∃ names', Clause.change names ("q", a) = some names' ∧ Folding names' q := by
  refine ⟨_, ?_, h.update q⟩
  rw [Clause.change, h.point, Option.bind_some, ha]
  rfl

/-- A round of the helper is one of the fold. -/
theorem Folding.round (h : Folding names p) :
    ∃ names', foldChanges.foldlM Clause.change names = some names' ∧
      Folding names' (Intrinsic.foldRound p) := by
  obtain ⟨names₁, hchange₁, h₁⟩ := h.change (mixed_reflection h.point h.first)
  obtain ⟨names₂, hchange₂, h₂⟩ := h₁.change (mixed_reflection h₁.point h₁.second)
  obtain ⟨names₃, hchange₃, h₃⟩ := h₂.change (mixed_reflection h₂.point h₂.third)
  obtain ⟨names₄, hchange₄, h₄⟩ := h₃.change (mixed_doubling h₃.point)
  refine ⟨names₄, ?_, ?_⟩
  · simp only [foldChanges, List.foldlM_cons, List.foldlM_nil, hchange₁, hchange₂, hchange₃, hchange₄,
      Option.bind_eq_bind, Option.bind_some]
    rfl
  · have hround : Intrinsic.foldRound p = (Intrinsic.mirror (Intrinsic.mirror
        (Intrinsic.mirror p (.ofWords Intrinsic.normalWords.1))
        (.ofWords Intrinsic.normalWords.2.1)) (.ofWords Intrinsic.normalWords.2.2)).shrink
        Intrinsic.foldScale - Intrinsic.foldOffset := by
      rw [Intrinsic.foldRound, Intrinsic.foldNormals_real]
    rwa [hround]

theorem run_foldClauses (n : UInt32) (hp : names "p" = some (.vector p)) :
    Clause.run (foldClauses n) names = some (.vector (Intrinsic.foldPoint n.toNat p)) := by
  obtain ⟨h₁, h₂, h₃, -⟩ := by simpa only [List.forall_mem_cons] using isFinite_foldWords
  let names₁ := Function.update names "n1" (some (.vector (.ofWords Intrinsic.normalWords.1)))
  let names₂ := Function.update names₁ "n2" (some (.vector (.ofWords Intrinsic.normalWords.2.1)))
  let names₃ := Function.update names₂ "n3" (some (.vector (.ofWords Intrinsic.normalWords.2.2)))
  let names₄ := Function.update names₃ "q" (some (.vector p))
  have hfolding : Folding (Function.update names₄ "i" none) (Intrinsic.foldRound^[0] p) :=
    ⟨rfl, rfl, rfl, rfl⟩
  -- The invariant of the loop: after `i` rounds the point has been folded `i` times.
  obtain ⟨names', hloop, h'⟩ := Clause.exists_repeated
    (P := fun i names => Folding names (Intrinsic.foldRound^[i] p))
    (fun i names h => by
      rw [Function.iterate_succ_apply']
      exact h.round) n.toNat hfolding
  rw [Nat.zero_add, ← Intrinsic.foldPoint_eq_iterate] at h'
  have hstart : (Code.named "p").phrase.mixed names₃ = some (.vector p) := hp
  simp only [foldClauses, Clause.run, mixed_vector h₁, mixed_vector h₂, mixed_vector h₃,
    Option.bind_some]
  rw [hstart, Option.bind_some, hloop, Option.bind_some]
  exact h'.point

/-- For every number of rounds that a graph folds with, the text of its module has a helper that folds
as the graph does. -/
theorem helperIn_fold {program : Program} (hw : program.WellFormed) {node : Node}
    (hnode : node ∈ program.nodes) {a : Handle} {n : UInt32} (hop : node.op = .fold a n)
    (p : Vec3 ℝ) :
    helperIn (moduleText program) ("sierpinski_fold_" ++ toString n.toNat) [.vector p] =
      some (.vector (Intrinsic.foldPoint n.toNat p)) := by
  rw [helperIn, helper?_fold hw hnode hop, Option.bind_some]
  exact (if_pos rfl).trans (run_foldClauses n rfl)

end

open Shape in
/-- The loop of a fold is its rounds, one within the other: as a shape with any number of rounds that
an exponent may count, so that loops may be joined and parted; as a graph, as long as the scale is
not too small for the binary32 number that a graph holds it as; and in the text of a module. -/
theorem fold_unrolled :
    (∀ (bindings : Bindings ℝ) (site : Site (Vec3 ℝ)) (base : Shape Word),
      let value (shape : Shape Word) := shape.value Scalar.ofWord bindings site
      (∀ n : UInt32, n.toNat ≤ 2147483647 →
        value (sierpinski n base) = value (foldOnce^[n.toNat] base)) ∧
      ∀ m n : UInt32, m.toNat + n.toNat ≤ 2147483647 →
        value (sierpinski m (sierpinski n base)) = value (sierpinski (m + n) base)) ∧
    (∀ (bindings : Bindings ℝ) (base : Shape Word), base.Closed →
      let Same (shape shape' : Shape Word) :=
        ∃ value, shape.Compiles bindings value ∧ shape'.Compiles bindings value
      (∀ n : UInt32, n.toNat ≤ 149 → Same (sierpinski n base) (foldOnce^[n.toNat] base)) ∧
      ∀ m n : UInt32, m.toNat + n.toNat ≤ 149 →
        Same (sierpinski m (sierpinski n base)) (sierpinski (m + n) base)) ∧
    ∀ {scene : Scene} {options : Options Word} {program : Program},
      Program.ofScene scene options = .ok program →
        ∀ node ∈ program.nodes, ∀ (a : Handle) (n : UInt32), node.op = .fold a n → ∀ p : Vec3 ℝ,
          helperIn (Kernel.ofProgram program).source ("sierpinski_fold_" ++ toString n.toNat)
            [.vector p] = some (.vector (Intrinsic.foldPoint n.toNat p)) := by
  refine ⟨fun bindings site base => ?_, fun bindings base hbase => ?_, ?_⟩
  · have hunrolls := unrolls_value bindings
    exact ⟨fun n hn => hunrolls.sierpinski_eq hn base site,
      fun m n hmn => hunrolls.sierpinski_sierpinski hmn (by decide) base site⟩
  · have hunrolls := unrolls_computed bindings
    intro Same
    have hsame {shape shape' : Shape Word} (hshape : shape.Closed) (hshape' : shape'.Closed)
        (heq : ∀ site, shape.computed bindings site = shape'.computed bindings site) :
        Same shape shape' := by
      refine ⟨shape.computed bindings, compiles_computed hshape bindings, ?_⟩
      rw [funext heq]
      exact compiles_computed hshape' bindings
    exact ⟨fun n hn => hsame hbase (closed_iterate hbase _) fun site =>
        hunrolls.sierpinski_eq hn base site,
      fun m n hmn => hsame hbase hbase fun site =>
        hunrolls.sierpinski_sierpinski hmn (by decide) base site⟩
  · intro scene options program h node hnode a n hop p
    obtain ⟨hw, -⟩ := Program.spec_of_ofScene h
    exact helperIn_fold hw hnode hop p

/-! ## A folded ball -/

theorem exists_node_of_fold {nodes : Array Node} {h : Handle} {t : Tree} {n : UInt32}
    (hdenotes : Denotes nodes h (.node (.fold t n))) :
    ∃ node ∈ nodes, ∃ a, node.op = .fold a n := by
  generalize htree : Tree.node (.fold t n) = s at hdenotes
  cases hdenotes with
  | node op hnode hop =>
    refine ⟨_, Array.mem_of_getElem? hnode, ?_⟩
    cases op with
    | fold a m =>
      cases htree
      exact ⟨a.1, hop⟩
    | _ => cases htree

open Kernel in
/-- A ball, folded into many. -/
def gasket : Entity := ⟨.first, .sierpinski 5 (.sphere 0.5), swatch 0.25⟩

open Kernel in
theorem gasket_closed : (stage [gasket]).Closed := by
  refine ⟨List.forall_mem_singleton.2 ⟨trivial, swatch_closed _⟩, ?_, swatch_closed _⟩
  exact (stage_closed (List.nil_subset _)).camera

open Kernel in
theorem exists_program_gasket :
    ∃ program, Program.ofScene (stage [gasket]) .standard = .ok program ∧
      ∃ node ∈ program.nodes, ∃ a, node.op = .fold a 5 := by
  have hvalid : Options.standard.validate = .ok () := by decide +kernel
  have hhashes : ((stage [gasket]).assemble.made.map Tree.hash).Nodup := by decide +kernel
  obtain ⟨hsize, program, hprogram⟩ := Program.exists_ofScene_of_few gasket_closed
    (by decide +kernel) hvalid (fun s hs t ht => List.inj_on_of_nodup_map hhashes hs ht)
    (by decide +kernel) (by decide +kernel) (by decide +kernel) (by decide +kernel)
  obtain ⟨-, hof, -⟩ := Program.spec_of_ofScene hprogram
  obtain ⟨-, -, hholds⟩ := Scene.build_describes gasket_closed (.inl hsize)
  have hmade : Tree.node (.fold (.node (.var .position)) 5) ∈ (stage [gasket]).assemble.made :=
    List.mem_of_getElem? (i := 1) rfl
  obtain ⟨h, hdenotes⟩ := (hholds _).2 hmade
  exact ⟨program, hprogram, hof.nodes ▸ exists_node_of_fold hdenotes⟩

open Kernel Shape in
/-- Five rounds, two of three, and the helper of the folded ball. -/
theorem fold_unrolled_gasket :
    let bindings : Bindings ℝ := .atPoint .zero
    let site : Site (Vec3 ℝ) := .outer ⟨1, 2, 3⟩
    let value (shape : Shape Word) := shape.value Scalar.ofWord bindings site
    value (sierpinski 5 (.sphere 0.5)) = value (foldOnce^[5] (.sphere 0.5)) ∧
      value (sierpinski 2 (sierpinski 3 (.sphere 0.5))) = value (sierpinski 5 (.sphere 0.5)) ∧
      (∃ value, (sierpinski 5 (.sphere 0.5)).Compiles bindings value ∧
        (foldOnce^[5] (.sphere 0.5)).Compiles bindings value) ∧
      ∃ program, Program.ofScene (stage [gasket]) .standard = .ok program ∧
        helperIn (Kernel.ofProgram program).source "sierpinski_fold_5" [.vector site.point] =
          some (.vector (Intrinsic.foldPoint 5 site.point)) := by
  intro bindings site value
  obtain ⟨program, hprogram, node, hnode, a, hop⟩ := exists_program_gasket
  obtain ⟨hvalue, hgraph, hhelper⟩ := fold_unrolled
  obtain ⟨hloop, hjoined⟩ := hvalue bindings site (.sphere 0.5)
  obtain ⟨hsame, -⟩ := hgraph bindings (.sphere 0.5) trivial
  exact ⟨hloop 5 (by decide), hjoined 2 3 (by decide), hsame 5 (by decide), program, hprogram,
    hhelper hprogram node hnode a 5 hop site.point⟩

end SphereTracer.Shader
