import SphereTracer.Proofs.Interpreter.Memory
import SphereTracer.Proofs.Shader.Meaning

/-!
# Procedures and the interpreter agree

A line of a procedure binds the name of a node to the value of the node's tree.  What a procedure
gives back, as it is read from the text of its module, is what the interpreter answers.
-/

namespace SphereTracer.Shader

open Token SphereTracer.Graph

/-! ## Running the lines of an order -/

section
variable {nodes : Array Node} {tree : Handle → Tree} {b : Bindings Float32}
  {records : String → Option (List String)} {scope : String → Option (Value Float32)}

/-- The names of some nodes stand for the values of their trees. -/
def Bound (nodes : Array Node) (tree : Handle → Tree) (b : Bindings Float32)
    (scope : String → Option (Value Float32)) (l : List Handle) : Prop :=
  ∀ h ∈ l, scope (nodeIdent nodes h).text = some (.vector ((tree h).eval b))

/-- The names of the variables that some nodes read stand for what they should. -/
def Given (nodes : Array Node) (b : Bindings Float32) (scope : String → Option (Value Float32))
    (l : List Handle) : Prop :=
  ∀ h ∈ l, ∀ v, Program.varOf nodes h = some v → scope (varName v) = some (varValue b v)

theorem varName_mem (v : Var) : varName v ∈ ["uniforms", "p", "n", "d"] := by
  cases v <;> simp [varName]

theorem Given.update {l : List Handle} (h : Given nodes b scope l) (a : Handle)
    (value : Option (Value Float32)) :
    Given nodes b (Function.update scope (nodeIdent nodes a).text value) l := by
  intro c hc v hv
  have hne : varName v ≠ (nodeIdent nodes a).text := fun heq =>
    not_isNodeName (varName_mem v) ⟨_, heq⟩
  rw [Function.update_of_ne hne]
  exact h c hc v hv

theorem Bound.update (hnames : (nodes.toList.map Node.name).Nodup) {l : List Handle}
    (h : Bound nodes tree b scope l) (hlt : ∀ c ∈ l, c.index < nodes.size) {a : Handle}
    (ha : a.index < nodes.size) :
    Bound nodes tree b (Function.update scope (nodeIdent nodes a).text
      (some (.vector ((tree a).eval b)))) (l ++ [a]) := by
  intro c hc
  by_cases heq : c = a
  · rw [heq, Function.update_self]
  · have hmem : c ∈ l := by
      rcases List.mem_append.1 hc with hc | hc
      · exact hc
      · exact absurd (List.mem_singleton.1 hc) heq
    have hne : (nodeIdent nodes c).text ≠ (nodeIdent nodes a).text := fun htext =>
      heq (nodeIdent_inj hnames (hlt c hmem) ha htext)
    rw [Function.update_of_ne hne]
    exact h c hmem

/-- The right side of a node's line has the value of the node's tree. -/
theorem run_bindingSentence (hfinite : ∀ node ∈ nodes, node.op.Finite) {h : Handle}
    (ht : Denotes nodes h (tree h)) (hgiven : Given nodes b scope [h])
    (hbound : ∀ a, Uses nodes h a →
      Denotes nodes a (tree a) ∧ scope (nodeIdent nodes a).text = some (.vector ((tree a).eval b)))
    (rest : List Sentence) :
    Sentence.run records (bindingSentence nodes h :: rest) scope =
      Sentence.run records rest (Function.update scope (nodeIdent nodes h).text
        (some (.vector ((tree h).eval b)))) := by
  obtain ⟨node, hnode⟩ : ∃ node, nodes[h.index]? = some node :=
    ⟨_, Array.getElem?_eq_getElem ht.index_lt⟩
  have hvar : ∀ v, node.op.var? = some v → scope (varName v) = some (varValue b v) := by
    intro v hv
    refine hgiven h List.mem_cons_self v ?_
    rw [Program.varOf_eq_of_getElem? hnode]
    exact hv
  have hvalue : (opCode (nodeCode nodes) node.op).phrase.value records scope =
      some (.vector (node.op.eval Scalar.ofWord (fun a => (tree a).eval b) b)) :=
    value_opCode (hfinite node (Array.mem_of_getElem? hnode))
      (fun a ha => (hbound a ((uses_iff hnode).2 ha)).2) hvar
  have htree : node.op.eval Scalar.ofWord (fun a => (tree a).eval b) b = (tree h).eval b := by
    refine ht.eval_op hnode fun a ha t' ht' => ?_
    rw [(hbound a ((uses_iff hnode).2 ha)).1.unique ht']
  rw [bindingSentence, hnode, Sentence.run, hvalue, htree]
  rfl

theorem run_orderSentences (hnames : (nodes.toList.map Node.name).Nodup)
    (hfinite : ∀ node ∈ nodes, node.op.Finite) {roots : List Handle} {order : Array Handle}
    (he : Evaluable nodes roots order) (htree : ∀ h ∈ order, Denotes nodes h (tree h))
    (hgiven : Given nodes b scope order.toList) (value : Code) :
    ∃ scope', Bound nodes tree b scope' order.toList ∧
      Sentence.run records (orderSentences nodes order value) scope =
        value.phrase.value records scope' := by
  have hlt : ∀ h ∈ order.toList, h.index < nodes.size := fun h hh =>
    he.index_lt h (Array.mem_toList_iff.1 hh)
  simp only [← Array.mem_toList_iff] at htree
  suffices hrest : ∀ rest done, order.toList = done ++ rest → ∀ scope,
      Bound nodes tree b scope done → Given nodes b scope order.toList →
      ∃ scope', Bound nodes tree b scope' order.toList ∧
        Sentence.run records (rest.map (bindingSentence nodes) ++ [.giveBack value.phrase]) scope =
          value.phrase.value records scope' from
    hrest order.toList [] rfl scope (fun _ hh => absurd hh List.not_mem_nil) hgiven
  intro rest
  induction rest with
  | nil =>
    intro done hsplit scope hbound _
    rw [List.append_nil] at hsplit
    exact ⟨scope, hsplit ▸ hbound, rfl⟩
  | cons h rest ih =>
    intro done hsplit scope hbound hgiven
    have hmem : h ∈ order.toList := by simp [hsplit]
    have hdone {a : Handle} (ha : a ∈ done) : a ∈ order.toList := by simp [hsplit, ha]
    have hoperands : ∀ a, Uses nodes h a → Denotes nodes a (tree a) ∧
        scope (nodeIdent nodes a).text = some (.vector ((tree a).eval b)) := by
      intro a huse
      -- What the line uses stands before it in the order, so it has been bound.
      have ha := he.operandsFirst done h rest hsplit a huse
      exact ⟨htree a (hdone ha), hbound a ha⟩
    rw [List.map_cons, List.cons_append, run_bindingSentence hfinite (htree h hmem)
      (List.forall_mem_singleton.2 (hgiven h hmem)) hoperands]
    refine ih (done ++ [h]) (by simp [hsplit]) _ ?_ (hgiven.update h _)
    exact hbound.update hnames (fun a ha => hlt a (hdone ha)) (hlt h hmem)

/-! ## Values that are given back -/

theorem value_first_nodeCode {h : Handle} {l : List Handle} (hbound : Bound nodes tree b scope l)
    (hh : h ∈ l) : (nodeCode nodes h).first.phrase.value records scope =
      some (.scalar ((tree h).eval b).x) := by
  change (scope (nodeIdent nodes h).text).bind (Value.member "x") = _
  rw [hbound h hh, Option.bind_some]
  rfl

theorem value_nodeCode {h : Handle} {l : List Handle} (hbound : Bound nodes tree b scope l)
    (hh : h ∈ l) : (nodeCode nodes h).phrase.value records scope =
      some (.vector ((tree h).eval b)) := hbound h hh

/-- A constructor makes a record of its arguments. -/
theorem value_constructor {f : Builtin} (hf : callee? f.text = none) {members : List String}
    (hmembers : records f.text = some members) {arguments : List Code} {l : List (Value Float32)}
    (hl : Phrase.values records scope (Code.phraseList arguments) = some l)
    (hlength : members.length = l.length) {x : Value Float32}
    (hx : .record f.text (members.zip l) = x) :
    (Code.builtin f arguments).phrase.value records scope = some x := by
  change (Phrase.values records scope (Code.phraseList arguments)).bind
    (callValue records f.text) = _
  rw [hl, Option.bind_some, callValue, hf]
  dsimp only
  rw [hmembers, Option.bind_some, if_pos hlength, hx]

theorem value_materialCode {m : Material Handle} {l : List Handle}
    (hbound : Bound nodes tree b scope l) (hm : m.toList ⊆ l)
    (hrecord : records "Material" = some
      ["transmittance", "smoothness", "refraction", "scatter", "color", "emissivity"]) :
    (materialCode nodes m).phrase.value records scope =
      some (.ofSurface (.ofMaterial (m.map fun h => (tree h).eval b))) := by
  simp only [Material.toList, List.cons_subset] at hm
  obtain ⟨h₁, h₂, h₃, h₄, h₅, h₆, -⟩ := hm
  have hname : callee? Builtin.material.text = none := by decide +kernel
  apply value_constructor hname hrecord
  · simp only [Code.phraseList, Phrase.values, value_first_nodeCode hbound,
      value_nodeCode hbound, *]
    rfl
  · rfl
  · rfl

theorem value_frameCode {camera : Camera Handle} {air : Material Handle} {l : List Handle}
    (hbound : Bound nodes tree b scope l) (hl : camera.toList ++ air.toList ⊆ l)
    (hmaterial : records "Material" = some
      ["transmittance", "smoothness", "refraction", "scatter", "color", "emissivity"])
    (hframe : records "Frame" = some
      ["eye", "look_at", "up_hint", "field_of_view", "aperture", "focal_factor", "air"]) :
    (frameCode nodes camera air).phrase.value records scope =
      some (.ofFrame (.ofValues (camera.map fun h => (tree h).eval b)
        (air.map fun h => (tree h).eval b))) := by
  obtain ⟨hcamera, hair⟩ := List.append_subset.1 hl
  have hvalue := value_materialCode hbound hair hmaterial
  simp only [Camera.toList, List.cons_subset] at hcamera
  obtain ⟨h₁, h₂, h₃, h₄, h₅, h₆, -⟩ := hcamera
  have hname : callee? Builtin.frame.text = none := by decide +kernel
  apply value_constructor hname hframe
  · simp only [Code.phraseList, Phrase.values, value_first_nodeCode hbound,
      value_nodeCode hbound, *]
    rfl
  · rfl
  · rfl

end

/-! ## Agreement -/

section
variable {program : Program} {environment : Environment Float32}

theorem callIn_eq (hw : program.WellFormed) {name : String} {parameters : List String}
    {order : Array Handle} {value : Code} {roots : List Handle} {tree : Handle → Tree}
    (b : Bindings Float32) {arguments : List (Value Float32)} {x : Value Float32}
    (hprocedure : procedure? (moduleText program) name =
      some ⟨parameters, orderSentences program.nodes order value⟩)
    (hlength : parameters.length = arguments.length) (he : Evaluable program.nodes roots order)
    (htree : ∀ h ∈ order, Denotes program.nodes h (tree h))
    (hgiven : Given program.nodes b
      ((parameters.zip arguments ++ [("uniforms", Value.ofEnvironment environment)]).lookup ·)
      order.toList)
    (hvalue : ∀ scope, Bound program.nodes tree b scope order.toList →
      value.phrase.value (fun record => members? record (ofText (moduleText program))) scope =
        some x) :
    callIn (moduleText program) name environment arguments = some x := by
  obtain ⟨scope, hbound, hrun⟩ := run_orderSentences hw.names hw.finite he htree hgiven value
  rw [callIn, hprocedure, Option.bind_some, Procedure.call, if_pos hlength, hrun]
  exact hvalue scope hbound

theorem callIn_distance (hw : program.WellFormed) {e : EntityProgram} (he : e ∈ program.entities)
    {tree : Handle → Tree} (htree : ∀ h ∈ e.distanceOrder, Denotes program.nodes h (tree h))
    (p : Vec3 Float32) :
    callIn (moduleText program) ("distance" ++ toString e.id) environment [.vector p] = some
      (.scalar ((tree e.distance).eval (Interpreter.bindings environment p .zero .zero)).x) := by
  refine callIn_eq hw (Interpreter.bindings environment p .zero .zero) (procedure?_distance hw he)
    rfl (hw.distance e he) htree ?_ ?_
  · intro h hh v hv
    obtain ⟨hnormal, hdirection⟩ := hw.distance_var e he h (Array.mem_toList_iff.1 hh)
    cases v with
    | normal => exact absurd hv hnormal
    | direction => exact absurd hv hdirection
    | _ => rfl
  · intro scope hbound
    have hroot := (hw.distance e he).root_mem e.distance List.mem_cons_self
    exact value_first_nodeCode hbound (Array.mem_toList_iff.2 hroot)

theorem callIn_material (hw : program.WellFormed) {e : EntityProgram} (he : e ∈ program.entities)
    {tree : Handle → Tree} (htree : ∀ h ∈ e.materialOrder, Denotes program.nodes h (tree h))
    (p n d : Vec3 Float32) :
    callIn (moduleText program) ("material" ++ toString e.id) environment
        [.vector p, .vector n, .vector d] =
      some (.ofSurface (.ofMaterial
        (e.material.map fun h => (tree h).eval (Interpreter.bindings environment p n d)))) := by
  refine callIn_eq hw (Interpreter.bindings environment p n d) (procedure?_material hw he) rfl
    (hw.material e he) htree ?_ ?_
  · intro h _ v _
    cases v <;> rfl
  · intro scope hbound
    have hroots : e.material.toList ⊆ e.materialOrder.toList := fun r hr =>
      Array.mem_toList_iff.2 ((hw.material e he).root_mem r hr)
    exact value_materialCode hbound hroots (members?_material program)

theorem callIn_frame (hw : program.WellFormed) {tree : Handle → Tree}
    (htree : ∀ h ∈ program.frame.order, Denotes program.nodes h (tree h)) :
    callIn (moduleText program) "frame_setup" environment [] =
      let value (h : Handle) := (tree h).eval (Interpreter.bindings environment .zero .zero .zero)
      some (.ofFrame
        (.ofValues (program.frame.camera.map value) (program.frame.air.map value))) := by
  refine callIn_eq hw (Interpreter.bindings environment .zero .zero .zero) (procedure?_frame hw)
    rfl hw.frame htree ?_ ?_
  · intro h hh v hv
    obtain ⟨hposition, hnormal, hdirection⟩ := hw.frame_var h (Array.mem_toList_iff.1 hh)
    cases v with
    | position => exact absurd hv hposition
    | normal => exact absurd hv hnormal
    | direction => exact absurd hv hdirection
    | _ => rfl
  · intro scope hbound
    have hroots : program.frame.camera.toList ++ program.frame.air.toList ⊆
        program.frame.order.toList := fun r hr => Array.mem_toList_iff.2 (hw.frame.root_mem r hr)
    exact value_frameCode hbound hroots (members?_material program) (members?_frame program)

/-- For every program, in every environment, what the text of its kernel says that the procedures give
back is what any interpreter of the program answers: for each entity at every point the distance, and
for every normal and direction the material, member by member as the text declares them; and the
frame. -/
theorem callIn_source_eq {scene : Scene} {options : Options Word}
    (h : Program.ofScene scene options = .ok program) {it : Interpreter Float32}
    (hit : it.Of program environment) :
    let call := callIn (Kernel.ofProgram program).source
    (∀ e ∈ program.entities, ∀ p n d : Vec3 Float32,
      call ("distance" ++ toString e.id) environment [.vector p] =
          some (.scalar (it.distance e p).1) ∧
        call ("material" ++ toString e.id) environment [.vector p, .vector n, .vector d] =
          some (.ofSurface (it.material e.id.raw p n d).1)) ∧
      call "frame_setup" environment [] = some (.ofFrame it.frame.1) := by
  obtain ⟨hw, -⟩ := Program.spec_of_ofScene h
  intro call
  refine ⟨fun e he p n d => ⟨?_, ?_⟩, ?_⟩
  · obtain ⟨tree, htree⟩ := (hw.distance e he).exists_trees
    have hroot := (hw.distance e he).root_mem e.distance List.mem_cons_self
    -- Both sides are the value of one tree.
    rw [(Interpreter.gives_distance (hw.distance e he) (htree _ hroot) p it hit).1]
    exact callIn_distance hw he htree p
  · obtain ⟨tree, htree⟩ := (hw.material e he).exists_trees
    have hid := hw.entity?_iff.2 ⟨he, rfl⟩
    have hroots : ∀ a ∈ e.material.toList, Denotes program.nodes a (tree a) := fun a ha =>
      htree a ((hw.material e he).root_mem a ha)
    rw [(Interpreter.gives_material hid (hw.material e he) hroots p n d it hit).1]
    exact callIn_material hw he htree p n d
  · obtain ⟨tree, htree⟩ := hw.frame.exists_trees
    have hroots : ∀ a ∈ program.frame.camera.toList ++ program.frame.air.toList,
        Denotes program.nodes a (tree a) := fun a ha => htree a (hw.frame.root_mem a ha)
    rw [(Interpreter.gives_frame hw.frame hroots it hit).1]
    exact callIn_frame hw htree

end

open Kernel in
/-- The distance to the ball and the material of the ground, in the middle of the first second. -/
theorem callIn_source_eq_stage :
    ∃ program, Program.ofScene (stage [ball, ground]) .standard = .ok program ∧
      ∃ b ∈ program.entities, ∃ g ∈ program.entities, b.id = ball.id ∧ g.id = ground.id ∧
        let environment : Environment Float32 := ⟨⟨0.25, 0.0⟩, 0.5⟩
        let it := Interpreter.new program environment
        let call := callIn (Kernel.ofProgram program).source
        call "distance1" environment [.vector .one] = some (.scalar (it.distance b .one).1) ∧
          call "material2" environment [.vector .one, .vector .unitY, .vector .unitX] =
            some (.ofSurface (it.material 2 .one .unitY .unitX).1) ∧
          call "frame_setup" environment [] = some (.ofFrame it.frame.1) := by
  obtain ⟨program, hprogram, b, hb, g, hg, hball, hground⟩ := exists_program_entities
  refine ⟨program, hprogram, b, hb, g, hg, hball, hground, ?_⟩
  intro environment it call
  obtain ⟨hentities, hframe⟩ := callIn_source_eq hprogram (Interpreter.of_new program environment)
  have hdistance := (hentities b hb .one .unitY .unitX).1
  have hmaterial := (hentities g hg .one .unitY .unitX).2
  rw [hball] at hdistance
  rw [hground] at hmaterial
  exact ⟨hdistance, hmaterial, hframe⟩

end SphereTracer.Shader
