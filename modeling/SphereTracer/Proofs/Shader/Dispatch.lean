import SphereTracer.Proofs.Shader.Execution
import SphereTracer.Proofs.Trace.Hits

/-!
# Telling entities apart

A module knows an entity by a number, which its routines write down where the types ask for an `i32`.
Every id that is an `i32` is written as what it is, and then the routines find the entities that the
interpreter finds.  Ids go further than that: one from `2 ^ 31` on is written like any other, and is
no number there.
-/

namespace SphereTracer.Shader

section
variable {types : Types} {call : String → List (Value Float32) → Option (Value Float32)}
  {scope : Scope Float32}

/-! ## The nearest entity -/

/-- What names stand for while the nearest entity is searched for. -/
structure Searches (scope : Scope Float32) (p : Vec3 Float32) (best : Closest Float32) : Prop where
  point : scope "p" = some (.value (.vector p))
  closest : scope "closest" = some (.ofClosest best)

theorem dues_closest (hknown : types.Known) : types.dues "Closest" = [true, false] := by
  unfold Types.dues
  rw [hknown.closest]
  rfl

theorem datum_closest (hknown : types.Known) {n : UInt32} (hn : n.toNat < 2 ^ 31) {a : Code}
    {x : Float32} (ha : a.phrase.datum types call scope false = some (.value (.scalar x))) :
    (Code.builtin .closest [.int n, a]).phrase.datum types call scope false =
      some (.ofClosest ⟨n, x⟩) := by
  have hid : (Phrase.number (toString n.toNat)).datum types call scope true =
      some (.integer n.toInt32) := by
    rw [Phrase.datum, if_pos rfl, integer?_toInt32 hn]
    rfl
  show (Phrase.call "Closest" [.number (toString n.toNat), a.phrase]).datum types call scope false = _
  rw [Phrase.datum, dues_closest hknown, Phrase.data, Phrase.data, Phrase.data, List.headD_cons, hid,
    List.tail_cons, List.headD_cons, ha]
  dsimp only [Option.bind_some, Option.map_some]
  rw [hknown.closest]
  rfl

/-- The distance that is compared is that of the entity, without its sign. -/
theorem datum_distance (hknown : types.Known) {p : Vec3 Float32}
    (hp : scope "p" = some (.value (.vector p))) {id : EntityId} {x : Float32}
    (hx : call ("distance" ++ toString id) [.vector p] = some (.scalar x)) :
    (Code.builtin .abs [distanceAt id (.named "p")]).phrase.datum types call scope false =
      some (.value (.scalar (Scalar.abs x))) := by
  have hpoint : (Code.named "p").phrase.datum types call scope false = some (.value (.vector p)) :=
    hp
  have hcall : (Code.call (.generated (.distance id)) [.named "p"]).phrase.datum types call scope
      false = some (.value (.scalar x)) := by
    rw [datum_procedure hknown (show "distance" ∈ entityKinds from List.mem_cons_self)
      (show (FunctionName.distance id).text = "distance" ++ toString id from rfl)
      (data_single hpoint), hx]
    rfl
  exact datum_abs hknown hcall false

/-- The name of a distance begins with a `d`, so it hides neither of the two that are looked up. -/
theorem Searches.update {p : Vec3 Float32} {best : Closest Float32} (h : Searches scope p best)
    (id : EntityId) (value : Option (Datum Float32)) :
    Searches (Function.update scope ("d" ++ toString id) value) p best := by
  have hne {s : String} (hs : s.toList.head? ≠ some 'd') : s ≠ "d" ++ toString id := by
    rintro rfl
    exact hs (by simp)
  constructor
  · rw [Function.update_of_ne (hne (by decide)), h.point]
  · rw [Function.update_of_ne (hne (by decide)), h.closest]

/-- One entity is compared with the nearest so far. -/
theorem Searches.offer (hknown : types.Known)
    {p : Vec3 Float32} {best : Closest Float32} (h : Searches scope p best) {id : EntityId}
    (hid : id.raw.toNat < 2 ^ 31) {x : Float32}
    (hx : call ("distance" ++ toString id) [.vector p] = some (.scalar x)) :
    ∃ scope', Instruction.runAll types call (closestInstructions id) scope = some (.inr scope') ∧
      Searches scope' p (best.offer id.raw (Scalar.abs x)) := by
  let d : String := "d" ++ toString id
  let near : Scope Float32 := Function.update scope d (some (.value (.scalar (Scalar.abs x))))
  have hkept : Searches near p best := h.update id _
  have hnear : near d = some (.value (.scalar (Scalar.abs x))) := Function.update_self ..
  have hless : (Code.operation .less (.named d) (.access (.named "closest") "dist")).phrase.datum
      types call near false = some (.value (.truth (Scalar.lt (Scalar.abs x) best.distance))) := by
    show (Phrase.operation .less (.name d) (.member (.name "closest") "dist")).datum types call near
      false = _
    rw [Phrase.datum, Phrase.datum, Phrase.datum, Phrase.datum, hnear, hkept.closest]
    rfl
  have hnamed : (Code.named d).phrase.datum types call near false =
      some (.value (.scalar (Scalar.abs x))) := hnear
  have hassign := datum_closest hknown hid hnamed
  rw [closestInstructions, Instruction.runAll, Instruction.run, datum_distance hknown h.point hx,
    Option.map_some, Option.bind_some]
  show ∃ scope', Instruction.runAll types call [.guarded
      (Code.operation .less (.named d) (.access (.named "closest") "dist")).phrase
      [.set "closest" (Code.builtin .closest [.int id.raw, .named d]).phrase]] near =
        some (.inr scope') ∧ _
  rw [Instruction.runAll, Instruction.run, hless, Option.bind_some]
  unfold Closest.offer
  dsimp only
  by_cases hlt : Scalar.lt (Scalar.abs x) best.distance
  · rw [if_pos hlt, if_pos hlt, Instruction.runAll, Instruction.run, hassign]
    refine ⟨_, rfl, ?_, ?_⟩
    · rw [Function.update_of_ne (by decide), hkept.point]
    · exact Function.update_self ..
  · rw [if_neg hlt, if_neg hlt]
    exact ⟨_, rfl, hkept⟩

theorem Searches.foldl (hknown : types.Known)
    {p : Vec3 Float32} {best : Closest Float32} (h : Searches scope p best)
    {l : List EntityProgram} {value : EntityProgram → Float32}
    (hl : ∀ e ∈ l, e.id.raw.toNat < 2 ^ 31 ∧
      call ("distance" ++ toString e.id) [.vector p] = some (.scalar (value e))) :
    ∃ scope', Instruction.runAll types call ((l.map (·.id)).flatMap closestInstructions) scope =
        some (.inr scope') ∧
      Searches scope' p (l.foldl (fun best e => best.offer e.id.raw (Scalar.abs (value e))) best) := by
  induction l generalizing scope best with
  | nil => exact ⟨scope, rfl, h⟩
  | cons e l ih =>
    rw [List.forall_mem_cons] at hl
    obtain ⟨⟨hid, hvalue⟩, hl⟩ := hl
    obtain ⟨next, hrun, hnext⟩ := h.offer hknown hid hvalue
    obtain ⟨last, hrest, hlast⟩ := ih hnext hl
    refine ⟨last, ?_, hlast⟩
    rw [List.map_cons, List.flatMap_cons, runAll_append, hrun]
    exact hrest

/-! ## Entities by their ids -/

/-- A condition on the id is that of the entity. -/
theorem run_idInstruction {i : Int32} (hscope : scope "id" = some (.integer i))
    (hinteger : "id" ∈ types.integers) {id : EntityId} (hid : id.raw.toNat < 2 ^ 31)
    (callee : EntityId → FunctionName) (arguments : List Code) :
    (idInstruction callee arguments id).run types call scope =
      if id.raw = i.toUInt32 then
        ((Code.call (.generated (callee id)) arguments).phrase.datum types call scope false).map .inl
      else some (.inr scope) := by
  have hdue : types.isInteger (.name "id") = true := decide_eq_true hinteger
  have hequal : (Code.operation .equal (.named "id") (.int id.raw)).phrase.datum types call scope
      false = some (.value (.truth (i = id.raw.toInt32))) := by
    show (Phrase.operation .equal (.name "id") (.number (toString id.raw.toNat))).datum types call
      scope false = _
    rw [Phrase.datum, Phrase.datum, Phrase.datum, hdue, hscope, Bool.or_true, Bool.true_or, if_pos rfl,
      integer?_toInt32 hid]
    rfl
  rw [idInstruction, Instruction.run, hequal, Option.bind_some]
  -- The text compares as `i32`, which is the comparison of ids since both are small.
  by_cases heq : id.raw = i.toUInt32
  · dsimp only
    rw [if_pos heq, decide_eq_true (eq_toInt32_iff.2 heq), if_pos rfl, Instruction.runAll,
      Instruction.run]
    cases (Code.call (.generated (callee id)) arguments).phrase.datum types call scope false <;> rfl
  · dsimp only
    rw [if_neg heq, decide_eq_false fun hsame => heq (eq_toInt32_iff.1 hsame), if_neg (by decide)]

/-- The entity of the id answers, and if there is none, what comes last does. -/
theorem runAll_dispatch {i : Int32} (hscope : scope "id" = some (.integer i))
    (hinteger : "id" ∈ types.integers) {ids : List EntityId}
    (hids : ∀ id ∈ ids, id.raw.toNat < 2 ^ 31) (callee : EntityId → FunctionName)
    (arguments : List Code) (otherwise : Phrase) :
    Instruction.runAll types call
        (ids.map (idInstruction callee arguments) ++ [.giveBack otherwise]) scope =
      (match ids.find? fun id : EntityId => id.raw = i.toUInt32 with
        | some id => (Code.call (.generated (callee id)) arguments).phrase.datum types call scope false
        | none => otherwise.datum types call scope false).map .inl := by
  induction ids with
  | nil =>
    rw [List.map_nil, List.nil_append, Instruction.runAll, Instruction.run, List.find?_nil]
    cases otherwise.datum types call scope false <;> rfl
  | cons id ids ih =>
    rw [List.forall_mem_cons] at hids
    rw [List.map_cons, List.cons_append, Instruction.runAll,
      run_idInstruction hscope hinteger hids.1]
    by_cases heq : id.raw = i.toUInt32
    · rw [if_pos heq, List.find?_cons_of_pos (by simpa using heq)]
      dsimp only
      cases (Code.call (.generated (callee id)) arguments).phrase.datum types call scope false <;> rfl
    · rw [if_neg heq, List.find?_cons_of_neg (by simpa using heq)]
      exact ih hids.2

end

section
variable {program : Program} {call : String → List (Value Float32) → Option (Value Float32)}

theorem find?_ids (hw : program.WellFormed) (n : UInt32) :
    (program.entities.toList.map (·.id)).find? (fun id : EntityId => id.raw = n) =
      (program.entity? n).map (·.id) := by
  cases hfind : (program.entities.toList.map (·.id)).find? (fun id : EntityId => id.raw = n) with
  | none =>
    have hnone : program.entity? n = none := by
      rw [Option.eq_none_iff_forall_ne_some]
      intro e he
      obtain ⟨hmem, hid⟩ := hw.entity?_iff.1 he
      have hids := List.find?_eq_none.1 hfind e.id
        (List.mem_map_of_mem (Array.mem_toList_iff.2 hmem))
      exact hids (decide_eq_true hid)
    rw [hnone]
    rfl
  | some id =>
    obtain ⟨e, he, rfl⟩ := List.mem_map.1 (List.mem_of_find?_eq_some hfind)
    have hid := List.find?_some hfind
    rw [decide_eq_true_eq] at hid
    rw [hw.entity?_iff.2 ⟨Array.mem_toList_iff.1 he, hid⟩]
    rfl

theorem scope_max {parameters : List (String × String)} {arguments : List (Datum Float32)}
    (h : ((parameters.map (·.1)).zip arguments).lookup "MAX_VALUE" = none) (body : List Instruction) :
    (Routine.mk parameters body).scope (moduleText program) call arguments "MAX_VALUE" =
      some (.value (.scalar maxDistance)) := by
  unfold Routine.scope
  rw [h, constant?_max, Option.bind_some]
  exact datum_float (by decide) (by decide)

/-- A routine whose first parameter is an id asks the function of the entity of that id. -/
theorem call_dispatch (hw : program.WellFormed)
    (hids : ∀ e ∈ program.entities, e.id.raw.toNat < 2 ^ 31) (i : Int32)
    {parameters : List (String × String)} {rest : List (Datum Float32)}
    (hlength : parameters.length = rest.length) (callee : EntityId → FunctionName)
    (arguments : List Code) (otherwise : Phrase) :
    let r : Routine := ⟨("id", "i32") :: parameters,
      (program.entities.toList.map (·.id)).map (idInstruction callee arguments) ++
        [.giveBack otherwise]⟩
    let types := r.types (moduleText program)
    let scope := r.scope (moduleText program) call (.integer i :: rest)
    r.call (moduleText program) call (.integer i :: rest) =
      match program.entity? i.toUInt32 with
      | some e => (Code.call (.generated (callee e.id)) arguments).phrase.datum types call scope false
      | none => otherwise.datum types call scope false := by
  intro r types scope
  have hscope : scope "id" = some (.integer i) := rfl
  have hinteger : "id" ∈ types.integers := by
    show "id" ∈ (List.filter _ (("id", "i32") :: parameters)).map (·.1)
    simp
  have hall : ∀ id ∈ program.entities.toList.map (·.id), id.raw.toNat < 2 ^ 31 :=
    List.forall_mem_map.2 fun e he => hids e (Array.mem_toList_iff.1 he)
  have hparameters : r.parameters.length = (Datum.integer i :: rest).length :=
    congrArg (· + 1) hlength
  have hrun : Instruction.runAll types call r.body scope = _ :=
    runAll_dispatch hscope hinteger hall callee arguments otherwise
  rw [find?_ids hw] at hrun
  have hgiven (x : Option (Datum Float32)) :
      (x.map Sum.inl).bind (Sum.getLeft? (β := Scope Float32)) = x := by
    cases x <;> rfl
  rw [Routine.call, if_pos hparameters, hrun, hgiven]
  cases program.entity? i.toUInt32 <;> rfl

theorem datum_zero {types : Types} {scope : Scope Float32} :
    (Code.float 0.0).phrase.datum types call scope false = some (.value (.scalar 0.0)) :=
  datum_float (by decide) (by decide)

/-- The normal of an id is what the function of its entity gives. -/
theorem routineIn_normal (hw : program.WellFormed)
    (hids : ∀ e ∈ program.entities, e.id.raw.toNat < 2 ^ 31) (i : Int32) (p : Vec3 Float32) :
    routineIn (moduleText program) "calculateNormal" call [.integer i, .value (.vector p)] =
      match program.entity? i.toUInt32 with
      | some e => (call ("normal" ++ toString e.id) [.vector p]).map .value
      | none => some (.value (.vector .zero)) := by
  rw [routineIn, routine?_normal hw, Option.bind_some, call_dispatch hw hids i rfl]
  cases program.entity? i.toUInt32 with
  | none => exact datum_splat (Routine.known_types _ program) datum_zero false
  | some e =>
    have hnormal : "normal" ∈ entityKinds := by simp [entityKinds]
    exact datum_procedure (Routine.known_types _ program) hnormal
      (show (FunctionName.normal e.id).text = "normal" ++ toString e.id from rfl) (data_single rfl)

theorem dues_material {types : Types} (hknown : types.Known) :
    types.dues "Material" = [false, false, false, false, false, false] := by
  unfold Types.dues
  rw [hknown.material]
  decide

theorem datum_absorber {types : Types} (hknown : types.Known) {scope : Scope Float32}
    (hmax : scope "MAX_VALUE" = some (.value (.scalar maxDistance))) :
    (Code.builtin .material [.float 0.0, .float 1.0, .float 1.0, .named "MAX_VALUE",
      .splat (.float 0.0), .splat (.float 0.0)]).phrase.datum types call scope false =
        some (.value (.ofSurface .absorber)) := by
  have hone : (Code.float 1.0).phrase.datum types call scope false = some (.value (.scalar 1.0)) :=
    datum_float (by decide) (by decide)
  have hmaximum : (Code.named "MAX_VALUE").phrase.datum types call scope false =
      some (.value (.scalar maxDistance)) := hmax
  show (Phrase.call "Material" [(Code.float 0.0).phrase, (Code.float 1.0).phrase,
    (Code.float 1.0).phrase, (Code.named "MAX_VALUE").phrase, (Code.splat (.float 0.0)).phrase,
    (Code.splat (.float 0.0)).phrase]).datum types call scope false = _
  simp only [Phrase.datum, Phrase.data, dues_material hknown, hone, hmaximum, datum_zero,
    datum_splat hknown datum_zero, List.headD_cons, List.tail_cons, Option.bind_some,
    Option.map_some, hknown.material]
  rfl

theorem routineIn_material (hw : program.WellFormed)
    (hids : ∀ e ∈ program.entities, e.id.raw.toNat < 2 ^ 31) (i : Int32) (p n d : Vec3 Float32) :
    routineIn (moduleText program) "calculateMaterial" call
        [.integer i, .value (.vector p), .value (.vector n), .value (.vector d)] =
      match program.entity? i.toUInt32 with
      | some e =>
        (call ("material" ++ toString e.id) [.vector p, .vector n, .vector d]).map .value
      | none => some (.value (.ofSurface .absorber)) := by
  rw [routineIn, routine?_material hw, Option.bind_some, call_dispatch hw hids i rfl]
  cases program.entity? i.toUInt32 with
  | none => exact datum_absorber (Routine.known_types _ program) (scope_max rfl _)
  | some e =>
    have hmaterial : "material" ∈ entityKinds := by simp [entityKinds]
    exact datum_procedure (Routine.known_types _ program) hmaterial
      (show (FunctionName.material e.id).text = "material" ++ toString e.id from rfl) rfl

theorem routineIn_closest (hw : program.WellFormed)
    (hids : ∀ e ∈ program.entities, e.id.raw.toNat < 2 ^ 31) {p : Vec3 Float32}
    {value : EntityProgram → Float32}
    (hvalue : ∀ e ∈ program.entities,
      call ("distance" ++ toString e.id) [.vector p] = some (.scalar (value e))) :
    routineIn (moduleText program) "calculateClosest" call [.value (.vector p)] =
      some (.ofClosest (program.entities.toList.foldl
        (fun best e => best.offer e.id.raw (Scalar.abs (value e))) .none)) := by
  rw [routineIn, routine?_closest hw, Option.bind_some]
  generalize hr : Routine.mk _ _ = r
  let types : Types := r.types (moduleText program)
  let scope : Scope Float32 := r.scope (moduleText program) call [.value (.vector p)]
  have hknown : types.Known := r.known_types program
  have hpoint : scope "p" = some (.value (.vector p)) := by
    subst hr
    rfl
  have hmax : (Code.named "MAX_VALUE").phrase.datum types call scope false =
      some (.value (.scalar maxDistance)) := by
    subst hr
    exact scope_max rfl _
  have hfirst : (Code.builtin .closest [.int 0, .named "MAX_VALUE"]).phrase.datum types call scope
      false = some (.ofClosest .none) :=
    datum_closest hknown (show (0 : UInt32).toNat < 2 ^ 31 by decide) hmax
  have hstart : Searches (Function.update scope "closest" (some (.ofClosest .none))) p .none := by
    constructor
    · rw [Function.update_of_ne (by decide), hpoint]
    · exact Function.update_self ..
  have hl : ∀ e ∈ program.entities.toList, e.id.raw.toNat < 2 ^ 31 ∧
      call ("distance" ++ toString e.id) [.vector p] = some (.scalar (value e)) := by
    intro e he
    rw [Array.mem_toList_iff] at he
    exact ⟨hids e he, hvalue e he⟩
  obtain ⟨last, hrun, hlast⟩ := hstart.foldl hknown hl
  have hbody : Instruction.runAll types call r.body scope = some (.inl (.ofClosest
      (program.entities.toList.foldl
        (fun best e => best.offer e.id.raw (Scalar.abs (value e))) .none))) := by
    rw [← hr]
    dsimp only
    rw [List.cons_append, Instruction.runAll, Instruction.run, hfirst, Option.map_some,
      Option.bind_some]
    dsimp only
    rw [runAll_append, hrun, Option.bind_some]
    dsimp only
    rw [Instruction.runAll, Instruction.run]
    show ((last "closest").map Sum.inl).bind _ = _
    rw [hlast.closest]
    rfl
  have hparameters : r.parameters.length = [Datum.value (Value.vector p)].length := by
    rw [← hr]
    rfl
  rw [Routine.call, if_pos hparameters, hbody]
  rfl

/-! ## Literals -/

/-- The search writes down the zero of the placeholder, and every id once. -/
theorem literalsIn_closest (hw : program.WellFormed) :
    literalsIn (moduleText program) "calculateClosest" =
      some ("0" :: program.entities.toList.map fun e => toString e.id) := by
  rw [literalsIn, routine?_closest hw, Option.map_some, Option.some.injEq]
  generalize hr : Routine.mk _ _ = r
  have hdues := dues_closest (r.known_types program)
  have hcase (id : EntityId) : Instruction.literalsOf (r.types (moduleText program))
      (closestInstructions id) = [toString id] := by
    simp [closestInstructions, Instruction.literalsOf, Instruction.literals, Code.builtin, Code.phrase,
      Code.phraseList, Code.named, distanceAt, Phrase.literals, Phrase.literalsOf, Callee.text,
      Builtin.text, hdues]
    rfl
  have hcases (l : List EntityProgram) : Instruction.literalsOf (r.types (moduleText program))
      ((l.map (·.id)).flatMap closestInstructions) = l.map fun e => toString e.id := by
    induction l with
    | nil => rfl
    | cons e l ih =>
      rw [List.map_cons, List.flatMap_cons, literalsOf_append, ih, hcase]
      rfl
  rw [← hr]
  dsimp only
  rw [hr, List.cons_append, Instruction.literalsOf, literalsOf_append, hcases]
  simp [Instruction.literalsOf, Instruction.literals, Code.builtin, Code.phrase, Code.phraseList,
    Code.named, Phrase.literals, Phrase.literalsOf, Callee.text, Builtin.text, hdues]
  decide

/-- A routine that begins with an id writes every id down once. -/
theorem literalsIn_dispatch {name : String} {parameters : List (String × String)}
    {callee : EntityId → FunctionName} {arguments : List Code} {otherwise : Code}
    (hroutine : routine? (moduleText program) name = some ⟨("id", "i32") :: parameters,
      (program.entities.toList.map (·.id)).map (idInstruction callee arguments) ++
        [.giveBack otherwise.phrase]⟩)
    (harguments : ∀ types dues, Phrase.literalsOf types dues (Code.phraseList arguments) = [])
    (hotherwise : ∀ types : Types, types.Known → otherwise.phrase.literals types false = []) :
    literalsIn (moduleText program) name =
      some (program.entities.toList.map fun e => toString e.id) := by
  rw [literalsIn, hroutine, Option.map_some, Option.some.injEq]
  generalize hr : Routine.mk _ _ = r
  let types : Types := r.types (moduleText program)
  have hinteger : types.isInteger (.name "id") = true := by
    subst hr
    simp [types, Types.isInteger, Routine.types]
  have hcase (id : EntityId) :
      (idInstruction callee arguments id).literals types = [toString id.raw.toNat] := by
    simp [idInstruction, Instruction.literalsOf, Instruction.literals, Code.phrase, Code.named,
      Ident.text, Phrase.literals, hinteger, harguments]
  have hcases (l : List EntityProgram) : Instruction.literalsOf types
      ((l.map (·.id)).map (idInstruction callee arguments)) = l.map fun e => toString e.id := by
    induction l with
    | nil => rfl
    | cons e l ih =>
      rw [List.map_cons, List.map_cons, Instruction.literalsOf, hcase, ih]
      rfl
  rw [← hr]
  dsimp only
  rw [hr, literalsOf_append, hcases, Instruction.literalsOf, Instruction.literals,
    hotherwise types (r.known_types program), Instruction.literalsOf, List.append_nil,
    List.append_nil]

theorem literals_float (types : Types) (w : Word) :
    (Code.float w).phrase.literals types false = [] := by
  rw [Code.phrase]
  split <;> rfl

theorem literals_zero {types : Types} (hknown : types.Known) :
    (Code.splat (.float 0.0)).phrase.literals types false = [] := by
  show (Phrase.call "vec3<f32>" [(Code.float 0.0).phrase]).literals types false = []
  rw [Phrase.literals, dues_of_none hknown.vec3, Phrase.literalsOf, Phrase.literalsOf, List.headD_nil,
    literals_float]
  rfl

theorem literalsIn_normal (hw : program.WellFormed) :
    literalsIn (moduleText program) "calculateNormal" =
      some (program.entities.toList.map fun e => toString e.id) :=
  literalsIn_dispatch (routine?_normal hw) (fun _ _ => rfl) fun _ hknown => literals_zero hknown

theorem literalsIn_material (hw : program.WellFormed) :
    literalsIn (moduleText program) "calculateMaterial" =
      some (program.entities.toList.map fun e => toString e.id) := by
  refine literalsIn_dispatch (routine?_material hw) (fun _ _ => rfl) fun types hknown => ?_
  show (Phrase.call "Material" [(Code.float 0.0).phrase, (Code.float 1.0).phrase,
    (Code.float 1.0).phrase, (Code.named "MAX_VALUE").phrase, (Code.splat (.float 0.0)).phrase,
    (Code.splat (.float 0.0)).phrase]).literals types false = []
  simp only [Phrase.literals, Phrase.literalsOf, dues_material hknown, List.headD_cons, List.tail_cons,
    literals_float, literals_zero hknown]
  rfl

/-! ## Agreement -/

variable {environment : Environment Float32}

theorem exists_distances (hw : program.WellFormed) {it : Interpreter Float32}
    (hit : it.Of program environment) (p : Vec3 Float32) :
    ∃ value : EntityProgram → Float32,
      (∀ e ∈ program.entities, callIn (moduleText program) ("distance" ++ toString e.id) environment
        [.vector p] = some (.scalar (value e))) ∧
      (it.closest p).1 = program.entities.toList.foldl
        (fun best e => best.offer e.id.raw (Scalar.abs (value e))) .none := by
  have hall : ∀ e ∈ program.entities, ∃ d, callIn (moduleText program) ("distance" ++ toString e.id)
      environment [.vector p] = some (.scalar d) ∧
        Interpreter.Gives program environment (·.distance e p) d := by
    intro e he
    obtain ⟨tree, htree⟩ := (hw.distance e he).exists_trees
    have hroot := (hw.distance e he).root_mem e.distance List.mem_cons_self
    exact ⟨_, callIn_distance hw he htree p,
      Interpreter.gives_distance (hw.distance e he) (htree _ hroot) p⟩
  choose! value hcall hgives using hall
  exact ⟨value, hcall, (Interpreter.gives_closest hgives it hit).1⟩

theorem routineIn_material_eq (hw : program.WellFormed)
    (hids : ∀ e ∈ program.entities, e.id.raw.toNat < 2 ^ 31) {it : Interpreter Float32}
    (hit : it.Of program environment) (i : Int32) (p n d : Vec3 Float32) :
    routineIn (moduleText program) "calculateMaterial"
        (fun name => callIn (moduleText program) name environment)
        [.integer i, .value (.vector p), .value (.vector n), .value (.vector d)] =
      some (.value (.ofSurface (it.material i.toUInt32 p n d).1)) := by
  rw [routineIn_material hw hids]
  cases hid : program.entity? i.toUInt32 with
  | none => rw [(Interpreter.gives_material_of_unknown hid p n d it hit).1]
  | some e =>
    obtain ⟨he, -⟩ := hw.entity?_iff.1 hid
    obtain ⟨tree, htree⟩ := (hw.material e he).exists_trees
    have hroots : ∀ a ∈ e.material.toList, Denotes program.nodes a (tree a) := fun a ha =>
      htree a ((hw.material e he).root_mem a ha)
    dsimp only
    rw [callIn_material hw he htree,
      (Interpreter.gives_material hid (hw.material e he) hroots p n d it hit).1]
    rfl

variable {scene : Scene} {options : Options Word} {kernel : Kernel}

theorem perm_texts {program : Program} (hof : program.Of scene) :
    (program.entities.toList.map fun e => toString e.id).Perm
      (scene.entities.map fun e => toString e.id) := by
  have htexts := hof.ids.map fun id : EntityId => toString id
  rw [List.map_map, List.map_map] at htexts
  exact htexts

/-- How a kernel tells entities apart.  Where its three routines ask for an `i32` they write down the
ids of the scene's entities, and nothing else but the zero of the search's placeholder.  Each of these
literals stands for the `i32` of the same value, or for nothing if there is none, so that all of them
are integers exactly if all ids are below `2 ^ 31`.

If they are, the routines and any interpreter of the program tell the same entities apart.  The search
gives the same entity, by an id that fits, at the same distance; and an `i32` that is an entity's id
is answered by the functions of this entity, and any other one as an unknown id. -/
theorem dispatch_names_entities (h : Kernel.ofScene scene options = .ok kernel) :
    let ids := kernel.program.entities.toList.map fun e => toString e.id
    (ids.Perm (scene.entities.map fun e => toString e.id) ∧
      literalsIn kernel.source "calculateClosest" = some ("0" :: ids) ∧
      literalsIn kernel.source "calculateNormal" = some ids ∧
      literalsIn kernel.source "calculateMaterial" = some ids) ∧
    (∀ e ∈ scene.entities, ∀ i, integer? (toString e.id) = some i ↔ i.toInt = e.id.raw.toNat) ∧
    ((∀ literal ∈ ids, (integer? literal).isSome) ↔
      ∀ e ∈ scene.entities, e.id.raw.toNat < 2 ^ 31) ∧
    ((∀ e ∈ scene.entities, e.id.raw.toNat < 2 ^ 31) →
      (∀ (environment : Environment Float32) (it : Interpreter Float32),
        it.Of kernel.program environment →
        let call (name : String) := callIn kernel.source name environment
        (∀ p, routineIn kernel.source "calculateClosest" call [.value (.vector p)] =
            some (.ofClosest (it.closest p).1) ∧ (it.closest p).1.id.toNat < 2 ^ 31) ∧
        ∀ i p n d, routineIn kernel.source "calculateMaterial" call
            [.integer i, .value (.vector p), .value (.vector n), .value (.vector d)] =
          some (.value (.ofSurface (it.material i.toUInt32 p n d).1))) ∧
      ∀ (call : String → List (Value Float32) → Option (Value Float32)) i p,
        routineIn kernel.source "calculateNormal" call [.integer i, .value (.vector p)] =
        match kernel.program.entity? i.toUInt32 with
        | some e => (call ("normal" ++ toString e.id) [.vector p]).map .value
        | none => some (.value (.vector .zero))) := by
  obtain ⟨program, hprogram, rfl⟩ := Kernel.ofScene_eq_ok_iff.1 h
  obtain ⟨hw, hof, -⟩ := Program.spec_of_ofScene hprogram
  intro ids
  have hperm : ids.Perm (scene.entities.map fun e => toString e.id) := perm_texts hof
  have hprogramIds (hids : ∀ e ∈ scene.entities, e.id.raw.toNat < 2 ^ 31) :
      ∀ e ∈ program.entities, e.id.raw.toNat < 2 ^ 31 := by
    intro e he
    have hmem := hof.ids.mem_iff.1 (List.mem_map_of_mem (Array.mem_toList_iff.2 he))
    obtain ⟨entity, hentity, hid⟩ := List.mem_map.1 hmem
    rw [← hid]
    exact hids entity hentity
  refine ⟨⟨hperm, literalsIn_closest hw, literalsIn_normal hw, literalsIn_material hw⟩, ?_, ?_, ?_⟩
  · intro e _ i
    exact integer?_eq_some_iff
  · have hmem (literal : String) : literal ∈ ids ↔ ∃ e ∈ scene.entities, toString e.id = literal := by
      rw [hperm.mem_iff, List.mem_map]
    simp only [hmem, forall_exists_index, and_imp, forall_apply_eq_imp_iff₂]
    exact forall₂_congr fun e _ => isSome_integer?_iff
  · intro hscene
    have hids := hprogramIds hscene
    refine ⟨fun environment it hit => ⟨fun p => ⟨?_, ?_⟩, ?_⟩, ?_⟩
    · obtain ⟨value, hcall, hclosest⟩ := exists_distances hw hit p
      rw [hclosest]
      exact routineIn_closest hw hids hcall
    · rcases it.closest_cases p with hnone | ⟨e, he, hid⟩
      · rw [hnone]
        decide
      · rw [hid]
        rw [hit.program] at he
        exact hids e he
    · exact fun i p n d => routineIn_material_eq hw hids hit i p n d
    · exact fun call i p => routineIn_normal hw hids i p

end

open Kernel in
/-- The ball alone: its literals, and what the routines say of it and of an id that is nobody's. -/
theorem dispatch_names_entities_stage :
    ∃ kernel, Kernel.ofScene (stage [ball]) .standard = .ok kernel ∧
      literalsIn kernel.source "calculateClosest" = some ["0", "1"] ∧
      literalsIn kernel.source "calculateNormal" = some ["1"] ∧ integer? "1" = some 1 ∧
      let environment : Environment Float32 := ⟨⟨0.25, 0.0⟩, 0.5⟩
      let it := Interpreter.new kernel.program environment
      let call (name : String) := callIn kernel.source name environment
      let arguments : List (Datum Float32) :=
        [.value (.vector .one), .value (.vector .unitY), .value (.vector .unitX)]
      routineIn kernel.source "calculateClosest" call [.value (.vector .one)] =
          some (.ofClosest (it.closest .one).1) ∧
        routineIn kernel.source "calculateMaterial" call (.integer 1 :: arguments) =
          some (.value (.ofSurface (it.material 1 .one .unitY .unitX).1)) ∧
        routineIn kernel.source "calculateMaterial" call (.integer 7 :: arguments) =
          some (.value (.ofSurface (it.material 7 .one .unitY .unitX).1)) := by
  obtain ⟨-, program, hprogram⟩ := exists_program_ball
  have hkernel := Kernel.ofScene_eq_ok_iff.2 ⟨program, hprogram, rfl⟩
  have hsmall : ∀ e ∈ (stage [ball]).entities, e.id.raw.toNat < 2 ^ 31 := by
    intro e he
    rw [List.mem_singleton.1 he]
    decide
  obtain ⟨⟨hperm, hclosest, hnormal, -⟩, hliteral, -, hagree⟩ := dispatch_names_entities hkernel
  have hids : (Kernel.ofProgram program).program.entities.toList.map (fun e => toString e.id) =
      ["1"] := List.perm_singleton.1 hperm
  obtain ⟨hanswers, -⟩ := hagree hsmall
  refine ⟨_, hkernel, by rw [hclosest, hids], by rw [hnormal, hids], ?_, ?_⟩
  · exact (hliteral ball List.mem_cons_self 1).2 rfl
  · intro environment it call arguments
    obtain ⟨hsearch, hmaterial⟩ := hanswers environment it (Interpreter.of_new program environment)
    exact ⟨(hsearch .one).1, hmaterial 1 _ _ _, hmaterial 7 _ _ _⟩

/-- The first entity id that is no `i32`. -/
def beyond : EntityId := ⟨2147483648, by decide⟩

open Kernel in
/-- An id of `2 ^ 31` is accepted and written down where an `i32` is due, which has no such number;
a count of as much is refused. -/
theorem literal_beyond_integers :
    (∃ kernel, Kernel.ofScene (stage [{ ball with id := beyond }]) .standard = .ok kernel ∧
      literalsIn kernel.source "calculateClosest" = some ["0", "2147483648"] ∧
      literalsIn kernel.source "calculateNormal" = some ["2147483648"] ∧
      literalsIn kernel.source "calculateMaterial" = some ["2147483648"]) ∧
    integer? "2147483648" = none ∧
    ({ Options.standard with steps := 2147483648 } : Options Word).validate =
      .error ⟨"steps", .tooLarge⟩ := by
  have hclosed : (stage [{ ball with id := beyond }]).Closed := by
    refine ⟨?_, (stage_closed (List.nil_subset _)).camera, swatch_closed _⟩
    intro e he
    rw [List.mem_singleton.1 he]
    exact ⟨trivial, swatch_closed _⟩
  have hhashes : ((stage [{ ball with id := beyond }]).assemble.made.map Tree.hash).Nodup := by
    decide +kernel
  obtain ⟨-, program, hprogram⟩ := Program.exists_ofScene_of_few hclosed (by decide)
    (show Options.standard.validate = .ok () by decide)
    (fun s hs t ht => List.inj_on_of_nodup_map hhashes hs ht) (by decide)
    (by decide) (by decide) (by decide)
  obtain ⟨hw, hof, -⟩ := Program.spec_of_ofScene hprogram
  have hids : program.entities.toList.map (fun e => toString e.id) = ["2147483648"] :=
    List.perm_singleton.1 (perm_texts hof)
  refine ⟨⟨_, Kernel.ofScene_eq_ok_iff.2 ⟨program, hprogram, rfl⟩, ?_, ?_, ?_⟩, ?_, ?_⟩
  · exact (literalsIn_closest hw).trans (by rw [hids])
  · exact (literalsIn_normal hw).trans (by rw [hids])
  · exact (literalsIn_material hw).trans (by rw [hids])
  · exact (integer?_toString 2147483648).trans (if_neg (by decide))
  · decide

end SphereTracer.Shader
