import SphereTracer.Proofs.Program.Lowered
import SphereTracer.Proofs.Shader.Canonical
import SphereTracer.Proofs.Shader.Words

/-!
# The functions that a module defines

What a reader of a module's text finds defined: what its fixed parts define, and every generated
function once.  Wherever a numbered name stands in a module, its function is defined.
-/

namespace SphereTracer.Shader

/-! ## Definitions -/

namespace Token

/-- The names of the functions that tokens define, given whether they come right behind the keyword of
functions. -/
def definitions : Bool → List Token → List String
  | _, [] => []
  | after, .word w :: ts =>
    if w = "fn" then definitions true ts
    else (if after then [w] else []) ++ definitions false ts
  | _, .sign _ :: ts => definitions false ts

/-- What comes behind the name of a function where it is first defined. -/
def behind? (name : String) : Bool → List Token → Option (List Token)
  | _, [] => none
  | after, .word w :: ts =>
    if w = "fn" then behind? name true ts
    else if after && w = name then some ts else behind? name false ts
  | _, .sign _ :: ts => behind? name false ts

theorem definitions_append (after : Bool) (ts us : List Token) :
    definitions after (ts ++ .word "fn" :: us) = definitions after ts ++ definitions true us := by
  induction ts generalizing after with
  | nil => simp [definitions]
  | cons t ts ih =>
    cases t with
    | sign c => exact ih false
    | word w =>
      rw [List.cons_append, definitions, definitions, ih, ih]
      split <;> simp

theorem definitions_skip {ts : List Token} (h : EveryWord (· ≠ "fn") ts) (us : List Token) :
    definitions false (ts ++ us) = definitions false us := by
  induction ts with
  | nil => rfl
  | cons t ts ih =>
    cases t with
    | sign c => exact ih (everyWord_sign.1 h)
    | word w =>
      obtain ⟨hw, hts⟩ := everyWord_word.1 h
      rw [List.cons_append, definitions, if_neg hw, ih hts]
      rfl

theorem word_mem_of_mem_definitions {after : Bool} {ts : List Token} {w : String}
    (h : w ∈ definitions after ts) : .word w ∈ ts := by
  induction ts generalizing after with
  | nil => exact absurd h List.not_mem_nil
  | cons t ts ih =>
    cases t with
    | sign c => exact List.mem_cons_of_mem _ (ih h)
    | word w' =>
      rw [definitions] at h
      split at h
      · exact List.mem_cons_of_mem _ (ih h)
      · rcases List.mem_append.1 h with h | h
        · split at h
          · rw [List.mem_singleton.1 h]
            exact List.mem_cons_self
          · exact absurd h List.not_mem_nil
        · exact List.mem_cons_of_mem _ (ih h)

theorem behind?_append {name : String} {after : Bool} {ts : List Token}
    (h : name ∉ definitions after ts) (us : List Token) :
    behind? name after (ts ++ .word "fn" :: us) = behind? name true us := by
  induction ts generalizing after with
  | nil => simp [behind?]
  | cons t ts ih =>
    cases t with
    | sign c => exact ih h
    | word w =>
      rw [List.cons_append, behind?]
      rw [definitions] at h
      split
      · next hw =>
        rw [if_pos hw] at h
        exact ih h
      · next hw =>
        rw [if_neg hw, List.mem_append, not_or] at h
        rw [if_neg ?_]
        · exact ih h.2
        · rw [Bool.and_eq_true, decide_eq_true_eq]
          rintro ⟨rfl, rfl⟩
          exact h.1 List.mem_cons_self

end Token

/-- The names of the functions that a text defines, one for each definition. -/
def definedNames (source : String) : List String := Token.definitions false (Token.ofText source)

/-! ## Names of functions -/

namespace FunctionName

/-- The letters of a name, and the number behind them. -/
def parts : FunctionName → String × Option ℕ
  | distance id => ("distance", some id.raw.toNat)
  | normal id => ("normal", some id.raw.toNat)
  | material id => ("material", some id.raw.toNat)
  | mandelbulb n => ("mandelbulb_", some n.toNat)
  | fold n => ("sierpinski_fold_", some n.toNat)
  | calculateClosest => ("calculateClosest", none)
  | calculateNormal => ("calculateNormal", none)
  | calculateMaterial => ("calculateMaterial", none)
  | frameSetup => ("frame_setup", none)

theorem parts_inj {f g : FunctionName} (h : f.parts = g.parts) : f = g := by
  cases f <;> cases g <;> simp_all [parts, Program.id_eq_iff, ← UInt32.toNat_inj]

theorem toList_text (f : FunctionName) :
    f.text.toList = f.parts.1.toList ++ (f.parts.2.elim [] fun n => (toString n).toList) := by
  cases f <;> first
    | exact String.toList_append
    | exact (List.append_nil _).symm

/-- The letters that names can have. -/
def letters : List String :=
  numberedKinds ++ ["calculateClosest", "calculateNormal", "calculateMaterial", "frame_setup"]

theorem parts_mem_letters (f : FunctionName) : f.parts.1 ∈ letters := by
  cases f <;> simp [parts, letters, numberedKinds]

theorem digitless_parts (f : FunctionName) : ∀ c ∈ f.parts.1.toList, !c.isDigit := by
  have hdigitless : ∀ s ∈ letters, s.toList.all (!·.isDigit) := by decide +kernel
  exact List.all_eq_true.1 (hdigitless _ f.parts_mem_letters)

theorem digits_inj {o o' : Option ℕ} (h : (o.elim [] fun n => (toString n).toList) =
    o'.elim [] fun n => (toString n).toList) : o = o' := by
  cases o with
  | none =>
    cases o' with
    | none => rfl
    | some n => exact absurd h.symm (Decimal.digitChars_ne_nil n)
  | some n =>
    cases o' with
    | none => exact absurd h (Decimal.digitChars_ne_nil n)
    | some m =>
      have hdigits := congrArg Decimal.ofDigits h
      change Decimal.ofDigits (Decimal.digitChars n) = Decimal.ofDigits (Decimal.digitChars m) at hdigits
      rw [Decimal.ofDigits_digitChars, Decimal.ofDigits_digitChars] at hdigits
      rw [hdigits]

theorem text_inj {f g : FunctionName} (h : f.text = g.text) : f = g := by
  -- The letters go on to the first digit.
  have hletters (f : FunctionName) : f.text.toList.takeWhile (!·.isDigit) = f.parts.1.toList := by
    rw [toList_text, List.takeWhile_append_of_pos (digitless_parts f)]
    cases f.parts.2 with
    | none => simp
    | some n =>
      obtain ⟨c, digits, hdigits, hc⟩ := exists_digits n
      rw [Option.elim, hdigits, List.takeWhile_cons_of_neg (by simp [hc]), List.append_nil]
  have hfront : f.parts.1 = g.parts.1 := by
    rw [← String.toList_inj, ← hletters, ← hletters, h]
  have hback : f.parts.2 = g.parts.2 := by
    have hchars := congrArg String.toList h
    rw [toList_text, toList_text, hfront, List.append_cancel_left_eq] at hchars
    exact digits_inj hchars
  exact parts_inj (Prod.ext hfront hback)

end FunctionName

/-- The names of a program's functions: those of the helpers, those of the entities, and the others. -/
theorem map_name_generated (program : Program) : (generated program).map (·.name) =
    ((counts program.nodes mandelbulbCount?).map FunctionName.mandelbulb ++
      (counts program.nodes foldCount?).map FunctionName.fold) ++
    (program.entities.toList.flatMap (fun e =>
        [FunctionName.distance e.id, .normal e.id, .material e.id]) ++
      [FunctionName.calculateClosest, .calculateNormal, .calculateMaterial, .frameSetup]) := by
  simp only [generated, helpers, procedures, entityFunctions, List.map_append, List.map_map,
    List.map_flatMap]
  rfl

theorem nodup_counts (nodes : Array Node) (count? : GraphOp → Option UInt32) :
    (counts nodes count?).Nodup := by
  refine (pairwise_counts nodes count?).imp ?_
  rintro a _ hlt rfl
  exact UInt32.lt_irrefl _ hlt

theorem nodup_names {program : Program} (h : Program.Ascending program.entities) :
    ((generated program).map (·.name)).Nodup := by
  have hentities : (program.entities.toList.flatMap fun e =>
      [FunctionName.distance e.id, .normal e.id, .material e.id]).Nodup := by
    refine List.nodup_flatMap.2 ⟨fun e _ => by simp, h.imp fun {a b} hlt => ?_⟩
    have hne : a.id ≠ b.id := fun heq => UInt32.lt_irrefl _ (heq ▸ hlt)
    simp [Function.onFun, List.disjoint_left, hne]
  rw [map_name_generated, List.nodup_append, List.nodup_append, List.nodup_append]
  refine ⟨⟨(nodup_counts _ _).map fun _ _ => FunctionName.mandelbulb.inj,
    (nodup_counts _ _).map fun _ _ => FunctionName.fold.inj, ?_⟩, ⟨hentities, by decide, ?_⟩, ?_⟩
  · simp only [List.mem_map]
    rintro _ ⟨n, -, rfl⟩ _ ⟨m, -, rfl⟩
    exact FunctionName.noConfusion
  · simp only [List.mem_flatMap]
    rintro _ ⟨e, -, he⟩ g hg rfl
    simp only [List.mem_cons, List.not_mem_nil, or_false] at he hg
    rcases he with rfl | rfl | rfl <;> simp at hg
  · simp only [List.mem_append, List.mem_map, List.mem_flatMap]
    rintro f hf g hg rfl
    rcases hf with ⟨n, -, rfl⟩ | ⟨n, -, rfl⟩ <;> simp at hg

/-! ## Definitions of a module -/

open Token

theorem text_ne_fn (f : FunctionName) : f.text ≠ "fn" := by
  have h := isName_functionName f
  rw [isName, Bool.and_eq_true, decide_eq_true_eq] at h
  exact h.1

theorem definitions_functions {functions : List Function}
    (hinner : ∀ f ∈ functions, EveryWord (· ≠ "fn") f.inner) (us : List Token) :
    definitions false (functions.flatMap Function.tokens ++ us) =
      functions.map (·.name.text) ++ definitions false us := by
  induction functions with
  | nil => rfl
  | cons f rest ih =>
    rw [List.forall_mem_cons] at hinner
    rw [List.flatMap_cons, List.append_assoc, Function.tokens, List.cons_append, List.cons_append,
      definitions, if_pos rfl, definitions, if_neg (text_ne_fn _), definitions_skip hinner.1,
      ih hinner.2]
    rfl

theorem definitions_append_functions {functions : List Function}
    (hinner : ∀ f ∈ functions, EveryWord (· ≠ "fn") f.inner) (after : Bool) (ts : List Token) :
    definitions after (ts ++ functions.flatMap Function.tokens) =
      definitions after ts ++ functions.map (·.name.text) := by
  have hfunctions := definitions_functions hinner []
  rw [List.append_nil, definitions, List.append_nil] at hfunctions
  cases functions with
  | nil => simp
  | cons f rest =>
    rw [List.flatMap_cons, Function.tokens, List.cons_append, definitions, if_pos rfl] at hfunctions
    rw [List.flatMap_cons, Function.tokens, List.cons_append, definitions_append, hfunctions]

section
variable (program : Program)

theorem everyWord_optionTokens (o : Options Word) : EveryWord Ordinary (optionTokens o) := by
  have hP : ∀ w, Ordinary w → Ordinary w := fun _ h => h
  simp (disch := decide) [optionTokens, constantTokens, everyWord_number hP, ordinary_digits,
    fixed hP]

theorem everyWord_inner_generated {f : Function} (hf : f ∈ generated program) :
    EveryWord (· ≠ "fn") f.inner :=
  everyWord_generated (fun _ h => h.2) (fun f _ => text_ne_fn f.name) f hf

/-- A module defines what the fixed texts define, and each generated function. -/
theorem definedNames_moduleText : definedNames (moduleText program) =
    definitions false (preludeLines.flatMap ofText) ++ (generated program).map (·.name.text) ++
      definitions false (entryPointLines.flatMap ofText) := by
  have hbegin : ∃ us, (generated program).flatMap Function.tokens ++
      entryPointLines.flatMap ofText = .word "fn" :: us := by
    obtain ⟨f, rest, hgenerated⟩ := List.exists_cons_of_ne_nil
      (show generated program ≠ [] by simp [generated, procedures])
    rw [hgenerated, List.flatMap_cons, Function.tokens]
    exact ⟨_, rfl⟩
  obtain ⟨us, hus⟩ := hbegin
  have hoptions : EveryWord (· ≠ "fn") (optionTokens program.options) :=
    fun w hw => (everyWord_optionTokens _ w hw).2
  have hfunctions := definitions_functions
    (fun f hf => everyWord_inner_generated program hf) (entryPointLines.flatMap ofText)
  rw [definedNames, ofText_moduleText, List.append_assoc, List.append_assoc, hus,
    definitions_skip hoptions, definitions_append]
  rw [hus, definitions, if_pos rfl] at hfunctions
  rw [hfunctions, List.append_assoc]

theorem noTail_preludeLines : ∀ line ∈ preludeLines,
    noTail (meets [['f', 'r', 'a', 'm', 'e', '_', 's', 'e', 't', 'u', 'p']]) line.toList := by
  unfold preludeLines
  repeat refine List.forall_mem_cons.2 ⟨noTail_ofList (by decide +kernel), ?_⟩
  exact List.forall_mem_nil _

set_option maxRecDepth 2000 in
theorem noTail_entryPointLines : ∀ line ∈ entryPointLines, noTail (meets []) line.toList := by
  unfold entryPointLines
  repeat refine List.forall_mem_cons.2 ⟨noTail_ofList (by decide +kernel), ?_⟩
  exact List.forall_mem_nil _

theorem not_numbered_of_fixed {w : String}
    (hw : .word w ∈ preludeLines.flatMap ofText ∨ .word w ∈ entryPointLines.flatMap ofText) :
    ¬ Numbered w := by
  simp only [List.mem_flatMap] at hw
  rcases hw with ⟨line, hline, hw⟩ | ⟨line, hline, hw⟩
  · exact (of_word_mem_ofText (noTail_preludeLines line hline) hw).1
  · exact (of_word_mem_ofText (noTail_entryPointLines line hline) hw).1

theorem ne_frameSetup_of_prelude {w : String} (hw : .word w ∈ preludeLines.flatMap ofText) :
    w ≠ FunctionName.frameSetup.text := by
  obtain ⟨line, hline, hw⟩ := List.mem_flatMap.1 hw
  obtain ⟨-, hnames⟩ := of_word_mem_ofText (noTail_preludeLines line hline) hw
  rintro rfl
  exact hnames _ List.mem_cons_self (by simp) rfl

theorem not_noTail_fn : ¬ noTail (meets []) "fn".toList = false := by decide

/-- A numbered name that stands anywhere in a module is the name of a generated function. -/
theorem mem_names_of_word_mem {w : String} (hnumbered : Numbered w)
    (hw : .word w ∈ ofText (moduleText program)) :
    w ∈ (generated program).map (·.name.text) := by
  rw [ofText_moduleText] at hw
  simp only [List.mem_append] at hw
  rcases hw with ((hw | hw) | hw) | hw
  · exact absurd hnumbered (everyWord_optionTokens _ w hw).1
  · exact absurd hnumbered (not_numbered_of_fixed (.inl hw))
  · obtain ⟨f, hf, hw⟩ := List.mem_flatMap.1 hw
    have hinner := everyWord_generated
      (P := fun w => Numbered w → w ∈ (generated program).map (·.name.text))
      (fun w hw h => absurd h hw.1) (fun f hf _ => List.mem_map_of_mem hf) f hf
    rw [Function.tokens, List.mem_cons, List.mem_cons] at hw
    rcases hw with hw | hw | hw
    · rw [Token.word.inj hw] at hnumbered
      exact absurd (hnumbered.not_noTail List.infix_rfl) not_noTail_fn
    · rw [Token.word.inj hw]
      exact List.mem_map_of_mem hf
    · exact hinner w hw hnumbered
  · exact absurd hnumbered (not_numbered_of_fixed (.inr hw))

theorem count_definedNames {w : String} (hw : Numbered w) :
    (definedNames (moduleText program)).count w =
      ((generated program).map (·.name.text)).count w := by
  have hstart : w ∉ definitions false (preludeLines.flatMap ofText) := fun h =>
    not_numbered_of_fixed (.inl (word_mem_of_mem_definitions h)) hw
  have hfinish : w ∉ definitions false (entryPointLines.flatMap ofText) := fun h =>
    not_numbered_of_fixed (.inr (word_mem_of_mem_definitions h)) hw
  rw [definedNames_moduleText, List.count_append, List.count_append,
    List.count_eq_zero_of_not_mem hstart, List.count_eq_zero_of_not_mem hfinish, Nat.zero_add,
    Nat.add_zero]

theorem nodup_texts (h : Program.Ascending program.entities) :
    ((generated program).map (·.name.text)).Nodup := by
  have hnames := (nodup_names h).map fun _ _ => FunctionName.text_inj
  rwa [List.map_map] at hnames

/-- Every numbered name that stands anywhere in a module is defined once. -/
theorem count_eq_one_of_word_mem (h : Program.Ascending program.entities) {w : String}
    (hnumbered : Numbered w) (hw : .word w ∈ ofText (moduleText program)) :
    (definedNames (moduleText program)).count w = 1 := by
  rw [count_definedNames program hnumbered]
  exact List.count_eq_one_of_mem (nodup_texts program h) (mem_names_of_word_mem program hnumbered hw)

/-- What comes behind the name of a generated function, where it is first defined. -/
theorem exists_behind? (h : Program.Ascending program.entities) {f : Function}
    (hf : f ∈ generated program)
    (hfixed : .word f.name.text ∉ preludeLines.flatMap ofText) :
    ∃ rest, behind? f.name.text false (ofText (moduleText program)) = some (f.inner ++ rest) := by
  obtain ⟨before, after, hsplit⟩ := List.append_of_mem hf
  have hnodup := nodup_texts program h
  rw [hsplit, List.map_append, List.map_cons, List.nodup_append] at hnodup
  have hbefore : f.name.text ∉ before.map (·.name.text) := fun hmem =>
    hnodup.2.2 _ hmem _ List.mem_cons_self rfl
  have hoptions : EveryWord (· ≠ "fn") (optionTokens program.options) :=
    fun w hw => (everyWord_optionTokens _ w hw).2
  have hinner : ∀ g ∈ before, EveryWord (· ≠ "fn") g.inner := fun g hg =>
    everyWord_inner_generated program (hsplit ▸ List.mem_append_left _ hg)
  have hnew : f.name.text ∉ definitions false (optionTokens program.options ++
      (preludeLines.flatMap ofText ++ before.flatMap Function.tokens)) := by
    rw [definitions_skip hoptions, definitions_append_functions hinner, List.mem_append]
    exact fun hmem => hmem.elim (fun h => hfixed (word_mem_of_mem_definitions h)) hbefore
  have htokens : ofText (moduleText program) = optionTokens program.options ++
      (preludeLines.flatMap ofText ++ before.flatMap Function.tokens) ++ .word "fn" ::
        .word f.name.text :: (f.inner ++ (after.flatMap Function.tokens ++
          entryPointLines.flatMap ofText)) := by
    rw [ofText_moduleText, hsplit]
    simp [Function.tokens]
  rw [htokens, behind?_append hnew, behind?, if_neg (text_ne_fn _)]
  exact ⟨_, if_pos (by simp)⟩

end

end SphereTracer.Shader
