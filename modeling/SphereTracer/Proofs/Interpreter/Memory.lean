import SphereTracer.Proofs.Interpreter.Answers

/-!
# Interpreters have no memory

One table of slots serves all questions, and nothing clears it.  Still no answer to a question that
fits the program depends on what was asked before: an interpreter that has answered any questions
answers it like a new one.
-/

namespace SphereTracer

open SphereTracer.Graph

namespace Interpreter

/-- A question with its arguments. -/
inductive Call (S : Type) where
  | distance (entity : EntityProgram) (p : Vec3 S)
  | closest (p : Vec3 S)
  | normal (id : UInt32) (p : Vec3 S)
  | material (id : UInt32) (p n d : Vec3 S)
  | frame

inductive Answer (S : Type) where
  | distance (d : S)
  | closest (c : Closest S)
  | normal (n : Vec3 S)
  | material (m : Surface S)
  | frame (f : Frame S)

/-- An entity that is asked about is one of the program, or else its order is one in which nodes of
the program can be evaluated.  Ids may be any. -/
def Call.Fits {S : Type} (program : Program) : Call S → Prop
  | distance e _ =>
    e ∈ program.entities ∨ Evaluable program.nodes [e.distance] e.distanceOrder
  | _ => True

variable {S : Type} [Scalar S]

def call (it : Interpreter S) : Call S → Answer S × Interpreter S
  | .distance e p => let (d, it) := it.distance e p; (.distance d, it)
  | .closest p => let (c, it) := it.closest p; (.closest c, it)
  | .normal id p => let (n, it) := it.normal id p; (.normal n, it)
  | .material id p n d => let (m, it) := it.material id p n d; (.material m, it)
  | .frame => let (f, it) := it.frame; (.frame f, it)

def calls (it : Interpreter S) : List (Call S) → List (Answer S) × Interpreter S
  | [] => ([], it)
  | c :: rest =>
    let (answer, it) := it.call c
    let (answers, it) := it.calls rest
    (answer :: answers, it)

variable {program : Program} {environment : Environment S}

theorem exists_gives_distance {e : EntityProgram}
    (he : Evaluable program.nodes [e.distance] e.distanceOrder) :
    ∃ field : Vec3 S → S, ∀ p, Gives program environment (·.distance e p) (field p) := by
  obtain ⟨tree, htree⟩ := he.exists_trees
  have hroot := htree _ (he.root_mem e.distance List.mem_cons_self)
  exact ⟨_, fun p => gives_distance he hroot p⟩

theorem exists_gives_closest (hw : program.WellFormed) (p : Vec3 S) :
    ∃ c, Gives program environment (·.closest p) c := by
  have hall : ∀ e ∈ program.entities, ∃ t, Denotes program.nodes e.distance t := by
    intro e he
    obtain ⟨tree, htree⟩ := (hw.distance e he).exists_trees
    exact ⟨_, htree _ ((hw.distance e he).root_mem e.distance List.mem_cons_self)⟩
  choose! tree htree using hall
  exact ⟨_, gives_closest fun e he => gives_distance (hw.distance e he) (htree e he) p⟩

theorem exists_gives_normal (hw : program.WellFormed) (id : UInt32) (p : Vec3 S) :
    ∃ n : Vec3 S, Gives program environment (·.normal id p) n := by
  cases hid : program.entity? id with
  | none => exact ⟨_, gives_normal_of_unknown hid p⟩
  | some e =>
    have hdistance : ∃ field : Vec3 S → S,
        ∀ p, Gives program environment (·.distance e p) (field p) :=
      exists_gives_distance (hw.distance e (hw.entity?_iff.1 hid).1)
    obtain ⟨_, hfield⟩ := hdistance
    exact ⟨_, gives_normal hid hfield p⟩

theorem exists_gives_material (hw : program.WellFormed) (id : UInt32) (p n d : Vec3 S) :
    ∃ m, Gives program environment (·.material id p n d) m := by
  cases hid : program.entity? id with
  | none => exact ⟨_, gives_material_of_unknown hid p n d⟩
  | some e =>
    have he := hw.material e (hw.entity?_iff.1 hid).1
    obtain ⟨tree, htree⟩ := he.exists_trees
    exact ⟨_, gives_material hid he (fun a ha => htree a (he.root_mem a ha)) p n d⟩

theorem exists_gives_frame (hw : program.WellFormed) :
    ∃ f : Frame S, Gives program environment (·.frame) f := by
  obtain ⟨tree, htree⟩ := hw.frame.exists_trees
  exact ⟨_, gives_frame hw.frame fun a ha => htree a (hw.frame.root_mem a ha)⟩

/-- Every question has one answer, which all interpreters of the program give. -/
theorem exists_gives_call (hw : program.WellFormed) {c : Call S} (hc : c.Fits program) :
    ∃ answer, Gives program environment (·.call c) answer := by
  cases c with
  | distance e p =>
    have he : Evaluable program.nodes [e.distance] e.distanceOrder := hc.elim (hw.distance e) id
    have hdistance : ∃ field : Vec3 S → S,
        ∀ p, Gives program environment (·.distance e p) (field p) := exists_gives_distance he
    obtain ⟨_, hfield⟩ := hdistance
    exact ⟨_, (hfield p).map _⟩
  | closest p =>
    obtain ⟨_, h⟩ := exists_gives_closest hw p
    exact ⟨_, h.map _⟩
  | normal id p =>
    obtain ⟨_, h⟩ := exists_gives_normal hw id p
    exact ⟨_, h.map _⟩
  | material id p n d =>
    obtain ⟨_, h⟩ := exists_gives_material hw id p n d
    exact ⟨_, h.map _⟩
  | frame =>
    have hframe : ∃ f : Frame S, Gives program environment (·.frame) f := exists_gives_frame hw
    obtain ⟨_, h⟩ := hframe
    exact ⟨_, h.map _⟩

theorem Of.call (hw : program.WellFormed) {it : Interpreter S} (h : it.Of program environment)
    (c : Call S) : (it.call c).2.Of program environment := by
  by_cases hc : c.Fits program
  · obtain ⟨_, hgives⟩ := exists_gives_call hw hc
    exact (hgives it h).2
  · cases c with
    | distance e p => exact h.run _ _
    | _ => exact absurd trivial hc

/-- Every question of a series that fits is answered as any other interpreter of the program answers
it, also after questions that do not fit. -/
theorem calls_of (hw : program.WellFormed) {it other : Interpreter S}
    (hit : it.Of program environment) (hother : other.Of program environment)
    (questions : List (Call S)) :
    List.Forall₂ (fun c answer => c.Fits program → answer = (other.call c).1)
      questions (it.calls questions).1 := by
  -- Whatever a question leaves is an interpreter of the program again.
  induction questions generalizing it with
  | nil => exact .nil
  | cons c rest ih =>
    refine .cons (fun hc => ?_) (ih (hit.call hw c))
    obtain ⟨_, hgives⟩ := exists_gives_call hw hc
    exact (hgives it hit).1.trans (hgives other hother).1.symm

/-- An interpreter of a scene's program answers every question of a series that fits the program as
one does that has been made for this question alone.  Questions that do not fit may come in between;
they are about orders that cannot be evaluated, and their own answers are not compared.  What carries
this is that once an order of nodes with their operands has been run, its slots hold the values of
their trees, whatever the table held, and no other slot has changed. -/
theorem calls_new_eq_fresh {scene : Scene} {options : Options Word}
    (h : Program.ofScene scene options = .ok program) :
    (∀ (environment : Environment S) (questions : List (Call S)),
      List.Forall₂ (fun c answer => c.Fits program →
          answer = ((new program environment).call c).1)
        questions ((new program environment).calls questions).1) ∧
    ∀ {nodes : Array Node} {roots : List Handle} {order : Array Handle},
      flatten nodes roots = .ok order →
      ∀ (b : Bindings S) (slots : Slots S), slots.size = nodes.size →
        (∀ a ∈ order, ∃ t, Denotes nodes a t ∧ (slots.run nodes order b).get a = t.eval b) ∧
        ∀ i : Nat, (∀ a ∈ order, a.index ≠ i) → (slots.run nodes order b)[i]? = slots[i]? := by
  refine ⟨fun environment questions => ?_, ?_⟩
  · obtain ⟨hw, -⟩ := Program.spec_of_ofScene h
    exact calls_of hw (of_new program environment) (of_new program environment) questions
  · intro nodes roots order horder b slots hsize
    have he := evaluable_of_flatten horder
    obtain ⟨tree, htree⟩ := he.exists_trees
    refine ⟨fun a ha => ⟨tree a, htree a ha, he.get_run hsize ha (htree a ha)⟩, fun i hi => ?_⟩
    exact Slots.getElem?_run hi

open Kernel in
/-- The ball is met, shaded and met again; in between an id is asked for that no entity has. -/
theorem calls_new_eq_fresh_stage :
    ∃ program, Program.ofScene (stage [ball, ground]) .standard = .ok program ∧
      let questions : List (Call Float32) := [.closest .one, .material 1 .one .unitX .unitY,
        .normal 3 .zero, .frame, .closest .one]
      List.Forall₂ (fun c answer => answer = ((new program ⟨⟨0.0, 0.0⟩, 0.5⟩).call c).1)
        questions ((new program ⟨⟨0.0, 0.0⟩, 0.5⟩).calls questions).1 := by
  obtain ⟨-, program, hprogram⟩ := exists_program_pair
  refine ⟨program, hprogram, ?_⟩
  intro questions
  have hfits : ∀ c ∈ questions, c.Fits program := by simp [questions, Call.Fits]
  have hanswers := (calls_new_eq_fresh hprogram).1 ⟨⟨0.0, 0.0⟩, 0.5⟩ questions
  exact ((List.forall₂_and_left questions _).2 ⟨hfits, hanswers⟩).imp fun c a h => h.2 h.1

end Interpreter

end SphereTracer
