import Mathlib.Data.List.Forall2
import Mathlib.Data.List.Nodup
import SphereTracer.Program
import SphereTracer.Proofs.Expr.Same

/-!
# What the checks establish

A scene has a program exactly if its arena passes the check of names, no id occurs twice, and all of
its procedures can be arranged.  Whether names pass depends on what trees the arena holds, and on
nothing else about it.
-/

namespace SphereTracer

open List (Forall₂)

/-! ## Sequences of computations -/

section
variable {ε α β : Type}

theorem bind_eq_ok_iff {x : Except ε α} {f : α → Except ε β} {b : β} :
    (x >>= f) = .ok b ↔ ∃ a, x = .ok a ∧ f a = .ok b := by
  cases x with
  | error e => simp [bind, Except.bind]
  | ok a => simp [bind, Except.bind]

theorem bind_eq_error_iff {x : Except ε α} {f : α → Except ε β} {e : ε} :
    (x >>= f) = .error e ↔ x = .error e ∨ ∃ a, x = .ok a ∧ f a = .error e := by
  cases x with
  | error e => simp [bind, Except.bind]
  | ok a => simp [bind, Except.bind]

theorem mapError_eq_error_iff {ε' : Type} {x : Except ε α} {f : ε → ε'} {e : ε'} :
    x.mapError f = .error e ↔ ∃ e', x = .error e' ∧ f e' = e := by
  cases x with
  | error e => simp [Except.mapError]
  | ok a => simp [Except.mapError]

theorem mapError_eq_ok_iff {ε' : Type} {x : Except ε α} {f : ε → ε'} {a : α} :
    x.mapError f = .ok a ↔ x = .ok a := by
  cases x with
  | error e => simp [Except.mapError]
  | ok a => simp [Except.mapError]

/-- A list is dealt with if each of its members is. -/
theorem mapM_eq_ok_iff {f : α → Except ε β} {l : List α} {l' : List β} :
    l.mapM f = .ok l' ↔ Forall₂ (fun a b => f a = .ok b) l l' := by
  induction l generalizing l' with
  | nil =>
    rw [List.mapM_nil, List.forall₂_nil_left_iff]
    change Except.ok [] = Except.ok l' ↔ l' = []
    rw [Except.ok.injEq, eq_comm]
  | cons a rest ih =>
    rw [List.mapM_cons, bind_eq_ok_iff]
    constructor
    · rintro ⟨b, hb, hrest⟩
      obtain ⟨bs, hbs, heq⟩ := bind_eq_ok_iff.1 hrest
      cases heq
      exact .cons hb (ih.1 hbs)
    · intro h
      cases h with
      | cons hb hbs => exact ⟨_, hb, bind_eq_ok_iff.2 ⟨_, ih.2 hbs, rfl⟩⟩

end

/-! ## Names -/

/-- What tells the members of a list apart tells their places. -/
theorem index_eq_of_nodup_map {α β : Type} {f : α → β} {l : List α} (h : (l.map f).Nodup) {i j : ℕ}
    (hi : i < l.length) (hj : j < l.length) (heq : f l[i] = f l[j]) : i = j := by
  have hi' : i < (l.map f).length := by simpa using hi
  have hj' : j < (l.map f).length := by simpa using hj
  have hmap : (l.map f)[i] = (l.map f)[j] := by
    rw [List.getElem_map, List.getElem_map, heq]
  exact h.getElem_inj_iff.1 hmap

/-- A constant that can be written as numbers, if it is one. -/
def Op.Finite {α : Type} (op : Op Word α) : Prop :=
  ∀ c ∈ op.constant?, (c.x.isFinite && c.y.isFinite && c.z.isFinite) = true

instance {α : Type} (op : Op Word α) : Decidable op.Finite :=
  inferInstanceAs (Decidable (∀ c ∈ op.constant?, _))

theorem Op.finite_map {α β : Type} (f : α → β) (op : Op Word α) : (op.map f).Finite ↔ op.Finite := by
  rw [Finite, Finite, constant?_map]

/-- All that the arena holds can be told apart by names, and all constants can be written. -/
structure Arena.Nameable (arena : Arena) : Prop where
  hash_inj : ∀ s t, arena.Holds s → arena.Holds t → s.hash = t.hash → s = t
  finite : ∀ t, arena.Holds t → t.op.Finite

theorem Arena.Nameable.congr {arena arena' : Arena}
    (hholds : ∀ t, arena.Holds t ↔ arena'.Holds t) (h : arena.Nameable) : arena'.Nameable where
  hash_inj s t hs ht := h.hash_inj s t ((hholds s).2 hs) ((hholds t).2 ht)
  finite t ht := h.finite t ((hholds t).2 ht)

namespace Program

theorem checkNames_cons_eq_ok_iff {node : Node} {rest : List Node} {seen : Std.HashSet UInt64} :
    checkNames (node :: rest) seen = .ok () ↔ seen.contains node.hash = false ∧ node.op.Finite ∧
      checkNames rest (seen.insert node.hash) = .ok () := by
  rw [checkNames, Op.Finite]
  by_cases hseen : seen.contains node.hash = true
  · simp [hseen]
  · rw [if_neg hseen]
    cases hc : node.op.constant? with
    | none => simp [hseen]
    | some c =>
      simp only [Option.mem_some_iff, forall_eq']
      by_cases hfinite : (c.x.isFinite && c.y.isFinite && c.z.isFinite) = true
      · rw [if_pos hfinite]
        simp [hseen, hfinite]
      · rw [if_neg hfinite]
        simp only [reduceCtorEq, false_iff, not_and]
        exact fun _ hall => absurd hall hfinite

/-- No hash occurs twice, or has been seen before, and all constants are finite. -/
theorem checkNames_eq_ok_iff {nodes : List Node} {seen : Std.HashSet UInt64} :
    checkNames nodes seen = .ok () ↔ (∀ node ∈ nodes, seen.contains node.hash = false) ∧
      (nodes.map Node.hash).Nodup ∧ ∀ node ∈ nodes, node.op.Finite := by
  induction nodes generalizing seen with
  | nil => simp [checkNames]
  | cons node rest ih =>
    rw [checkNames_cons_eq_ok_iff, ih]
    simp only [List.map_cons, List.nodup_cons, List.forall_mem_cons, Std.HashSet.contains_insert,
      Bool.or_eq_false_iff, beq_eq_false_iff_ne, List.mem_map, not_exists, not_and]
    constructor
    · rintro ⟨hseen, hfinite, hrest, hnodup, hall⟩
      refine ⟨⟨hseen, fun other hother => (hrest other hother).2⟩, ⟨?_, hnodup⟩, hfinite, hall⟩
      exact fun other hother heq => (hrest other hother).1 heq.symm
    · rintro ⟨⟨hseen, hrest⟩, ⟨hnew, hnodup⟩, hfinite, hall⟩
      refine ⟨hseen, hfinite, fun other hother => ⟨?_, hrest other hother⟩, hnodup, hall⟩
      exact fun heq => hnew other hother heq.symm

/-- The constants of an arena can be written if those of all that it holds can. -/
theorem finite_nodes_iff {arena : Arena} (hw : arena.WellFormed) :
    (∀ node ∈ arena.nodes.toList, node.op.Finite) ↔ ∀ t, arena.Holds t → t.op.Finite := by
  obtain ⟨trees, -, hnodes, hheld⟩ := hw.exists_trees
  constructor
  · intro hfinite t ht
    obtain ⟨node, hnode, -, op, hop, rfl⟩ := exists_left_of_mem hnodes ((hheld t).2 ht)
    have hnumbers := hfinite node hnode
    rw [hop, Op.finite_map] at hnumbers
    rw [Tree.op, Op.finite_map]
    exact hnumbers
  · intro hfinite node hnode
    obtain ⟨t, ht, -, op, hop, rfl⟩ := exists_left_of_mem hnodes.flip hnode
    have hnumbers := hfinite _ ((hheld _).1 ht)
    rw [Tree.op, Op.finite_map] at hnumbers
    rw [hop, Op.finite_map]
    exact hnumbers

theorem checkNames_nodes_iff {arena : Arena} (hw : arena.WellFormed) :
    checkNames arena.nodes.toList ∅ = .ok () ↔ arena.Nameable := by
  obtain ⟨trees, hdistinct, hnodes, hheld⟩ := hw.exists_trees
  -- Node by node the hashes are those of the trees, and the trees are all different.
  have hhashes : arena.nodes.toList.map Node.hash = trees.map Tree.hash :=
    map_eq_of_forall₂ (fun _ _ h => h.1) hnodes
  rw [checkNames_eq_ok_iff, hhashes, List.nodup_map_iff_inj_on hdistinct, finite_nodes_iff hw]
  constructor
  · rintro ⟨-, hinj, hfinite⟩
    exact ⟨fun s t hs ht => hinj s ((hheld s).2 hs) t ((hheld t).2 ht), hfinite⟩
  · intro h
    exact ⟨fun node _ => Std.HashSet.contains_empty,
      fun s hs t ht => h.hash_inj s t ((hheld s).1 hs) ((hheld t).1 ht), h.finite⟩

end Program

/-! ## Procedures -/

/-- The variable that an operation reads. -/
def Op.var? {κ α : Type} : Op κ α → Option Var
  | .var v => some v
  | _ => none

@[simp] theorem Op.var?_map {κ α β : Type} (f : α → β) (op : Op κ α) : (op.map f).var? = op.var? := by
  cases op <;> rfl

def Tree.var? (t : Tree) : Option Var := t.op.var?

theorem Program.varOf_eq_of_getElem? {nodes : Array Node} {h : Handle} {node : Node}
    (hnode : nodes[h.index]? = some node) : varOf nodes h = node.op.var? := by
  obtain ⟨op, hash⟩ := node
  rw [varOf, hnode]
  cases op <;> rfl

theorem Denotes.varOf_eq {nodes : Array Node} {h : Handle} {t : Tree} (ht : Denotes nodes h t) :
    Program.varOf nodes h = t.var? := by
  cases ht with
  | node op hnode hop hoperands =>
    rw [Program.varOf_eq_of_getElem? hnode, hop, Op.var?_map, Tree.var?, Tree.op, Op.var?_map]

namespace Program

theorem checkScope_eq_ok_iff {nodes : Array Node} {procedure : ProcedureName}
    {order : Array Handle} : checkScope nodes procedure order = .ok () ↔
      ∀ v ∈ order.toList.filterMap (varOf nodes), v ∈ procedure.scope := by
  rw [checkScope]
  cases hfind : (order.toList.filterMap (varOf nodes)).find? (! procedure.scope.contains ·) with
  | none =>
    rw [List.find?_eq_none] at hfind
    simpa using hfind
  | some v =>
    have hmem := List.mem_of_find?_eq_some hfind
    have hout := List.find?_some hfind
    simp only [reduceCtorEq, false_iff, not_forall]
    exact ⟨v, hmem, by simpa using hout⟩

theorem arrange_eq_ok_iff {nodes : Array Node} {procedure : ProcedureName} {roots : List Handle}
    {order : Array Handle} : arrange nodes procedure roots = .ok order ↔
      flatten nodes roots = .ok order ∧ checkScope nodes procedure order = .ok () := by
  rw [arrange, bind_eq_ok_iff]
  simp only [bind_eq_ok_iff, mapError_eq_ok_iff]
  constructor
  · rintro ⟨_, hflatten, ⟨⟩, hscope, heq⟩
    cases heq
    exact ⟨hflatten, hscope⟩
  · rintro ⟨hflatten, hscope⟩
    exact ⟨order, hflatten, (), hscope, rfl⟩

theorem ofEntity_eq_ok_iff {nodes : Array Node} {roots : EntityRoots} {e : EntityProgram} :
    ofEntity nodes roots = .ok e ↔
      arrange nodes (.distance roots.id) [roots.distance] = .ok e.distanceOrder ∧
      arrange nodes (.material roots.id) roots.material.toList = .ok e.materialOrder ∧
      e.toEntityRoots = roots := by
  rw [ofEntity, bind_eq_ok_iff]
  simp only [bind_eq_ok_iff]
  constructor
  · rintro ⟨_, hdistance, _, hmaterial, heq⟩
    cases heq
    exact ⟨hdistance, hmaterial, rfl⟩
  · rintro ⟨hdistance, hmaterial, rfl⟩
    exact ⟨_, hdistance, _, hmaterial, rfl⟩

/-! ## Entities -/

/-- The entities of a scene by ascending id. -/
def inOrder (entities : List EntityRoots) : List EntityRoots :=
  entities.mergeSort fun a b => a.id.raw ≤ b.id.raw

theorem inOrder_perm (entities : List EntityRoots) : (inOrder entities).Perm entities :=
  List.mergeSort_perm _ _

theorem pairwise_inOrder (entities : List EntityRoots) :
    (inOrder entities).Pairwise fun a b => a.id.raw ≤ b.id.raw := by
  have hsorted : (inOrder entities).Pairwise fun a b => decide (a.id.raw ≤ b.id.raw) = true := by
    apply List.pairwise_mergeSort
    · intro a b c hab hbc
      rw [decide_eq_true_eq] at *
      exact UInt32.le_trans hab hbc
    · intro a b
      rw [Bool.or_eq_true, decide_eq_true_eq, decide_eq_true_eq]
      exact UInt32.le_total _ _
  exact hsorted.imp of_decide_eq_true

theorem id_eq_iff {a b : EntityId} : a = b ↔ a.raw = b.raw := by
  rw [EntityId.mk.injEq]

/-- Ids that ascend are the ids of different entities. -/
theorem pairwise_lt_iff {entities : List EntityRoots}
    (hsorted : entities.Pairwise fun a b => a.id.raw ≤ b.id.raw) :
    (entities.Pairwise fun a b => a.id.raw < b.id.raw) ↔ (entities.map (·.id)).Nodup := by
  rw [List.nodup_iff_pairwise_ne, List.pairwise_map]
  constructor
  · intro hlt
    refine hlt.imp fun {a b} hab heq => ?_
    rw [heq] at hab
    exact UInt32.lt_irrefl _ hab
  · intro hne
    refine (hsorted.and hne).imp fun {a b} hab => ?_
    exact UInt32.lt_of_le_of_ne hab.1 fun heq => hab.2 (id_eq_iff.2 heq)

theorem pairwise_lt_inOrder_iff {entities : List EntityRoots} :
    ((inOrder entities).Pairwise fun a b => a.id.raw < b.id.raw) ↔
      (entities.map (·.id)).Nodup := by
  rw [pairwise_lt_iff (pairwise_inOrder _), ((inOrder_perm _).map _).nodup_iff]

/-- There is one way only to list entities by ascending id. -/
theorem eq_inOrder {sorted entities : List EntityRoots} (hperm : sorted.Perm entities)
    (hsorted : sorted.Pairwise fun a b => a.id.raw < b.id.raw) : sorted = inOrder entities := by
  have hlt : (inOrder entities).Pairwise fun a b => a.id.raw < b.id.raw := by
    rw [pairwise_lt_inOrder_iff, ← (hperm.map _).nodup_iff,
      ← pairwise_lt_iff (hsorted.imp UInt32.le_of_lt)]
    exact hsorted
  refine (hperm.trans (inOrder_perm _).symm).eq_of_pairwise (fun a b _ _ hab hba => ?_) hsorted hlt
  exact absurd (UInt32.lt_trans hab hba) (UInt32.lt_irrefl _)

/-- Of sorted entities, the first is below all others unless it shares its id with the next. -/
theorem lt_of_head_ne {a b : EntityRoots} {rest : List EntityRoots}
    (hsorted : (a :: b :: rest).Pairwise fun a b => a.id.raw ≤ b.id.raw) (hne : a.id ≠ b.id) :
    ∀ c ∈ b :: rest, a.id.raw < c.id.raw := by
  rw [List.pairwise_cons] at hsorted
  obtain ⟨hfirst, hrest⟩ := hsorted
  have hab : a.id.raw < b.id.raw :=
    UInt32.lt_of_le_of_ne (hfirst b List.mem_cons_self) fun hraw => hne (id_eq_iff.2 hraw)
  intro c hc
  rcases List.mem_cons.1 hc with rfl | hc
  · exact hab
  · exact UInt32.lt_of_lt_of_le hab (List.rel_of_pairwise_cons hrest hc)

theorem repeated?_eq_none_iff {entities : List EntityRoots}
    (hsorted : entities.Pairwise fun a b => a.id.raw ≤ b.id.raw) :
    repeated? entities = none ↔ entities.Pairwise fun a b => a.id.raw < b.id.raw := by
  induction entities with
  | nil => simp [repeated?]
  | cons a rest ih =>
    cases rest with
    | nil => simp [repeated?]
    | cons b rest =>
      rw [repeated?, List.pairwise_cons]
      by_cases heq : a.id = b.id
      · rw [if_pos heq]
        simp only [reduceCtorEq, false_iff, not_and]
        intro hlt _
        have hab := hlt b List.mem_cons_self
        rw [heq] at hab
        exact UInt32.lt_irrefl _ hab
      · rw [if_neg heq, ih hsorted.of_cons]
        exact (and_iff_right (lt_of_head_ne hsorted heq)).symm

/-- A scene of roots has a program exactly if its names pass, no id occurs twice, and every procedure
can be arranged. -/
theorem ofRoots_eq_ok_iff {nodes : Array Node} {roots : SceneRoots} {options : Options Word}
    {program : Program} : ofRoots nodes roots options = .ok program ↔
      checkNames nodes.toList ∅ = .ok () ∧ (roots.entities.map (·.id)).Nodup ∧
      Forall₂ (fun r e => ofEntity nodes r = .ok e) (inOrder roots.entities)
        program.entities.toList ∧
      arrange nodes .frame (roots.camera.toList ++ roots.air.toList) = .ok program.frame.order ∧
      program.nodes = nodes ∧ program.frame.camera = roots.camera ∧
      program.frame.air = roots.air ∧ program.options = options := by
  rw [← pairwise_lt_inOrder_iff, ← repeated?_eq_none_iff (pairwise_inOrder _), ofRoots,
    bind_eq_ok_iff]
  cases hrepeated : repeated? (inOrder roots.entities) with
  | some id =>
    unfold inOrder at hrepeated
    simp only [hrepeated, bind_eq_ok_iff]
    simp [throw, throwThe, MonadExceptOf.throw]
  | none =>
    unfold inOrder at hrepeated
    simp only [hrepeated, bind_eq_ok_iff, mapM_eq_ok_iff, true_and]
    constructor
    · rintro ⟨_, hnames, entities, hentities, order, hframe, heq⟩
      cases heq
      exact ⟨hnames, hentities, hframe, rfl, rfl, rfl, rfl⟩
    · rintro ⟨hnames, hentities, hframe, hnodes, hcamera, hair, hoptions⟩
      refine ⟨(), hnames, _, hentities, _, hframe, ?_⟩
      rw [← hnodes, ← hcamera, ← hair, ← hoptions]
      rfl

theorem ofScene_eq_ok_iff {scene : Scene} {options : Options Word} {program : Program} :
    ofScene scene options = .ok program ↔ options.validate = .ok () ∧
      ofRoots (scene.build.run ∅).2.nodes (scene.build.run ∅).1 options = .ok program := by
  rw [ofScene, bind_eq_ok_iff]
  simp only [mapError_eq_ok_iff]
  constructor
  · rintro ⟨_, hvalid, hroots⟩
    exact ⟨hvalid, hroots⟩
  · rintro ⟨hvalid, hroots⟩
    exact ⟨(), hvalid, hroots⟩

/-- The programs of one scene differ in their options only. -/
theorem ofScene_options {scene : Scene} {options options' : Options Word} {program : Program}
    (h : ofScene scene options = .ok program) (hvalid : options'.validate = .ok ()) :
    ofScene scene options' = .ok { program with options := options' } := by
  obtain ⟨-, hroots⟩ := ofScene_eq_ok_iff.1 h
  obtain ⟨hnames, hids, hentities, hframe, hnodes, hcamera, hair, -⟩ := ofRoots_eq_ok_iff.1 hroots
  exact ofScene_eq_ok_iff.2 ⟨hvalid,
    ofRoots_eq_ok_iff.2 ⟨hnames, hids, hentities, hframe, hnodes, hcamera, hair, rfl⟩⟩

end Program

end SphereTracer
