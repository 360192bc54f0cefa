import SphereTracer.Proofs.Graph.Flattened

/-!
# Graphs that differ in their numbers only

Two slices of nodes may hold the same graph under different numbers.  Walks over them then go in
lockstep: they open, finish and drop nodes that correspond, they are given up together, and they end
with orders that correspond.
-/

namespace SphereTracer

open List (Forall₂)

/-- A correspondence between nodes of two slices: it is one to one, and operands of nodes that
correspond do so in turn. -/
structure Graph.Alike (nodes nodes' : Array Node) (same : Handle → Handle → Prop) : Prop where
  biUnique : Relator.BiUnique same
  operands : ∀ {a b}, same a b → ∃ node node', nodes[a.index]? = some node ∧
    nodes'[b.index]? = some node' ∧ Forall₂ same node.op.operands node'.op.operands

theorem exists_left_of_mem {α β : Type} {r : α → β → Prop} {l : List α} {l' : List β}
    (h : Forall₂ r l l') {b : β} (hb : b ∈ l') : ∃ a ∈ l, r a b := by
  induction h with
  | nil => exact absurd hb List.not_mem_nil
  | @cons x y _ _ hxy _ ih =>
    rcases List.mem_cons.1 hb with rfl | hmem
    · exact ⟨x, List.mem_cons_self, hxy⟩
    · obtain ⟨a, ha, hab⟩ := ih hmem
      exact ⟨a, List.mem_cons_of_mem _ ha, hab⟩

theorem forall₂_join {α β γ : Type} {R : α → γ → Prop} {R' : β → γ → Prop} {S : α → β → Prop}
    {l : List α} {l' : List β} {m : List γ} (h : Forall₂ R l m) (h' : Forall₂ R' l' m)
    (hS : ∀ a b c, R a c → R' b c → S a b) : Forall₂ S l l' := by
  induction h generalizing l' with
  | nil =>
    rw [List.forall₂_nil_right_iff.1 h']
    exact .nil
  | cons hac _ ih =>
    cases h' with
    | cons hbc hrest => exact .cons (hS _ _ _ hac hbc) (ih hrest)

theorem map_eq_of_forall₂ {α β γ : Type} {R : α → β → Prop} {f : α → γ} {f' : β → γ}
    (hf : ∀ a b, R a b → f a = f' b) {l : List α} {l' : List β} (h : Forall₂ R l l') :
    l.map f = l'.map f' := by
  rw [← List.forall₂_eq_eq_eq, List.forall₂_map_left_iff, List.forall₂_map_right_iff]
  exact h.imp hf

variable {nodes nodes' : Array Node} {same : Handle → Handle → Prop} {roots roots' : List Handle}

namespace Graph.Alike

theorem flip (hs : Alike nodes nodes' same) : Alike nodes' nodes fun b a => same a b where
  biUnique := ⟨fun _ _ _ h h' => hs.biUnique.2 h h', fun _ _ _ h h' => hs.biUnique.1 h h'⟩
  operands hab := by
    obtain ⟨node, node', hnode, hnode', hoperands⟩ := hs.operands hab
    exact ⟨node', node, hnode', hnode, hoperands.flip⟩

theorem eq_iff (hs : Alike nodes nodes' same) {a b a' b' : Handle} (hab : same a b)
    (hab' : same a' b') : a = a' ↔ b = b' := by
  constructor
  · rintro rfl
    exact hs.biUnique.2 hab hab'
  · rintro rfl
    exact hs.biUnique.1 hab hab'

end Graph.Alike

open SphereTracer.Graph

theorem Graph.PostOrder.alike (hs : Alike nodes nodes' same) {out final : List Handle}
    (hpost : PostOrder nodes roots out final) (hroots : Forall₂ same roots roots')
    {out' : List Handle} (hout : Forall₂ same out out') :
    ∃ final', PostOrder nodes' roots' out' final' ∧ Forall₂ same final final' := by
  induction hpost generalizing roots' out' with
  | nil out =>
    cases hroots
    exact ⟨out', .nil _, hout⟩
  | seen hseen _ ih =>
    cases hroots with
    | cons hab hrest =>
      obtain ⟨final', hpost', hfinal⟩ := ih hrest hout
      exact ⟨final', .seen ((List.rel_mem hs.biUnique hab hout).1 hseen) hpost', hfinal⟩
  | visit hnew hnode _ _ ihoperands ihrest =>
    cases hroots with
    | cons hab hrest =>
      obtain ⟨node, node', hnode₁, hnode', hoperands⟩ := hs.operands hab
      cases hnode.symm.trans hnode₁
      obtain ⟨mid', hmid', hmid⟩ := ihoperands hoperands hout
      obtain ⟨final', hpost', hfinal⟩ := ihrest hrest (List.rel_append hmid (.cons hab .nil))
      -- The correspondence is one to one, so what is new here is new there.
      have hnew' := fun hmem => hnew ((List.rel_mem hs.biUnique hab hout).2 hmem)
      exact ⟨final', .visit hnew' hnode' hmid' hpost', hfinal⟩

namespace Walk

/-- Entries for nodes that correspond, both expanded or both not. -/
def SameEntry (same : Handle → Handle → Prop) (e e' : Pending) : Prop :=
  same e.handle e'.handle ∧ e.expanded = e'.expanded

/-- Marks that say the same of nodes that correspond. -/
def SameMarks (same : Handle → Handle → Prop) (marks marks' : Array Mark) : Prop :=
  ∀ {a b}, same a b → marks[a.index]? = marks'[b.index]?

theorem SameMarks.set (hs : Graph.Alike nodes nodes' same) {marks marks' : Array Mark}
    (hmarks : SameMarks same marks marks') {h h' : Handle} (hh : same h h') (m : Mark) :
    SameMarks same (marks.setIfInBounds h.index m) (marks'.setIfInBounds h'.index m) := by
  intro a b hab
  rw [getElem?_mark, getElem?_mark, hmarks hab]
  simp only [hs.eq_iff hh hab]

theorem fresh_alike {marks marks' : Array Mark} (hmarks : SameMarks same marks marks')
    {operands operands' : List Handle} (hoperands : Forall₂ same operands operands') :
    Forall₂ (SameEntry same) (fresh marks operands) (fresh marks' operands') := by
  induction hoperands with
  | nil => exact .nil
  | @cons a b _ _ hab _ ih =>
    unfold fresh at ih ⊢
    rw [List.filter_cons, List.filter_cons, hmarks hab]
    by_cases hb : marks'[b.index]? = some .unvisited
    · rw [if_pos (decide_eq_true hb), if_pos (decide_eq_true hb)]
      exact .cons ⟨hab, rfl⟩ ih
    · rw [if_neg (by simpa using hb), if_neg (by simpa using hb)]
      exact ih

/-- Walks that have come equally far. -/
structure Alike (same : Handle → Handle → Prop) (walk walk' : Walk) : Prop where
  todo : Forall₂ (SameEntry same) walk.todo walk'.todo
  marks : SameMarks same walk.marks walk'.marks

theorem exists_push {marks marks' : Array Mark} {order order' : Array Handle}
    {rest stack : Array Pending} {e : Pending}
    (h : Forall₂ (SameEntry same) (todo ⟨marks, order, rest.push e⟩)
      (todo ⟨marks', order', stack⟩)) :
    ∃ rest' e', stack = rest'.push e' ∧ SameEntry same e e' ∧
      Forall₂ (SameEntry same) (todo ⟨marks, order, rest⟩) (todo ⟨marks', order', rest'⟩) := by
  rw [todo_push] at h
  generalize heq : todo ⟨marks', order', stack⟩ = entries at h
  cases h with
  | @cons _ e' _ tail he hrest =>
    refine ⟨tail.reverse.toArray, e', ?_, he, ?_⟩
    · apply Array.toList_inj.1
      have hlist : stack.toList = (e' :: tail).reverse := by
        rw [← heq, todo, List.reverse_reverse]
      rw [hlist, Array.toList_push, List.reverse_cons]
    · rw [todo, todo, List.reverse_reverse]
      exact hrest

/-- A move of one walk is matched by a move of the other. -/
theorem Move.alike (hs : Graph.Alike nodes nodes' same) {walk next walk' : Walk}
    (hmove : Move nodes walk next) (hw : Alike same walk walk') :
    ∃ next', Move nodes' walk' next' ∧ Alike same next next' := by
  obtain ⟨marks', order', stack'⟩ := walk'
  obtain ⟨htodo, hmarks⟩ := hw
  cases hmove with
  | @finish marks order rest h node hnode =>
    obtain ⟨rest', ⟨h', x⟩, rfl, ⟨hh, hx⟩, hrest⟩ := exists_push htodo
    obtain ⟨_, node', -, hnode', -⟩ := hs.operands hh
    cases hx
    exact ⟨_, .finish hnode', hrest, hmarks.set hs hh .done⟩
  | @drop marks order rest h node hnode hmark =>
    obtain ⟨rest', ⟨h', x⟩, rfl, ⟨hh, hx⟩, hrest⟩ := exists_push htodo
    obtain ⟨_, node', -, hnode', -⟩ := hs.operands hh
    cases hx
    exact ⟨_, .drop hnode' ((hmarks hh).symm.trans hmark), hrest, hmarks⟩
  | @expand marks order rest h node hnode hmark hready =>
    obtain ⟨rest', ⟨h', x⟩, rfl, ⟨hh, hx⟩, hrest⟩ := exists_push htodo
    obtain ⟨_, node', hnode₁, hnode', hoperands⟩ := hs.operands hh
    cases hnode.symm.trans hnode₁
    cases hx
    have hopened : SameMarks same (opened marks h) (opened marks' h') := hmarks.set hs hh .active
    refine ⟨_, .expand hnode' ((hmarks hh).symm.trans hmark) ?_, ?_, hopened⟩
    · intro b hb
      obtain ⟨a, ha, hab⟩ := exists_left_of_mem hoperands hb
      rw [← hopened hab]
      exact hready a ha
    · rw [todo_expand marks, todo_expand marks']
      exact List.rel_append (fresh_alike hopened hoperands) (.cons ⟨hh, rfl⟩ hrest)

theorem Advance.alike (hs : Graph.Alike nodes nodes' same) {state next state' : List Handle × Walk}
    (h : Advance nodes state next) (hroots : Forall₂ same state.1 state'.1)
    (hw : Alike same state.2 state'.2) :
    ∃ next', Advance nodes' state' next' ∧ Forall₂ same next.1 next'.1 ∧
      Alike same next.2 next'.2 := by
  obtain ⟨roots', walk'⟩ := state'
  cases h with
  | move hmove =>
    obtain ⟨next', hmove', hnext⟩ := hmove.alike hs hw
    exact ⟨_, .move hmove', hroots, hnext⟩
  | @root r roots marks order =>
    obtain ⟨marks', order', stack'⟩ := walk'
    cases hroots with
    | cons hr hrest =>
      have hempty : stack' = #[] := by
        have hlength := hw.todo.length_eq
        simp only [todo, List.length_reverse, Array.length_toList] at hlength
        exact Array.eq_empty_of_size_eq_zero hlength.symm
      subst hempty
      exact ⟨_, .root, hrest, .cons ⟨hr, rfl⟩ .nil, hw.marks⟩

theorem Reaches.alike (hs : Graph.Alike nodes nodes' same) (hroots : Forall₂ same roots roots')
    {state : List Handle × Walk} (h : Reaches nodes roots state) :
    ∃ state', Reaches nodes' roots' state' ∧ Forall₂ same state.1 state'.1 ∧
      Alike same state.2 state'.2 := by
  induction h with
  | refl =>
    refine ⟨_, .refl, hroots, .nil, fun {a b} hab => ?_⟩
    obtain ⟨_, _, hnode, hnode', -⟩ := hs.operands hab
    have hlt := (Array.getElem?_eq_some_iff.1 hnode).1
    have hlt' := (Array.getElem?_eq_some_iff.1 hnode').1
    simp only [start]
    rw [Array.getElem?_replicate, Array.getElem?_replicate, if_pos hlt, if_pos hlt']
  | tail _ hadvance ih =>
    obtain ⟨mid', hpath, hmid, hwalk⟩ := ih
    obtain ⟨next', hadvance', hnext⟩ := hadvance.alike hs hmid hwalk
    exact ⟨next', hpath.tail hadvance', hnext⟩

theorem Exceeds.alike (hs : Graph.Alike nodes nodes' same) (hroots : Forall₂ same roots roots')
    (h : Exceeds nodes roots) : Exceeds nodes' roots' := by
  obtain ⟨state, hreach, hdeep⟩ := h
  obtain ⟨state', hreach', -, hwalk⟩ := hreach.alike hs hroots
  have hlength := hwalk.todo.length_eq
  simp only [todo, List.length_reverse, Array.length_toList] at hlength
  exact ⟨state', hreach', hlength ▸ hdeep⟩

end Walk

/-- Flattening gives orders that correspond. -/
theorem flatten_alike (hs : Alike nodes nodes' same) (hroots : Forall₂ same roots roots')
    {order : Array Handle} (h : flatten nodes roots = .ok order) :
    ∃ order', flatten nodes' roots' = .ok order' ∧ Forall₂ same order.toList order'.toList := by
  obtain ⟨final, hpost, hfinal⟩ := (Walk.flatten_postOrder h).alike hs hroots .nil
  have hwithin : ¬ Walk.Exceeds nodes' roots' := by
    intro hdeep
    have hback := Walk.flatten_depthExceeded_iff.2 ⟨rfl, hdeep.alike hs.flip hroots.flip⟩
    cases h.symm.trans hback
  obtain ⟨order', horder'⟩ := Walk.flatten_ok (fun _ hb => hpost.sound hb) hwithin
  refine ⟨order', horder', ?_⟩
  rw [(Walk.flatten_postOrder horder').unique hpost]
  exact hfinal

end SphereTracer
