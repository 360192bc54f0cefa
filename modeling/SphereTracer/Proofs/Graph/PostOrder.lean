import Mathlib.Logic.Relation
import Mathlib.Data.List.Nodup
import SphereTracer.Expr.Flatten

/-!
# Post-order of expression graphs

The graph that a slice of nodes describes, and the recursive depth-first post-order of its parts.
The slice is arbitrary: it may contain cycles, and operands that lead nowhere.  Where a post-order
exists, it lists exactly what the roots reach, each node once and after its operands, and no cycle
is in reach.
-/

namespace SphereTracer.Graph

open Relation

/-- The operands of a node; a handle that leads nowhere has none. -/
def operandsOf (nodes : Array Node) (h : Handle) : List Handle :=
  match nodes[h.index]? with
  | some node => node.op.operands
  | none => []

/-- The node `a` reads the value of `b`. -/
def Uses (nodes : Array Node) (a b : Handle) : Prop := b ∈ operandsOf nodes a

/-- What the roots need, directly or through operands. -/
def Reachable (nodes : Array Node) (roots : List Handle) (h : Handle) : Prop :=
  ∃ r ∈ roots, ReflTransGen (Uses nodes) r h

/-- The node needs its own value. -/
def OnCycle (nodes : Array Node) (h : Handle) : Prop := TransGen (Uses nodes) h h

/-- The recursive post-order.  `PostOrder nodes roots out out'` says that walking the roots from left
to right extends the list `out` to `out'`: a root that is listed already adds nothing, and any other
is listed after its operands have been walked in the same way. -/
inductive PostOrder (nodes : Array Node) : List Handle → List Handle → List Handle → Prop where
  | nil (out : List Handle) : PostOrder nodes [] out out
  | seen {h : Handle} {rest out out' : List Handle} (hseen : h ∈ out)
      (hrest : PostOrder nodes rest out out') : PostOrder nodes (h :: rest) out out'
  | visit {h : Handle} {node : Node} {rest out mid out' : List Handle} (hnew : h ∉ out)
      (hnode : nodes[h.index]? = some node) (hoperands : PostOrder nodes node.op.operands out mid)
      (hrest : PostOrder nodes rest (mid ++ [h]) out') : PostOrder nodes (h :: rest) out out'

/-- Wherever a node stands in the list, all of its operands stand before it. -/
def OperandsFirst (nodes : Array Node) (l : List Handle) : Prop :=
  ∀ before a after, l = before ++ a :: after → ∀ b, Uses nodes a b → b ∈ before

variable {nodes : Array Node}

/-! ## Reachability -/

theorem uses_iff {a b : Handle} {node : Node} (hnode : nodes[a.index]? = some node) :
    Uses nodes a b ↔ b ∈ node.op.operands := by
  unfold Uses operandsOf
  rw [hnode]

theorem Uses.exists_node {a b : Handle} (h : Uses nodes a b) :
    ∃ node, nodes[a.index]? = some node ∧ b ∈ node.op.operands := by
  unfold Uses operandsOf at h
  split at h
  · rename_i node hnode
    exact ⟨node, hnode, h⟩
  · cases h

theorem Reachable.of_mem {roots : List Handle} {r : Handle} (hr : r ∈ roots) :
    Reachable nodes roots r :=
  ⟨r, hr, .refl⟩

theorem Reachable.step {roots : List Handle} {a b : Handle} (ha : Reachable nodes roots a)
    (hb : Uses nodes a b) : Reachable nodes roots b := by
  obtain ⟨r, hr, hpath⟩ := ha
  exact ⟨r, hr, hpath.tail hb⟩

theorem Reachable.mono {roots roots' : List Handle} {h : Handle} (hsub : roots ⊆ roots')
    (hh : Reachable nodes roots h) : Reachable nodes roots' h := by
  obtain ⟨r, hr, hpath⟩ := hh
  exact ⟨r, hsub hr, hpath⟩

theorem Reachable.root_or_operand {roots : List Handle} {h : Handle}
    (hh : Reachable nodes roots h) :
    h ∈ roots ∨ ∃ g, Reachable nodes roots g ∧ Uses nodes g h := by
  obtain ⟨r, hr, hpath⟩ := hh
  rcases hpath.cases_tail with heq | ⟨g, hg, huse⟩
  · left
    rwa [heq]
  · right
    exact ⟨g, ⟨r, hr, hg⟩, huse⟩

/-- A set that contains the roots and the operands of its members contains all that is in reach. -/
theorem Reachable.of_closed {roots : List Handle} {h : Handle} {P : Handle → Prop}
    (hroots : ∀ r ∈ roots, P r) (hclosed : ∀ a b, P a → Uses nodes a b → P b)
    (hh : Reachable nodes roots h) : P h := by
  obtain ⟨r, hr, hpath⟩ := hh
  induction hpath with
  | refl => exact hroots r hr
  | tail _ huse ih => exact hclosed _ _ ih huse

/-! ## Lists with operands first -/

theorem OperandsFirst.nil : OperandsFirst nodes [] := by
  intro before a after h
  simp at h

theorem OperandsFirst.mem {l : List Handle} (hl : OperandsFirst nodes l) {a b : Handle}
    (ha : a ∈ l) (hb : Uses nodes a b) : b ∈ l := by
  obtain ⟨before, after, rfl⟩ := List.append_of_mem ha
  exact List.mem_append_left _ (hl before a after rfl b hb)

theorem OperandsFirst.concat {l : List Handle} (hl : OperandsFirst nodes l) {h : Handle}
    (hh : ∀ b, Uses nodes h b → b ∈ l) : OperandsFirst nodes (l ++ [h]) := by
  intro before a after heq b hb
  rcases List.eq_nil_or_concat after with rfl | ⟨front, last, rfl⟩
  · obtain ⟨rfl, hsingle⟩ := List.append_inj' heq rfl
    cases hsingle
    exact hh b hb
  · have hsplit : l ++ [h] = (before ++ a :: front) ++ [last] := by
      rw [heq]
      simp
    obtain ⟨rfl, _⟩ := List.append_inj' hsplit rfl
    exact hl before a front rfl b hb

theorem OperandsFirst.idxOf_lt {l : List Handle} (hl : OperandsFirst nodes l) {a b : Handle}
    (ha : a ∈ l) (hb : Uses nodes a b) : l.idxOf b < l.idxOf a := by
  obtain ⟨before, after, rfl, hnot⟩ := List.eq_append_cons_of_mem ha
  have hmem : b ∈ before := hl before a after rfl b hb
  rw [List.idxOf_append_of_mem hmem, List.idxOf_append_of_notMem hnot]
  have hlt := List.idxOf_lt_length_of_mem hmem
  omega

theorem OperandsFirst.mem_of_transGen {l : List Handle} (hl : OperandsFirst nodes l) {a b : Handle}
    (ha : a ∈ l) (hpath : TransGen (Uses nodes) a b) : b ∈ l ∧ l.idxOf b < l.idxOf a := by
  induction hpath with
  | single huse => exact ⟨hl.mem ha huse, hl.idxOf_lt ha huse⟩
  | tail _ huse ih =>
    have hlt := hl.idxOf_lt ih.1 huse
    exact ⟨hl.mem ih.1 huse, by omega⟩

theorem OperandsFirst.not_onCycle {l : List Handle} (hl : OperandsFirst nodes l) {h : Handle}
    (hh : h ∈ l) : ¬ OnCycle nodes h := by
  intro hcycle
  have hlt := (hl.mem_of_transGen hh hcycle).2
  omega

/-! ## The post-order -/

namespace PostOrder

theorem unique {roots out l l' : List Handle} (h : PostOrder nodes roots out l)
    (h' : PostOrder nodes roots out l') : l = l' := by
  induction h generalizing l' with
  | nil out =>
    cases h'
    rfl
  | seen hseen _ ih =>
    cases h' with
    | seen _ hrest' => exact ih hrest'
    | visit hnew _ _ _ => exact absurd hseen hnew
  | visit hnew hnode _ _ ihoperands ihrest =>
    cases h' with
    | seen hseen _ => exact absurd hseen hnew
    | visit _ hnode' hoperands' hrest' =>
      cases hnode.symm.trans hnode'
      cases ihoperands hoperands'
      exact ihrest hrest'

theorem append {roots₁ roots₂ out mid out' : List Handle} (h₁ : PostOrder nodes roots₁ out mid)
    (h₂ : PostOrder nodes roots₂ mid out') : PostOrder nodes (roots₁ ++ roots₂) out out' := by
  induction h₁ with
  | nil => exact h₂
  | seen hseen _ ih => exact .seen hseen (ih h₂)
  | visit hnew hnode hoperands _ _ ihrest => exact .visit hnew hnode hoperands (ihrest h₂)

theorem isPrefix {roots out out' : List Handle} (h : PostOrder nodes roots out out') :
    out <+: out' := by
  induction h with
  | nil => exact List.prefix_rfl
  | seen _ _ ih => exact ih
  | visit _ _ _ _ ihoperands ihrest =>
    exact (ihoperands.trans (List.prefix_append _ _)).trans ihrest

theorem mem_of_mem {roots out out' : List Handle} (h : PostOrder nodes roots out out') {a : Handle}
    (ha : a ∈ out) : a ∈ out' :=
  h.isPrefix.subset ha

theorem root_mem {roots out out' : List Handle} (h : PostOrder nodes roots out out') :
    ∀ r ∈ roots, r ∈ out' := by
  induction h with
  | nil => simp
  | seen hseen hrest ih =>
    rintro r (_ | ⟨_, hr⟩)
    · exact hrest.mem_of_mem hseen
    · exact ih r hr
  | visit _ _ _ hrest _ ihrest =>
    rintro r (_ | ⟨_, hr⟩)
    · exact hrest.mem_of_mem (List.mem_append_right _ List.mem_cons_self)
    · exact ihrest r hr

theorem mem_reachable {roots out out' : List Handle} (h : PostOrder nodes roots out out') :
    ∀ a ∈ out', a ∈ out ∨ Reachable nodes roots a := by
  induction h with
  | nil => exact fun a ha => .inl ha
  | seen _ _ ih =>
    intro a ha
    exact (ih a ha).imp_right (Reachable.mono (List.subset_cons_self _ _))
  | @visit h node rest out mid out' _ hnode _ _ ihoperands ihrest =>
    intro a ha
    rcases ihrest a ha with hmid | hreach
    · rcases List.mem_append.1 hmid with hmid | hself
      · refine (ihoperands a hmid).imp_right fun hreach => ?_
        refine hreach.of_closed (fun r hr => ?_) fun _ _ => Reachable.step
        exact (Reachable.of_mem List.mem_cons_self).step ((uses_iff hnode).2 hr)
      · cases List.mem_singleton.1 hself
        exact .inr (Reachable.of_mem List.mem_cons_self)
    · exact .inr (hreach.mono (List.subset_cons_self _ _))

theorem mem_valid {roots out out' : List Handle} (h : PostOrder nodes roots out out') :
    ∀ a ∈ out', a ∈ out ∨ a.index < nodes.size := by
  induction h with
  | nil => exact fun a ha => .inl ha
  | seen _ _ ih => exact ih
  | visit _ hnode _ _ ihoperands ihrest =>
    intro a ha
    rcases ihrest a ha with hmid | hvalid
    · rcases List.mem_append.1 hmid with hmid | hself
      · exact ihoperands a hmid
      · cases List.mem_singleton.1 hself
        exact .inr (Array.getElem?_eq_some_iff.1 hnode).1
    · exact .inr hvalid

theorem operandsFirst {roots out out' : List Handle} (h : PostOrder nodes roots out out')
    (hout : OperandsFirst nodes out) : OperandsFirst nodes out' := by
  induction h with
  | nil => exact hout
  | seen _ _ ih => exact ih hout
  | visit _ hnode hoperands _ ihoperands ihrest =>
    refine ihrest ((ihoperands hout).concat fun b hb => ?_)
    exact hoperands.root_mem b ((uses_iff hnode).1 hb)

theorem mem_of_reachable {roots out out' : List Handle} (h : PostOrder nodes roots out out')
    (hout : OperandsFirst nodes out) {a : Handle} (ha : Reachable nodes roots a) : a ∈ out' :=
  -- The list has the roots and is closed under operands, so it has all that is in reach.
  ha.of_closed h.root_mem fun _ _ => (h.operandsFirst hout).mem

/-- No node is listed twice: a root that came up again below itself would be on a cycle. -/
theorem nodup {roots out out' : List Handle} (h : PostOrder nodes roots out out')
    (hout : OperandsFirst nodes out) (hnodup : out.Nodup) : out'.Nodup := by
  induction h with
  | nil => exact hnodup
  | seen _ _ ih => exact ih hout hnodup
  | @visit h node rest out mid out' hnew hnode hoperands _ ihoperands ihrest =>
    -- What the operands list is in reach of them; were `h` among it, `h` would be in reach of
    -- itself.
    have hmid := hoperands.operandsFirst hout
    have hlast : ∀ b, Uses nodes h b → b ∈ mid := fun b hb =>
      hoperands.root_mem b ((uses_iff hnode).1 hb)
    have hnot : h ∉ mid := by
      intro hin
      obtain ⟨r, hr, hpath⟩ := (hoperands.mem_reachable h hin).resolve_left hnew
      exact hmid.not_onCycle hin (.head' ((uses_iff hnode).2 hr) hpath)
    refine ihrest (hmid.concat hlast) ?_
    rw [List.nodup_append]
    refine ⟨ihoperands hout hnodup, List.nodup_singleton h, ?_⟩
    rintro a ha b hb rfl
    exact hnot (List.mem_singleton.1 hb ▸ ha)

/-- From an empty list, exactly the nodes in reach are listed. -/
theorem mem_iff {roots order : List Handle} (h : PostOrder nodes roots [] order) {a : Handle} :
    a ∈ order ↔ Reachable nodes roots a := by
  constructor
  · intro ha
    exact (h.mem_reachable a ha).resolve_left List.not_mem_nil
  · exact h.mem_of_reachable .nil

/-- Where there is a post-order, nothing in reach needs its own value or leads nowhere. -/
theorem sound {roots order : List Handle} (h : PostOrder nodes roots [] order) {a : Handle}
    (ha : Reachable nodes roots a) : ¬ OnCycle nodes a ∧ a.index < nodes.size := by
  have hmem := h.mem_of_reachable .nil ha
  exact ⟨(h.operandsFirst .nil).not_onCycle hmem,
    (h.mem_valid a hmem).resolve_left List.not_mem_nil⟩

end PostOrder

end SphereTracer.Graph
