import SphereTracer.Proofs.Expr.Evaluated
import SphereTracer.Proofs.Program.Checked

/-!
# Procedures that can be arranged

Over a founded arena, two things only can be wrong with a procedure: too many entries are pending at
once, or a variable is read that is out of scope.  Cycles and handles that lead nowhere cannot come
up.
-/

namespace SphereTracer

open SphereTracer.Graph

/-! ## The error of a computation -/

section
variable {ε α β : Type}

def fault? : Except ε α → Option ε
  | .error e => some e
  | .ok _ => none

theorem fault?_eq_some_iff {x : Except ε α} {e : ε} : fault? x = some e ↔ x = .error e := by
  cases x <;> simp [fault?]

theorem fault?_eq_none_iff {x : Except ε α} : fault? x = none ↔ ∃ a, x = .ok a := by
  cases x <;> simp [fault?]

/-- If the second computation fails in the same way whatever the first one gives, the error is the
first of the two. -/
theorem fault?_bind {x : Except ε α} {f : α → Except ε β} {o : Option ε}
    (hf : ∀ a, x = .ok a → fault? (f a) = o) : fault? (x >>= f) = (fault? x).or o := by
  cases x with
  | error e => rfl
  | ok a => exact hf a rfl

theorem fault?_bind_pure (x : Except ε α) (g : α → β) :
    fault? (x >>= fun a => pure (g a)) = fault? x := by
  cases x <;> rfl

theorem fault?_mapM (f : α → Except ε β) (l : List α) :
    fault? (l.mapM f) = l.findSome? fun a => fault? (f a) := by
  induction l with
  | nil => rfl
  | cons a rest ih =>
    rw [List.mapM_cons, List.findSome?_cons]
    have hrest (b : β) : fault? (rest.mapM f >>= fun bs => pure (b :: bs)) =
        rest.findSome? fun a => fault? (f a) := by
      rw [fault?_bind_pure, ih]
    rw [fault?_bind fun b _ => hrest b]
    cases fault? (f a) <;> rfl

end

/-! ## One procedure -/

/-- A procedure that is to be put in order. -/
structure Procedure where
  name : ProcedureName
  roots : List Handle

namespace Procedure

/-- Nothing is wrong with the procedure. -/
structure Sound (nodes : Array Node) (q : Procedure) : Prop where
  within : ¬ Walk.Exceeds nodes q.roots
  scope : ∀ h, Reachable nodes q.roots h → ∀ v, Program.varOf nodes h = some v → v ∈ q.name.scope

/-- What is wrong with the procedure: first of all the number of pending entries, and else the first
variable of the order that is out of scope. -/
inductive Fault (nodes : Array Node) (q : Procedure) : CompileError → Prop where
  | tooDeep (hdeep : Walk.Exceeds nodes q.roots) :
      Fault nodes q (.graph (.depthExceeded maxTraversal))
  | unbound {before after : List Handle} {h : Handle} {v : Var}
    (hwithin : ¬ Walk.Exceeds nodes q.roots)
    (hpost : PostOrder nodes q.roots [] (before ++ h :: after))
    (hbefore : ∀ a ∈ before, ∀ v, Program.varOf nodes a = some v → v ∈ q.name.scope)
    (hv : Program.varOf nodes h = some v) (hout : v ∉ q.name.scope) :
    Fault nodes q (.unbound v q.name)

end Procedure

namespace Program

theorem checkScope_eq_error_iff {nodes : Array Node} {procedure : ProcedureName}
    {order : Array Handle} {e : CompileError} : checkScope nodes procedure order = .error e ↔
      ∃ before h after v, order.toList = before ++ h :: after ∧
        (∀ a ∈ before, ∀ v, varOf nodes a = some v → v ∈ procedure.scope) ∧
        varOf nodes h = some v ∧ v ∉ procedure.scope ∧ e = .unbound v procedure := by
  have hout (a : Handle) : ((varOf nodes a).any (! procedure.scope.contains ·)) = true ↔
      ∃ v, varOf nodes a = some v ∧ v ∉ procedure.scope := by
    cases varOf nodes a <;> simp
  rw [checkScope, List.find?_filterMap]
  constructor
  · intro h
    cases hfind :
        order.toList.find? fun a => (varOf nodes a).any (! procedure.scope.contains ·) with
    | none => simp only [hfind, Option.bind_none, reduceCtorEq] at h
    | some a =>
      obtain ⟨ha, before, after, hsplit, hbefore⟩ := List.find?_eq_some_iff_append.1 hfind
      obtain ⟨v, hv, hscope⟩ := (hout a).1 ha
      simp only [hfind, Option.bind_some, hv, Except.error.injEq] at h
      refine ⟨before, a, after, v, hsplit, fun b hb w hw => ?_, hv, hscope, h.symm⟩
      by_contra hnot
      have hpass := hbefore b hb
      rw [(hout b).2 ⟨w, hw, hnot⟩] at hpass
      cases hpass
  · rintro ⟨before, a, after, v, hsplit, hbefore, hv, hscope, rfl⟩
    have hfind : order.toList.find? (fun a => (varOf nodes a).any (! procedure.scope.contains ·)) =
        some a := by
      refine List.find?_eq_some_iff_append.2 ⟨(hout a).2 ⟨v, hv, hscope⟩, before, after, hsplit, ?_⟩
      intro b hb
      rw [Bool.not_eq_true', ← Bool.not_eq_true, hout]
      rintro ⟨w, hw, hnot⟩
      exact hnot (hbefore b hb w hw)
    rw [hfind, Option.bind_some, hv]

variable {arena : Arena} {q : Procedure}

theorem arrange_eq_error_iff (hf : arena.Founded)
    (hroots : ∀ r ∈ q.roots, r.index < arena.nodes.size) {e : CompileError} :
    arrange arena.nodes q.name q.roots = .error e ↔ q.Fault arena.nodes e := by
  rw [arrange, bind_eq_error_iff]
  simp only [mapError_eq_error_iff, mapError_eq_ok_iff]
  constructor
  · rintro (⟨g, hg, rfl⟩ | ⟨order, horder, hrest⟩)
    · obtain ⟨rfl, hdeep⟩ := (hf.flatten_error_iff hroots).1 hg
      exact .tooDeep hdeep
    · have hwithin : ¬ Walk.Exceeds arena.nodes q.roots := by
        intro hdeep
        cases horder.symm.trans (Walk.flatten_depthExceeded_iff.2 ⟨rfl, hdeep⟩)
      rcases bind_eq_error_iff.1 hrest with hscope | ⟨_, -, hpure⟩
      · obtain ⟨before, h, after, v, hsplit, hbefore, hv, hout, rfl⟩ :=
          checkScope_eq_error_iff.1 hscope
        exact .unbound hwithin (hsplit ▸ Walk.flatten_postOrder horder) hbefore hv hout
      · cases hpure
  · intro hfault
    cases hfault with
    | tooDeep hdeep => exact .inl ⟨_, Walk.flatten_depthExceeded_iff.2 ⟨rfl, hdeep⟩, rfl⟩
    | @unbound before after h v hwithin hpost hbefore hv hout =>
      obtain ⟨order, horder⟩ := hf.flatten_ok hroots hwithin
      have hsplit := (Walk.flatten_postOrder horder).unique hpost
      refine .inr ⟨order, horder, bind_eq_error_iff.2 (.inl ?_)⟩
      exact checkScope_eq_error_iff.2 ⟨before, h, after, v, hsplit, hbefore, hv, hout, rfl⟩

theorem exists_arrange_iff_sound (hf : arena.Founded)
    (hroots : ∀ r ∈ q.roots, r.index < arena.nodes.size) :
    (∃ order, arrange arena.nodes q.name q.roots = .ok order) ↔ q.Sound arena.nodes := by
  have hscope {order : Array Handle} (horder : flatten arena.nodes q.roots = .ok order) :
      checkScope arena.nodes q.name order = .ok () ↔
        ∀ h, Reachable arena.nodes q.roots h → ∀ v, varOf arena.nodes h = some v →
          v ∈ q.name.scope := by
    have hmem (a : Handle) := (Walk.flatten_postOrder horder).mem_iff (a := a)
    simp only [checkScope_eq_ok_iff, List.mem_filterMap, hmem]
    constructor
    · exact fun h a ha v hv => h v ⟨a, ha, hv⟩
    · rintro h v ⟨a, ha, hv⟩
      exact h a ha v hv
  simp only [arrange_eq_ok_iff]
  constructor
  · rintro ⟨order, horder, hpass⟩
    refine ⟨fun hdeep => ?_, (hscope horder).1 hpass⟩
    cases horder.symm.trans (Walk.flatten_depthExceeded_iff.2 ⟨rfl, hdeep⟩)
  · rintro ⟨hwithin, hvars⟩
    obtain ⟨order, horder⟩ := hf.flatten_ok hroots hwithin
    exact ⟨order, horder, (hscope horder).2 hvars⟩

/-! ## Several procedures -/

/-- Of several procedures, the first one at fault is reported. -/
theorem findSome?_arrange_eq_some_iff (hf : arena.Founded) {procedures : List Procedure}
    (hroots : ∀ q ∈ procedures, ∀ r ∈ q.roots, r.index < arena.nodes.size) {e : CompileError} :
    (procedures.findSome? fun q => fault? (arrange arena.nodes q.name q.roots)) = some e ↔
      ∃ before q after, procedures = before ++ q :: after ∧
        (∀ q' ∈ before, q'.Sound arena.nodes) ∧ q.Fault arena.nodes e := by
  simp only [List.findSome?_eq_some_iff, fault?_eq_some_iff, fault?_eq_none_iff]
  constructor
  · rintro ⟨before, q, after, rfl, herror, hbefore⟩
    refine ⟨before, q, after, rfl, fun q' hq' => ?_, ?_⟩
    · exact (exists_arrange_iff_sound hf (hroots q' (List.mem_append_left _ hq'))).1 (hbefore q' hq')
    · exact (arrange_eq_error_iff hf (hroots q (by simp))).1 herror
  · rintro ⟨before, q, after, rfl, hbefore, hfault⟩
    refine ⟨before, q, after, rfl, ?_, fun q' hq' => ?_⟩
    · exact (arrange_eq_error_iff hf (hroots q (by simp))).2 hfault
    · exact (exists_arrange_iff_sound hf (hroots q' (List.mem_append_left _ hq'))).2 (hbefore q' hq')

/-- No procedure is at fault exactly if all of them are sound. -/
theorem findSome?_arrange_eq_none_iff (hf : arena.Founded) {procedures : List Procedure}
    (hroots : ∀ q ∈ procedures, ∀ r ∈ q.roots, r.index < arena.nodes.size) :
    (procedures.findSome? fun q => fault? (arrange arena.nodes q.name q.roots)) = none ↔
      ∀ q ∈ procedures, q.Sound arena.nodes := by
  simp only [List.findSome?_eq_none_iff, fault?_eq_none_iff]
  exact forall₂_congr fun q hq => exists_arrange_iff_sound hf (hroots q hq)

end Program

end SphereTracer
