import SphereTracer.Proofs.Graph.Invariant

/-!
# What flattening answers

The order is the recursive post-order of the roots, and there is one unless a cycle, a handle that
leads nowhere or the limit on pending entries is in the way.  Each fault is genuine: a node that is
shared, or that is pending several times, is not taken for a cycle.
-/

namespace SphereTracer

open Relation

namespace Walk

open SphereTracer.Graph

variable {nodes : Array Node} {roots : List Handle}

/-! ## Orders -/

/-- What pending entries, the next one first, still do to the order: an expanded entry lists its
node, and any other is walked recursively. -/
inductive Settles (nodes : Array Node) : List Pending → List Handle → List Handle → Prop where
  | nil (out : List Handle) : Settles nodes [] out out
  | emit {h : Handle} {rest : List Pending} {out out' : List Handle}
      (hrest : Settles nodes rest (out ++ [h]) out') : Settles nodes (⟨h, true⟩ :: rest) out out'
  | walk {h : Handle} {rest : List Pending} {out mid out' : List Handle}
      (hwalk : PostOrder nodes [h] out mid) (hrest : Settles nodes rest mid out') :
      Settles nodes (⟨h, false⟩ :: rest) out out'

theorem Settles.of_fresh {marks : Array Mark} {operands : List Handle} {rest : List Pending}
    {out out' : List Handle}
    (hready : ∀ b ∈ operands, marks[b.index]? = some .unvisited ∨ b ∈ out)
    (h : Settles nodes (fresh marks operands ++ rest) out out') :
    ∃ mid, PostOrder nodes operands out mid ∧ Settles nodes rest mid out' := by
  induction operands generalizing out with
  | nil => exact ⟨out, .nil out, h⟩
  | cons a operands ih =>
    rw [List.forall_mem_cons] at hready
    by_cases hmark : marks[a.index]? = some .unvisited
    · have hfresh : fresh marks (a :: operands) = ⟨a, false⟩ :: fresh marks operands := by
        simp [fresh, hmark]
      rw [hfresh] at h
      cases h with
      | walk hwalk hrest =>
        obtain ⟨mid, hoperands, hsettles⟩ :=
          ih (fun b hb => (hready.2 b hb).imp_right hwalk.mem_of_mem) hrest
        exact ⟨mid, hwalk.append hoperands, hsettles⟩
    · have hfresh : fresh marks (a :: operands) = fresh marks operands := by
        simp [fresh, hmark]
      rw [hfresh] at h
      obtain ⟨mid, hoperands, hsettles⟩ := ih hready.2 h
      exact ⟨mid, .seen (hready.1.resolve_left hmark) hoperands, hsettles⟩

/-- A move changes nothing about what the pending entries do in the end. -/
theorem Settles.of_move {rest : List Handle} {walk next : Walk} {out : List Handle}
    (hinv : Inv nodes roots (rest, walk)) (hmove : Move nodes walk next)
    (h : Settles nodes next.todo next.order.toList out) :
    Settles nodes walk.todo walk.order.toList out := by
  have hdone := hinv.done_iff
  cases hmove with
  | finish hnode =>
    rw [todo_push]
    simp only [Array.toList_push] at h
    exact .emit h
  | drop hnode hmark =>
    rw [todo_push]
    exact .walk (.seen ((hdone _).1 hmark) (.nil _)) h
  | @expand marks order stack h' node hnode hmark hready =>
    rw [todo_push]
    rw [todo_expand marks] at h
    have hnew : h' ∉ order.toList := by
      intro hmem
      cases hmark.symm.trans ((hdone h').2 hmem)
    have hlisted (b : Handle) (hb : b ∈ node.op.operands) :
        (opened marks h')[b.index]? = some .unvisited ∨ b ∈ order.toList := by
      refine (hready b hb).imp_right fun hfinished => (hdone b).1 ?_
      rw [getElem?_opened] at hfinished
      by_cases heq : h' = b
      · simp [heq] at hfinished
      · rwa [if_neg heq] at hfinished
    obtain ⟨mid, hoperands, hsettles⟩ := h.of_fresh hlisted
    cases hsettles with
    | emit hrest => exact .walk (.visit hnew hnode hoperands (.nil _)) hrest

/-- Whatever completes the rest of a walk completes the post-order of all of its roots. -/
theorem completes {state : List Handle × Walk} (hreach : Reaches nodes roots state)
    {mid out : List Handle} (htodo : Settles nodes state.2.todo state.2.order.toList mid)
    (hrest : PostOrder nodes state.1 mid out) : PostOrder nodes roots [] out := by
  -- Backwards along the walk: what completes the next state completes the one before it.
  induction hreach generalizing mid out with
  | refl =>
    cases htodo
    exact hrest
  | tail hbefore hadvance ih =>
    cases hadvance with
    | move hmove => exact ih (.of_move (Inv.of_reaches hbefore) hmove htodo) hrest
    | root =>
      simp only [todo, List.reverse_singleton] at htodo
      cases htodo with
      | walk hwalk hnil =>
        cases hnil
        exact ih (.nil _) (hwalk.append hrest)

/-- A walk that ends with an order has computed the post-order of its roots. -/
theorem foldlM_visit_ok {walk : Walk}
    (h : roots.foldlM (visit nodes) (.start nodes.size) = .ok walk) :
    PostOrder nodes roots [] walk.order.toList ∧ walk.stack = #[] ∧ Inv nodes roots ([], walk) := by
  have hends := @resume_ends nodes (roots, start nodes.size)
  rw [resume_start, h] at hends
  cases hends with
  | order hpath hempty =>
    have htodo : walk.todo = [] := by
      rw [todo, hempty]
      rfl
    refine ⟨completes hpath ?_ (.nil walk.order.toList), hempty, Inv.of_reaches hpath⟩
    rw [htodo]
    exact .nil _

theorem flatten_postOrder {order : Array Handle} (h : flatten nodes roots = .ok order) :
    PostOrder nodes roots [] order.toList := by
  rw [flatten_eq_resume, resume_start] at h
  cases hwalk : roots.foldlM (visit nodes) (start nodes.size) with
  | error e =>
    rw [hwalk] at h
    cases h
  | ok walk =>
    rw [hwalk] at h
    cases h
    exact (foldlM_visit_ok hwalk).1

theorem visit_done {walk : Walk} {r : Handle} (hempty : walk.stack = #[])
    (hvalid : r.index < nodes.size) (hdone : walk.marks[r.index]? = some .done) :
    visit nodes walk r = .ok walk := by
  obtain ⟨marks, order, stack⟩ := walk
  obtain rfl : stack = #[] := hempty
  have hnode := Array.getElem?_eq_getElem hvalid
  have hstep : step nodes ⟨marks, order, #[].push ⟨r, false⟩⟩ ⟨r, false⟩ =
      .ok ⟨marks, order, #[]⟩ := by
    simp [step, hnode, hdone]
  rw [visit, run_of_ok Array.back?_push hstep]
  exact run_of_empty rfl

/-- A root that the roots before it need adds nothing. -/
theorem flatten_skip (front back : List Handle) {r : Handle} (hr : Reachable nodes front r) :
    flatten nodes (front ++ r :: back) = flatten nodes (front ++ back) := by
  simp only [flatten_eq_resume, resume_start, List.foldlM_append, List.foldlM_cons]
  cases hwalk : front.foldlM (visit nodes) (start nodes.size) with
  | error e => rfl
  | ok walk =>
    obtain ⟨hpost, hempty, hinv⟩ := foldlM_visit_ok hwalk
    have hmem : r ∈ walk.order.toList := hpost.mem_iff.2 hr
    have hvisit := visit_done hempty (hpost.sound hr).2 ((hinv.done_iff r).2 hmem)
    change Except.map _ (visit nodes walk r >>= fun walk => back.foldlM (visit nodes) walk) = _
    rw [hvisit]

/-! ## Faults -/

/-- A node that is taken for its own operand is one. -/
theorem Fault.cycle {state : List Handle × Walk} {top : Pending} {h : Handle}
    (hinv : Inv nodes roots state) (htop : state.2.stack.back? = some top)
    (hfault : Fault nodes state.2 top (.cycle h)) :
    h.index < nodes.size ∧ Reachable nodes roots h ∧ OnCycle nodes h := by
  obtain ⟨rest, marks, order, stack⟩ := state
  obtain ⟨stack, rfl⟩ := Array.back?_eq_some_iff.1 htop
  obtain ⟨hsize, _, _, hactive, hreach, hpath⟩ := hinv
  simp only [todo_push, List.forall_mem_cons, List.pairwise_cons] at hsize hactive hreach hpath
  have hopen (b : Handle) (htop : top.expanded = false) (hb : marks[b.index]? = some .active) :
      TransGen (Uses nodes) b top.handle := by
    rcases List.mem_cons.1 (hactive b hb) with heq | hrest
    · rw [← heq] at htop
      cases htop
    · exact hpath.1 _ hrest rfl
  have hvalid {m : Mark} (hm : marks[h.index]? = some m) : h.index < nodes.size :=
    hsize ▸ (Array.getElem?_eq_some_iff.1 hm).1
  cases hfault with
  -- Both faults close the path from an open node down to the top: at the top itself, or at an
  -- operand of it.
  | openRoot hunexpanded hmark =>
    exact ⟨hvalid hmark, hreach.1, hopen _ hunexpanded hmark⟩
  | openOperand hunexpanded huse hmark =>
    rw [getElem?_opened] at hmark
    by_cases heq : top.handle = h
    · subst heq
      obtain ⟨m, hm, _⟩ := Option.map_eq_some_iff.1 (if_pos rfl ▸ hmark)
      exact ⟨hvalid hm, hreach.1, .single huse⟩
    · rw [if_neg heq] at hmark
      exact ⟨hvalid hmark, hreach.1.step huse, (hopen h hunexpanded hmark).tail huse⟩

theorem Fault.unknownNode {state : List Handle × Walk} {top : Pending} {h : Handle}
    (hinv : Inv nodes roots state) (htop : state.2.stack.back? = some top)
    (hfault : Fault nodes state.2 top (.unknownNode h)) :
    nodes.size ≤ h.index ∧ Reachable nodes roots h := by
  obtain ⟨rest, marks, order, stack⟩ := state
  obtain ⟨stack, rfl⟩ := Array.back?_eq_some_iff.1 htop
  have hsize : marks.size = nodes.size := hinv.marks_size
  have hreach := hinv.reachable top (by simp)
  cases hfault with
  | strayRoot hstray =>
    rcases hstray with hstray | hstray
    · exact ⟨Array.getElem?_eq_none_iff.1 hstray, hreach⟩
    · exact ⟨hsize ▸ Array.getElem?_eq_none_iff.1 hstray, hreach⟩
  | strayOperand huse hstray =>
    refine ⟨?_, hreach.step huse⟩
    have hle := Array.getElem?_eq_none_iff.1 hstray
    simp only [opened, Array.size_setIfInBounds] at hle
    omega

theorem flatten_fault {e : GraphError} (h : flatten nodes roots = .error e) :
    ∃ state top, Inv nodes roots state ∧ state.2.stack.back? = some top ∧
      Fault nodes state.2 top e := by
  cases ends_of_flatten_error h with
  | fault hpath htop hfault => exact ⟨_, _, Inv.of_reaches hpath, htop, hfault⟩

theorem flatten_cycle {h : Handle} (he : flatten nodes roots = .error (.cycle h)) :
    h.index < nodes.size ∧ Reachable nodes roots h ∧ OnCycle nodes h := by
  obtain ⟨state, top, hinv, htop, hfault⟩ := flatten_fault he
  exact hfault.cycle hinv htop

theorem flatten_unknownNode {h : Handle} (he : flatten nodes roots = .error (.unknownNode h)) :
    nodes.size ≤ h.index ∧ Reachable nodes roots h := by
  obtain ⟨state, top, hinv, htop, hfault⟩ := flatten_fault he
  exact hfault.unknownNode hinv htop

/-- Without a cycle or a stray handle in reach, only the limit on pending entries can be met. -/
theorem flatten_ok (hsound : ∀ h, Reachable nodes roots h → ¬ OnCycle nodes h ∧ h.index < nodes.size)
    (hwithin : ¬ Exceeds nodes roots) : ∃ order, flatten nodes roots = .ok order := by
  cases hflat : flatten nodes roots with
  | ok order => exact ⟨order, rfl⟩
  | error e =>
    cases e with
    | cycle h =>
      obtain ⟨_, hreach, hon⟩ := flatten_cycle hflat
      exact absurd hon (hsound h hreach).1
    | depthExceeded limit => exact absurd (flatten_depthExceeded_iff.1 hflat).2 hwithin
    | unknownNode h =>
      obtain ⟨hstray, hreach⟩ := flatten_unknownNode hflat
      exact absurd (hsound h hreach).2 (Nat.not_lt.2 hstray)

end Walk

open SphereTracer.Graph

/-! ## Exactness -/

/-- If flattening succeeds, its answer is the recursive post-order of the roots: exactly the nodes
in reach, each once and after its operands.  A root that the roots before it need changes nothing. -/
theorem flatten_eq_postOrder {nodes : Array Node} {roots : List Handle} {order : Array Handle}
    (h : flatten nodes roots = .ok order) :
    (∀ out, PostOrder nodes roots [] out ↔ out = order.toList) ∧
      (∀ a, a ∈ order.toList ↔ Reachable nodes roots a) ∧
      order.toList.Nodup ∧
      OperandsFirst nodes order.toList ∧
      ∀ front r back, roots = front ++ r :: back → Reachable nodes front r →
        flatten nodes (front ++ back) = .ok order := by
  have hpost := Walk.flatten_postOrder h
  refine ⟨fun out => ⟨fun hout => hout.unique hpost, ?_⟩, fun a => hpost.mem_iff,
    hpost.nodup .nil List.nodup_nil, hpost.operandsFirst .nil, ?_⟩
  · rintro rfl
    exact hpost
  · rintro front r back rfl hr
    rw [← Walk.flatten_skip front back hr, h]

/-- A shared operand, beside a node that needs itself and another one that is not there. -/
def sharedNodes : Array Node :=
  #[⟨.var .position, 0⟩, ⟨.unary .length ⟨0⟩, 1⟩, ⟨.binary .sub ⟨1⟩ ⟨0⟩, 2⟩,
    ⟨.binary .add ⟨3⟩ ⟨9⟩, 3⟩]

theorem flatten_eq_postOrder_shared :
    flatten sharedNodes [⟨2⟩, ⟨1⟩, ⟨2⟩] = .ok #[⟨0⟩, ⟨1⟩, ⟨2⟩] ∧
      (∀ out, PostOrder sharedNodes [⟨2⟩, ⟨1⟩, ⟨2⟩] [] out ↔ out = [⟨0⟩, ⟨1⟩, ⟨2⟩]) ∧
      (∀ a, a ∈ [⟨0⟩, ⟨1⟩, ⟨2⟩] ↔ Reachable sharedNodes [⟨2⟩, ⟨1⟩, ⟨2⟩] a) ∧
      ([⟨0⟩, ⟨1⟩, ⟨2⟩] : List Handle).Nodup ∧
      OperandsFirst sharedNodes [⟨0⟩, ⟨1⟩, ⟨2⟩] ∧
      ∀ front r back, [⟨2⟩, ⟨1⟩, ⟨2⟩] = front ++ r :: back → Reachable sharedNodes front r →
        flatten sharedNodes (front ++ back) = .ok #[⟨0⟩, ⟨1⟩, ⟨2⟩] := by
  have h : flatten sharedNodes [⟨2⟩, ⟨1⟩, ⟨2⟩] = .ok #[⟨0⟩, ⟨1⟩, ⟨2⟩] := by cbv
  exact ⟨h, flatten_eq_postOrder h⟩

/-- Flattening always ends, and each of its errors is exact: a cycle is one, in reach of the roots; a
handle that is refused is a root or an operand in reach, and leads nowhere; and the walk is given up
only when more entries are pending than the limit allows.  Without such a cause there is an order,
and with one there is none. -/
theorem flatten_errors_exact (nodes : Array Node) (roots : List Handle) :
    (WellFounded fun next state => Walk.Advance nodes state next) ∧
      (∃ result, Walk.Ends nodes (roots, .start nodes.size) result ∧
        flatten nodes roots = result.map (·.order)) ∧
      (∀ h, flatten nodes roots = .error (.cycle h) →
        h.index < nodes.size ∧ Reachable nodes roots h ∧ OnCycle nodes h) ∧
      (∀ h, flatten nodes roots = .error (.unknownNode h) → nodes.size ≤ h.index ∧
        (h ∈ roots ∨ ∃ g, Reachable nodes roots g ∧ Uses nodes g h)) ∧
      (∀ limit, flatten nodes roots = .error (.depthExceeded limit) ↔
        limit = maxTraversal ∧ Walk.Exceeds nodes roots) ∧
      ((∀ h, Reachable nodes roots h → ¬ OnCycle nodes h ∧ h.index < nodes.size) →
        ¬ Walk.Exceeds nodes roots → ∃ order, flatten nodes roots = .ok order) ∧
      ((∃ h, Reachable nodes roots h ∧ (OnCycle nodes h ∨ nodes.size ≤ h.index)) →
        ∀ order, flatten nodes roots ≠ .ok order) := by
  refine ⟨Walk.advance_wellFounded nodes, ⟨_, Walk.resume_ends _, Walk.flatten_eq_resume roots⟩,
    fun h => Walk.flatten_cycle, fun h he => ?_, fun limit => Walk.flatten_depthExceeded_iff,
    Walk.flatten_ok, ?_⟩
  · obtain ⟨hstray, hreach⟩ := Walk.flatten_unknownNode he
    exact ⟨hstray, hreach.root_or_operand⟩
  · rintro ⟨h, hreach, hbad⟩ order hok
    obtain ⟨hacyclic, hvalid⟩ := (Walk.flatten_postOrder hok).sound hreach
    rcases hbad with hon | hstray
    · exact hacyclic hon
    · omega

end SphereTracer
